import TagTemplate.Proofs.Engine.Walk

/-!
# Where a rendering meets its ceiling

Main statement: `ceiling_met_iff`, the reply is the fault of the ceiling exactly if the walk of the
rendering comes to a node at the level of the ceiling that pushes a frame, includes a text that is
found, or is a block over an array without elements. The last one pushes no frame and meets the
ceiling all the same: `ceiling_met_without_frame`.
-/

namespace TagTemplate

open StateTransition

section

variable {σ : Type} {s : Setup σ} {view : Value} {limit : Nat} {template : String}
  {result : Except Fault String}

/-- A result under a ceiling is the fault of the ceiling exactly if the walk comes to a node that
meets it. -/
theorem Setup.Ends.tooDeep_iff (h : (s.under (some limit)).Ends template view result)
    (htransformers : view.OffersNoTransformer s.callables)
    (hgetters : view.OffersPureGetters s.callables) (memory : σ) :
    result = .error (.tooDeep limit) ↔
      ∃ nodes passages, parse s.delimiters template = .ok nodes ∧
        Reaches (s.onward memory) [⟨0, ⟨view, []⟩, nodes⟩] passages ∧
        s.AtCeiling memory limit passages := by
  obtain ⟨budget, course, hrun⟩ := h ⟨memory, []⟩
  have htraced := traced_render htransformers hgetters memory limit budget
  cases hparse : parse s.delimiters template with
  | error fault =>
    rw [htraced.fault hparse hrun]
    refine iff_of_false (fun heq => ?_) fun ⟨nodes, _, htree, _⟩ => nomatch htree
    exact fault_of_parse hparse (Except.error.inj heq)
  | ok nodes =>
    have hending := htraced.tree .root (Nat.zero_le limit) hparse [] hrun
    cases hending with
    | through text hclears =>
      refine iff_of_false nofun fun ⟨_, passages, htree, hreaches, hmet⟩ => ?_
      cases htree
      exact hclears.not_atCeiling rfl (fun ⟨_, _, _, _, heq, _⟩ => nomatch heq) hreaches hmet
    | met hclears hmet => exact iff_of_true rfl ⟨nodes, _, rfl, hclears.reaches, hmet⟩
    | stuck hfault hclears hlast hnot =>
      refine iff_of_false (fun heq => hfault (Except.error.inj heq)) ?_
      rintro ⟨_, passages, htree, hreaches, hmet⟩
      cases htree
      exact hclears.not_atCeiling hlast hnot hreaches hmet

/-- Without transformers and with pure getters, every ceiling leads to one reply. It is the fault of
the ceiling exactly if the walk comes to a node at this level that pushes a frame, includes a text
that is found, or is a block over an array without elements. -/
theorem ceiling_met_iff (htransformers : view.OffersNoTransformer s.callables)
    (hgetters : view.OffersPureGetters s.callables) (template : String) (limit : Nat) :
    ∃ reply, (s.under (some limit)).Replies template view reply ∧
      ∀ memory, reply = .error (.tooDeep limit) ↔
        ∃ nodes passages, parse s.delimiters template = .ok nodes ∧
          Reaches (s.onward memory) [⟨0, ⟨view, []⟩, nodes⟩] passages ∧
          s.AtCeiling memory limit passages := by
  by_cases hσ : Nonempty σ
  case neg =>
    -- without a memory to start with there is no session
    exact ⟨.ok .done, fun session => absurd ⟨session.memory⟩ hσ, fun memory => absurd ⟨memory⟩ hσ⟩
  obtain ⟨result, hends, -⟩ := exists_ends htransformers hgetters limit template
  refine ⟨result.map .text, hends.replies, fun memory => ?_⟩
  rw [← hends.tooDeep_iff htransformers hgetters memory]
  cases result with
  | ok text => exact iff_of_false nofun nofun
  | error fault =>
    show Except.error fault = Except.error _ ↔ Except.error fault = Except.error _
    rw [Except.error.injEq, Except.error.injEq]

end

/-- A template that includes itself for the inner view. -/
def nestedSetup : Setup Unit where
  engine := {}
  inclusions := some fun name =>
    if name = "p" then some "\x7b\x7b#n\x7d\x7d\x7b\x7b>p\x7d\x7d\x7b\x7b/n\x7d\x7d" else none
  callables := .none

def nestedView : Value := .object [("n", .object [("n", .bool false)])]

def nestedReply (limit : Nat) : Option (Except Fault Reply × Session Unit) :=
  nestedSetup.engine.answer 4 nestedSetup.callables (.fresh () fun _ => .root .null)
    (.render "\x7b\x7b>p\x7d\x7d" nestedView nestedSetup.inclusions
      (nestedSetup.under (some limit)).options)

/-- The inclusion at the levels 0 and 2 and the frame at the level 1 are met by ceilings up to two,
and nothing by a ceiling of three. -/
theorem ceiling_met_iff_nested :
    nestedView.OffersNoTransformer nestedSetup.callables ∧
    nestedView.OffersPureGetters nestedSetup.callables ∧
    (∃ nodes passages,
      parse nestedSetup.delimiters "\x7b\x7b>p\x7d\x7d" = .ok nodes ∧
      Reaches (nestedSetup.onward ()) [⟨0, ⟨nestedView, []⟩, nodes⟩] passages ∧
      nestedSetup.AtCeiling () 2 passages) ∧
    ¬∃ nodes passages,
      parse nestedSetup.delimiters "\x7b\x7b>p\x7d\x7d" = .ok nodes ∧
      Reaches (nestedSetup.onward ()) [⟨0, ⟨nestedView, []⟩, nodes⟩] passages ∧
      nestedSetup.AtCeiling () 3 passages := by
  have htransformers : nestedView.OffersNoTransformer nestedSetup.callables := by
    refine Value.TransformerFree.offersNoTransformer ?_ fun _ _ _ => .null
    have hinner : (Value.object [("n", .bool false)]).TransformerFree :=
      .object (List.forall_mem_singleton.2 (.bool false))
    exact .object (List.forall_mem_singleton.2 hinner)
  have hgetters : nestedView.OffersPureGetters nestedSetup.callables := fun _ _ _ _ _ _ => rfl
  have htwo : (nestedReply 2).map (fun answer => answer.1.map fun _ => ()) =
      some (.error (.tooDeep 2)) := by decide +kernel
  have hthree : (nestedReply 3).map (fun answer => replyText? answer.1) = some (some "") := by
    decide +kernel
  refine ⟨htransformers, hgetters, ?_, ?_⟩
  · obtain ⟨⟨reply, session'⟩, hreply, hfault⟩ := Option.map_eq_some_iff.1 htwo
    obtain ⟨reply', hreplies, hiff⟩ :=
      ceiling_met_iff htransformers hgetters "\x7b\x7b>p\x7d\x7d" 2
    obtain rfl := hreplies.eq_of_answer (.fresh _ _) hreply
    refine (hiff ()).1 ?_
    cases reply' with
    | ok text => cases hfault
    | error fault =>
      cases hfault
      rfl
  · obtain ⟨⟨reply, session'⟩, hreply, htext⟩ := Option.map_eq_some_iff.1 hthree
    obtain rfl := replyText?_eq_some htext
    obtain ⟨reply', hreplies, hiff⟩ :=
      ceiling_met_iff htransformers hgetters "\x7b\x7b>p\x7d\x7d" 3
    obtain rfl := hreplies.eq_of_answer (.fresh _ _) hreply
    exact fun hmet => nomatch (hiff ()).2 hmet

def noElementsSetup : Setup Unit where
  engine := {}
  callables := .none

def noElementsView : Value := .object [("a", .array [])]

/-- A block over an array without elements ends at a ceiling of zero, although the walk pushes no
frame and includes nothing. -/
theorem ceiling_met_without_frame :
    (noElementsSetup.under (some 0)).Replies "\x7b\x7b#a\x7d\x7dx\x7b\x7b/a\x7d\x7d" noElementsView
      (.error (.tooDeep 0)) ∧
    ¬∃ nodes level here n ns rest,
      parse noElementsSetup.delimiters "\x7b\x7b#a\x7d\x7dx\x7b\x7b/a\x7d\x7d" = .ok nodes ∧
      Reaches (noElementsSetup.onward ()) [⟨0, ⟨noElementsView, []⟩, nodes⟩]
        (⟨level, here, n :: ns⟩ :: rest) ∧
      noElementsSetup.Pushes () here n := by
  have hparse : parse noElementsSetup.delimiters "\x7b\x7b#a\x7d\x7dx\x7b\x7b/a\x7d\x7d" =
      .ok [.block "a" 0 6 [.text "x" 6 7] 7] := by decide +kernel
  have hvalue : noElementsSetup.valueAt () ⟨noElementsView, []⟩ "a" = .array [] := by rfl
  constructor
  · have htransformers : noElementsView.OffersNoTransformer noElementsSetup.callables := by
      refine Value.TransformerFree.offersNoTransformer ?_ fun _ _ _ => .null
      exact .object (List.forall_mem_singleton.2 (.array (List.forall_mem_nil _)))
    have hgetters : noElementsView.OffersPureGetters noElementsSetup.callables :=
      fun _ _ _ _ _ _ => rfl
    obtain ⟨result, hends, -⟩ := exists_ends htransformers hgetters 0
      "\x7b\x7b#a\x7d\x7dx\x7b\x7b/a\x7d\x7d"
    obtain rfl := (hends.tooDeep_iff htransformers hgetters ()).2
      ⟨_, _, hparse, .refl, _, _, _, _, rfl, .inr (.block hvalue)⟩
    exact hends.replies
  · rintro ⟨nodes, level, here, n, ns, rest, htree, hreaches, hpushes⟩
    cases hparse.symm.trans htree
    have hinside : noElementsSetup.inside () 0 ⟨noElementsView, []⟩
        (.block "a" 0 6 [.text "x" 6 7] 7) = some [] :=
      Setup.inside_block (by rw [hvalue]; rfl)
    obtain heq | hreaches := Setup.reaches_of_step (Setup.onward_cons hinside) hreaches
    · cases heq
      cases hpushes with
      | frame hviews =>
        rw [hvalue] at hviews
        cases hviews
    obtain heq | hreaches := Setup.reaches_of_step rfl hreaches
    · cases heq
    · cases Setup.eq_of_reaches rfl hreaches

end TagTemplate
