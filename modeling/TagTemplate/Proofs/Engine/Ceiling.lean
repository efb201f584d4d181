import TagTemplate.Proofs.Engine.Discipline
import TagTemplate.Proofs.Engine.Faithful
import TagTemplate.Proofs.Engine.Mirror
import TagTemplate.Proofs.Engine.Offer

/-!
# What the ceiling bounds

Frames and inclusions count toward the ceiling, templates that transformers ask for do not. Main
statement: `ceiling_bounds_rendering`, under a ceiling every rendering has an outcome, whatever is
included, if the templates that the transformers of the view ask for do not lead back to one
another; by `nested_wellFounded` they do not if none is longer than the text that its transformer
received, and by `nested_wellFounded_of_offersNoTransformer` not if the view has no transformer.
`ceiling_misses_transformers` is a block that is rendered inside itself without end.
-/

namespace TagTemplate

/-- A script may ask for a template, now or later. -/
inductive Script.Requests {σ : Type} (template : String) : Script σ → Prop
  | now {memory : σ} {next : σ → Except Fault String → Script σ} :
      Requests template (.render memory template next)
  | later {memory memory' : σ} {other : String} {next : σ → Except Fault String → Script σ}
      {outcome : Except Fault String} : Requests template (next memory' outcome) →
      Requests template (.render memory other next)

section

variable {σ : Type}

/-- The transformer of some block of a template may ask for another template. It is one that the key
of the block finds at a place whose views the view at the start offers. -/
def Setup.Nested (s : Setup σ) (view : Value) (inner template : String) : Prop :=
  ∃ nodes key start bodyStart children bodyStop text here handle memory,
    parse s.delimiters template = .ok nodes ∧
    .block key start bodyStart children bodyStop ∈ Node.flatten.flattenAll nodes ∧
    blockText (some template) key bodyStart bodyStop = .ok text ∧
    here.Offering s.callables view ∧ s.Finds here key (.transformer handle) ∧
    (s.callables.transform handle memory text).Requests inner

/-! ## Parts that have an outcome -/

/-- Some budget yields an outcome, and every larger one yields the same. -/
structure Settled {α : Type} (V : α → Prop) (p : Nat → PlainM σ α) : Prop where
  steady : Steady V p
  outcome : ∀ c, ∃ budget o, (p budget).run c = some o

namespace Settled

variable {α β : Type} {V : α → Prop} {W : β → Prop}

theorem pure {a : α} (h : V a) : Settled V fun _ => (Pure.pure a : PlainM σ α) :=
  ⟨.pure h, fun _ => ⟨0, _, rfl⟩⟩

theorem bind {p : Nat → PlainM σ α} {f : α → Nat → PlainM σ β} (hp : Settled V p)
    (hf : ∀ a, V a → Settled W (f a)) :
    Settled W fun budget => p budget >>= fun a => f a budget := by
  refine ⟨hp.steady.bind fun a ha => (hf a ha).steady, fun c => ?_⟩
  obtain ⟨budget, ⟨fault | a, c'⟩, hfirst⟩ := hp.outcome c
  · refine ⟨budget, (.error fault, c'), ?_⟩
    rw [PlainM.run_bind, hfirst]
  · have ha := hf a (hp.steady.result hfirst)
    obtain ⟨more, o, hrest⟩ := ha.outcome c'
    refine ⟨max budget more, o, ?_⟩
    rw [PlainM.run_bind, hp.steady.stays (Nat.le_max_left budget more) hfirst]
    exact ha.steady.stays (Nat.le_max_right budget more) hrest

theorem lift {x : Except Fault α} (h : ∀ a, x = .ok a → V a) :
    Settled V fun _ => (PlainM.lift x : PlainM σ α) := by
  refine ⟨.constant fun {c a c'} hrun => ?_, fun c => ⟨0, (x, c), PlainM.run_lift x c⟩⟩
  rw [PlainM.run_lift] at hrun
  exact h a (Prod.mk.inj (Option.some.inj hrun)).1

theorem seek {s : Setup σ} {here : Standpoint} {name : String} {V : Value → Prop}
    (h : PlainM.Gives V (s.seek here name)) : Settled V fun _ => s.seek here name := by
  refine ⟨.constant fun hrun => h hrun, fun c => ?_⟩
  simp only [Setup.run_seek]
  cases here.find name <;> exact ⟨0, _, rfl⟩

theorem ask (s : Setup σ) (name : String) : Settled (fun _ => True) fun _ => s.ask name := by
  refine ⟨.constant fun _ => trivial, fun c => ?_⟩
  rw [Setup.ask]
  cases s.inclusions <;> exact ⟨0, _, rfl⟩

/-- A script comes to an end if every template that it may ask for does. -/
theorem perform {render : Nat → String → PlainM σ String}
    (hsteady : ∀ template, Steady (fun _ => True) fun budget => render budget template)
    {w : Script σ} (hrender : ∀ template, w.Requests template →
      Settled (fun _ => True) fun budget => render budget template) :
    Settled (fun _ => True) fun budget => w.performPlainly (render budget) := by
  refine ⟨.perform hsteady w, fun c => ?_⟩
  induction w generalizing c with
  | done | fail => exact ⟨0, _, rfl⟩
  | render memory template next ih =>
    obtain ⟨budget, ⟨outcome, c'⟩, hfirst⟩ := (hrender template .now).outcome { c with memory }
    obtain ⟨more, o, hrest⟩ := ih c'.memory outcome
      (fun other hother => hrender other (.later hother)) c'
    refine ⟨max budget more, o, ?_⟩
    rw [PlainM.run_perform_render,
      (hsteady template).stays (Nat.le_max_left budget more) hfirst]
    exact (Steady.perform hsteady _).stays (Nat.le_max_right budget more) hrest

end Settled

def Discipline.settled (σ : Type) : Discipline σ where
  Keeps := Settled
  pure := .pure
  bind := .bind

/-! ## Renderings under a ceiling -/

variable (s : Setup σ)

theorem Options.descend_le {o : Options} {limit depth below : Nat}
    (hceiling : o.ceiling = some limit) (h : o.descend depth = .ok below) :
    below = depth + 1 ∧ depth < limit := by
  rw [descend, hceiling] at h
  simp only at h
  split at h
  · cases h
  · next hle =>
    cases h
    exact ⟨rfl, by omega⟩

/-- An inclusion comes to an end if its template does, one level deeper and not too deep. -/
theorem Settled.included {limit depth : Nat} (hceiling : s.options.ceiling = some limit)
    {here : Standpoint} {body : BlockText} {key : String} {start stop : Nat} {margin : Margin}
    (hinner : ∀ inner, depth < limit → Settled (fun _ => True) fun budget =>
      s.renderPlainly budget here (depth + 1) inner) :
    Settled (fun _ => True) fun budget =>
      (Node.inclusion key start stop margin).writePlainly s (s.renderPlainly budget) body depth
        here := by
  simp only [Node.writePlainly]
  refine (Settled.ask s key).bind fun text _ => ?_
  cases text with
  | none => exact .pure trivial
  | some text =>
    refine (Settled.lift fun _ h => h).bind fun below hdescend => ?_
    obtain ⟨rfl, hlt⟩ := Options.descend_le hceiling hdescend
    exact hinner _ hlt

/-- A template comes to an end if its tree does. -/
theorem Settled.template {here : Standpoint} {depth : Nat} {template : String}
    (htree : ∀ nodes, parse s.delimiters template = .ok nodes →
      Settled (fun _ => True) fun budget =>
        writePlainly s (s.renderPlainly budget) (blockText (some template)) depth here nodes) :
    Settled (fun _ => True) fun budget => s.renderPlainly budget here depth template := by
  refine ⟨steady_render s here depth template, fun c => ?_⟩
  cases hparse : parse s.delimiters template with
  | error fault =>
    refine ⟨1, (.error fault, c), ?_⟩
    rw [Setup.renderPlainly, hparse]
    rfl
  | ok nodes =>
    obtain ⟨budget, o, hrun⟩ := (htree nodes hparse).outcome c
    refine ⟨budget + 1, o, ?_⟩
    rw [Setup.renderPlainly, hparse]
    exact hrun

/-- Writing the tree of a template comes to an end if the inclusions below do, and the templates
that its transformers ask for. -/
theorem settled_covers (low : Nat) {limit : Nat} (hceiling : s.options.ceiling = some limit)
    {view : Value} {template : String} {nodes : List Node}
    (hparse : parse s.delimiters template = .ok nodes)
    (hbelow : ∀ {here : Standpoint} (depth inner), here.Offering s.callables view → low < depth →
      depth ≤ limit → Settled (fun _ => True) fun budget => s.renderPlainly budget here depth inner)
    (hnested : ∀ {here : Standpoint} (depth inner), here.Offering s.callables view →
      low ≤ depth → s.Nested view inner template →
        Settled (fun _ => True) fun budget => s.renderPlainly budget here depth inner) :
    Covers (.settled σ) s s.renderPlainly (blockText (some template)) low
      (Standpoint.Offering s.callables view) (view.Offers s.callables)
      (Node.flatten.flattenAll nodes) where
  push hplace hview := hplace.push hview
  item := .item
  seek key hplace := .seek fun _ _ _ hrun => ⟨hplace.seek key hrun, Setup.finds_of_run hrun⟩
  descend depth := .lift fun _ h => h
  inclusion {here depth _ _ _ _} hlow hplace _ :=
    .included s hceiling fun inner hlt => hbelow (depth + 1) inner hplace (by omega) hlt
  transform {here depth key start bodyStart children bodyStop handle} hlow hplace _ hfinds
      hmem := by
    refine (Settled.lift fun _ h => h).bind fun text htext => ?_
    have hperform (memory : σ) := Settled.perform
      (fun template => steady_render s here depth template)
      (w := s.callables.transform handle memory text) fun inner hrequest =>
        hnested depth inner hplace hlow
          ⟨nodes, key, start, bodyStart, children, bodyStop, text, here, handle, memory, hparse,
            hmem, htext, hplace, hfinds, hrequest⟩
    exact ⟨⟨fun _ => trivial, fun {_ _ c _} hle h => (hperform c.memory).steady.stays hle h⟩,
      fun c => (hperform c.memory).outcome c⟩

/-- Under a ceiling every rendering has an outcome, if the templates that transformers ask for do
not lead back to one another. -/
theorem settled_render {limit : Nat} (hceiling : s.options.ceiling = some limit) {view : Value}
    (hnested : WellFounded (s.Nested view)) {here : Standpoint}
    (hplace : here.Offering s.callables view) (depth : Nat) (template : String) :
    Settled (fun _ => True) fun budget => s.renderPlainly budget here depth template := by
  -- on how far the ceiling is away, and there on the templates that ask for one another
  suffices h : ∀ room template (here : Standpoint) depth, here.Offering s.callables view →
      limit - depth ≤ room →
        Settled (fun _ => True) fun budget => s.renderPlainly budget here depth template from
    h (limit - depth) template here depth hplace le_rfl
  intro room
  induction room using Nat.strongRecOn with
  | ind room ihroom =>
    intro template
    induction template using hnested.induction with
    | _ template ihtemplate =>
      intro here depth hplace hroom
      refine .template s fun nodes hparse => ?_
      have hcovers := settled_covers s depth hceiling hparse
        (fun depth' inner hplace hlt hle =>
          ihroom (limit - depth') (by omega) inner _ depth' hplace le_rfl)
        (fun depth' inner hplace hle hinner =>
          ihtemplate inner hinner _ depth' hplace (by omega))
      exact hcovers.writeNodes le_rfl hplace nodes (List.Subset.refl _)

/-- No transformer's templates lead back to one another if each is at most as long as the text that
its transformer received, for that text is shorter than the template around it. -/
theorem nested_wellFounded (hd : s.delimiters.BlankFree)
    (hreceived : ∀ handle memory text inner,
      (s.callables.transform handle memory text).Requests inner →
        byteLength inner.toList ≤ byteLength text.toList) (view : Value) :
    WellFounded (s.Nested view) := by
  refine Subrelation.wf (r := InvImage (· < ·) fun template : String => byteLength template.toList)
    ?_ (InvImage.wf _ Nat.lt_wfRel.wf)
  rintro inner template ⟨nodes, key, start, bodyStart, children, bodyStop, text, here, handle,
    memory, hparse, hmem, htext, -, -, hrequest⟩
  have hbody := body_of_parse hd hparse hmem (.inl rfl)
  have hle := hreceived handle memory text inner hrequest
  obtain ⟨raw, hraw⟩ := hbody.raw
  obtain ⟨-, hlen⟩ := slice?_eq_some_iff.1 hraw
  have hopening := hbody.opening
  have hwithin := hbody.within
  simp only [blockText, hraw, Except.ok.injEq] at htext
  subst htext
  rw [String.toList_ofList] at hle
  show byteLength inner.toList < byteLength template.toList
  omega

/-- A view that offers no transformer leads to no template. -/
theorem nested_wellFounded_of_offersNoTransformer {view : Value}
    (h : view.OffersNoTransformer s.callables) : WellFounded (s.Nested view) := by
  refine ⟨fun template => ⟨template, ?_⟩⟩
  rintro inner ⟨_, _, _, _, _, _, _, here, handle, _, -, -, -, hplace, hfinds, -⟩
  exact absurd (hplace.finds hfinds) (h handle)

end

/-- Under a ceiling a call that renders a template is replied to, whatever is included and whatever
the view, if the templates that its transformers ask for do not lead back to one another: there is a
budget that suffices, and every larger one does. -/
theorem ceiling_bounds_rendering {σ : Type} {s : Setup σ} {session : Session σ}
    (hreaches : s.engine.Reaches s.callables session) {limit : Nat}
    (hceiling : s.options.ceiling = some limit) (template : String) (view : Value)
    (hnested : WellFounded (s.Nested view)) :
    ∃ budget, ∀ larger, budget ≤ larger → ∃ reply session',
      s.engine.answer larger s.callables session
        (.render template view s.inclusions s.options) = some (reply, session') := by
  have hsettled := settled_render s hceiling hnested Standpoint.Offering.root 0 template
  obtain ⟨budget, ⟨result, c⟩, hrun⟩ :=
    hsettled.outcome ⟨session.memory, session.shelf.askedNames⟩
  refine ⟨budget, fun larger hle => ?_⟩
  have hplain := answer_plainReply s hreaches.sound larger template view
  rw [hsettled.steady.stays hle hrun] at hplain
  obtain ⟨session', hanswer, -⟩ := hplain.of_plain
  exact ⟨_, session', hanswer⟩

/-! ## An example of each kind -/

theorem Script.not_requests_done {σ : Type} {memory : σ} {output : Option String} {inner : String} :
    ¬(Script.done memory output).Requests inner := nofun

/-- The transformer that has its text rendered asks for nothing else. -/
theorem render_requests {σ : Type} (calls : Nat) {memory : σ} {text inner : String}
    (h : (TransformerRecipe.render.script calls memory text).Requests inner) : inner = text := by
  cases h with
  | now => rfl
  | @later _ _ _ _ outcome h => cases outcome <;> cases h

/-- An inclusion that includes itself, also inside a block that has its text rendered. -/
theorem ceiling_bounds_rendering_loop :
    Engine.Reaches {} (.ofRecipes #[.transformer .render]) (.fresh [] fun _ => .root .null) ∧
    ∃ budget, ∀ larger, budget ≤ larger → ∃ reply session',
      ({} : Engine).answer larger (.ofRecipes #[.transformer .render])
        (.fresh [] fun _ => .root .null)
        (.render "\x7b\x7b>p\x7d\x7d" (.object [("f", .transformer 0)])
          (some fun _ => some "\x7b\x7b#f\x7d\x7d\x7b\x7b>p\x7d\x7d\x7b\x7b/f\x7d\x7d")
          { ceiling := some 3 }) = some (reply, session') := by
  have hreaches : Engine.Reaches {} (.ofRecipes #[.transformer .render])
      (.fresh [] fun _ => .root .null) := .fresh _ _
  let s : Setup CallCounts :=
    { engine := {}
      options := { ceiling := some 3 }
      inclusions := some fun _ =>
        some "\x7b\x7b#f\x7d\x7d\x7b\x7b>p\x7d\x7d\x7b\x7b/f\x7d\x7d"
      callables := .ofRecipes #[.transformer .render] }
  have hnested : WellFounded (s.Nested (.object [("f", .transformer 0)])) := by
    refine nested_wellFounded s (show Delimiters.standard.BlankFree by decide) ?_ _
    intro handle memory text inner h
    cases handle with
    | zero => exact (render_requests 0 h).symm ▸ le_rfl
    | succ handle => exact absurd h Script.not_requests_done
  exact ⟨hreaches, ceiling_bounds_rendering (s := s) hreaches rfl _ _ hnested⟩

/-- A block whose transformer has the whole template rendered again. -/
def endlessBlock : Setup CallCounts where
  engine := {}
  options := { ceiling := some 1 }
  callables := .ofRecipes #[.transformer (.template "\x7b\x7b#f\x7d\x7d\x7b\x7b/f\x7d\x7d")]

/-- The block has itself rendered inside itself, at the same depth. -/
theorem endlessBlock_exhausts (budget : Nat) (c : Course CallCounts) :
    (endlessBlock.renderPlainly budget ⟨.object [("f", .transformer 0)], []⟩ 0
      "\x7b\x7b#f\x7d\x7d\x7b\x7b/f\x7d\x7d").run c = none := by
  induction budget generalizing c with
  | zero => rfl
  | succ budget ih =>
    have hparse : parse endlessBlock.delimiters "\x7b\x7b#f\x7d\x7d\x7b\x7b/f\x7d\x7d" =
        .ok [.block "f" 0 6 [] 6] := by decide +kernel
    have hscript : ((endlessBlock.callables.transform 0 c.memory "").performPlainly
        (endlessBlock.renderPlainly budget ⟨.object [("f", .transformer 0)], []⟩ 0)).run c =
          none := by
      show ((Script.render _ _ _).performPlainly _).run c = none
      rw [PlainM.run_perform_render, ih]
    have hblock : ((Node.block "f" 0 6 [] 6).writePlainly endlessBlock
        (endlessBlock.renderPlainly budget)
        (blockText (some "\x7b\x7b#f\x7d\x7d\x7b\x7b/f\x7d\x7d")) 0
        ⟨.object [("f", .transformer 0)], []⟩).run c = none := by
      rw [Node.writePlainly]
      exact hscript
    rw [Setup.renderPlainly, hparse, PlainM.run_bind, PlainM.run_lift]
    simp only [writePlainly, PlainM.run_bind, hblock]

/-- Under the ceiling 1, a block whose transformer has the block rendered again is never done: no
budget suffices. -/
theorem ceiling_misses_transformers :
    ¬∃ budget reply, ({} : Engine).answer budget
      (.ofRecipes #[.transformer (.template "\x7b\x7b#f\x7d\x7d\x7b\x7b/f\x7d\x7d")])
      (.fresh [] fun _ => .root .null)
      (.render "\x7b\x7b#f\x7d\x7d\x7b\x7b/f\x7d\x7d" (.object [("f", .transformer 0)]) none
        { ceiling := some 1 }) = some reply := by
  rintro ⟨budget, ⟨reply, session⟩, hreply⟩
  have hsound : (Session.fresh [] fun _ => .root .null : Session CallCounts).shelf.Sound :=
    Shelf.sound_empty
  have hplain := answer_plainReply endlessBlock hsound budget
    "\x7b\x7b#f\x7d\x7d\x7b\x7b/f\x7d\x7d" (.object [("f", .transformer 0)])
  rw [endlessBlock_exhausts] at hplain
  have hexhausted : PlainReply (some (reply, session)) none := hreply ▸ hplain
  cases hexhausted

end TagTemplate
