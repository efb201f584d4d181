import TagTemplate.Proofs.Engine.Discipline
import TagTemplate.Proofs.Engine.Faithful
import TagTemplate.Proofs.Engine.Mirror
import TagTemplate.Proofs.Template.Append

/-!
# Templates rendered one behind another

Main statement: `template_behind_line`, a template behind one that ends with a line feed and changes
no delimiters is read as it is by itself, further on, and both together are rendered as one after
the other.
-/

namespace TagTemplate

/-! ## Trees further on -/

/-- The bodies of the blocks of a tree are the same texts further on. -/
def SameBodies (k : Nat) (body body' : BlockText) (all : List Node) : Prop :=
  ∀ key start bodyStart children bodyStop,
    .block key start bodyStart children bodyStop ∈ all →
      body' key (k + bodyStart) (k + bodyStop) = body key bodyStart bodyStop

section

variable {σ : Type} {s : Setup σ} {render : Standpoint → Nat → String → PlainM σ String}
  {body body' : BlockText} {k : Nat} {all : List Node}

mutual

theorem writePlainly_shift_node (hbody : SameBodies k body body' all) (depth : Nat)
    (here : Standpoint) (n : Node) (hn : n.flatten ⊆ all) :
    (n.shift k).writePlainly s render body' depth here =
      n.writePlainly s render body depth here :=
  match n with
  | .text .. | .escaped .. | .unescaped .. | .inclusion .. => rfl
  | .block key start bodyStart children bodyStop => by
    have hchildren (depth : Nat) (here : Standpoint) := writePlainly_shift hbody depth here children
      fun n hmem => hn (List.mem_cons_of_mem _ hmem)
    simp only [Node.shift, Node.writePlainly, hchildren,
      hbody key start bodyStart children bodyStop (hn List.mem_cons_self)]
  | .inverted key start bodyStart children bodyStop => by
    have hchildren (depth : Nat) (here : Standpoint) := writePlainly_shift hbody depth here children
      fun n hmem => hn (List.mem_cons_of_mem _ hmem)
    simp only [Node.shift, Node.writePlainly, hchildren]

/-- Nodes are written further on as they are written where they stand. -/
theorem writePlainly_shift (hbody : SameBodies k body body' all) (depth : Nat)
    (here : Standpoint) (ns : List Node) (hns : Node.flatten.flattenAll ns ⊆ all) :
    writePlainly s render body' depth here (Node.shift.shiftAll k ns) =
      writePlainly s render body depth here ns :=
  match ns with
  | [] => rfl
  | n :: ns => by
    rw [Node.shift.shiftAll, writePlainly, writePlainly,
      writePlainly_shift_node hbody depth here n fun _ hn => hns (List.mem_append_left _ hn),
      writePlainly_shift hbody depth here ns fun _ hn => hns (List.mem_append_right _ hn)]

end

/-! ## Trees in front of others -/

/-- Either the first node stays as it is, or it is a text that is joined to another. -/
theorem meetNodes_cons_cases (n : Node) (before ns : List Node) :
    meetNodes (n :: before) ns = n :: meetNodes before ns ∨
      ∃ a i j b l more, n = .text a i j ∧ before = [] ∧ ns = .text b j l :: more ∧
        meetNodes (n :: before) ns = .text (a ++ b) i l :: more := by
  rcases before with _ | ⟨n', before⟩
  · cases n with
    | text a i j =>
      rcases ns with _ | ⟨m, ns⟩
      · exact .inl rfl
      · cases m with
        | text b k l =>
          by_cases htouch : j = k
          · subst htouch
            exact .inr ⟨a, i, j, b, l, ns, rfl, rfl, rfl, if_pos rfl⟩
          · exact .inl (if_neg htouch)
        | _ => exact .inl rfl
    | _ => exact .inl rfl
  · cases n <;> exact .inl rfl

section

variable {depth : Nat} {here : Standpoint} {c c' c'' : Course σ}

theorem run_writePlainly_nil {x : String} :
    (writePlainly s render body depth here []).run c = some (.ok x, c') ↔ x = "" ∧ c' = c := by
  rw [writePlainly]
  constructor
  · rintro ⟨⟩
    exact ⟨rfl, rfl⟩
  · rintro ⟨rfl, rfl⟩
    rfl

/-- Nodes are written one after the other. -/
theorem run_writePlainly_cons {n : Node} {ns : List Node} {x : String} :
    (writePlainly s render body depth here (n :: ns)).run c = some (.ok x, c') ↔
      ∃ first c₁ rest, (n.writePlainly s render body depth here).run c = some (.ok first, c₁) ∧
        (writePlainly s render body depth here ns).run c₁ = some (.ok rest, c') ∧
        x = first ++ rest := by
  rw [writePlainly, PlainM.run_bind]
  rcases (n.writePlainly s render body depth here).run c with _ | ⟨_ | first, c₁⟩
  · simp
  · simp
  · simp only [PlainM.run_bind]
    rcases hrest : (writePlainly s render body depth here ns).run c₁ with _ | ⟨_ | rest, c₂⟩
    · simp [hrest]
    · simp [hrest]
    · constructor
      · rintro ⟨⟩
        exact ⟨first, c₁, rest, rfl, hrest, rfl⟩
      · rintro ⟨_, _, _, ⟨⟩, hrest', rfl⟩
        rw [hrest] at hrest'
        cases hrest'
        rfl

/-- What nodes and then others write, they write together, also if two texts have become one. -/
theorem run_writePlainly_meet {ns ms : List Node} {x y : String}
    (hns : (writePlainly s render body depth here ns).run c = some (.ok x, c'))
    (hms : (writePlainly s render body depth here ms).run c' = some (.ok y, c'')) :
    (writePlainly s render body depth here (meetNodes ns ms)).run c = some (.ok (x ++ y), c'') := by
  induction ns generalizing c x with
  | nil =>
    obtain ⟨rfl, rfl⟩ := run_writePlainly_nil.1 hns
    rw [meetNodes, String.empty_append]
    exact hms
  | cons n ns ih =>
    obtain ⟨first, c₁, rest, hn, hrest, rfl⟩ := run_writePlainly_cons.1 hns
    rcases meetNodes_cons_cases n ns ms with hmeet | ⟨a, i, j, b, l, more, rfl, rfl, rfl, hmeet⟩
    · rw [hmeet]
      exact run_writePlainly_cons.2 ⟨first, c₁, rest ++ y, hn, ih hrest, String.append_assoc ..⟩
    · obtain ⟨rfl, rfl⟩ := run_writePlainly_nil.1 hrest
      obtain ⟨second, c₂, rest, hb, hmore, rfl⟩ := run_writePlainly_cons.1 hms
      cases hn
      cases hb
      rw [hmeet]
      exact run_writePlainly_cons.2
        ⟨_, _, rest, rfl, hmore, by rw [String.append_empty, String.append_assoc]⟩

end

/-! ## Templates rendered plainly -/

variable {d : Delimiters} {a b : String} {nodes nodes' : List Node}

/-- The bodies of the blocks of a template are the same in a longer template. -/
theorem sameBodies_of_slice (hd : d.BlankFree) {template longer : String}
    (h : parse d template = .ok nodes)
    (hslice : ∀ text start, Stands template.toList text start →
      Stands longer.toList text (k + start)) :
    SameBodies k (blockText (some template)) (blockText (some longer))
      (Node.flatten.flattenAll nodes) := by
  intro key start bodyStart children bodyStop hmem
  obtain ⟨text, hraw⟩ := (body_of_parse hd h hmem (.inl rfl)).raw
  obtain ⟨hstands, hstop⟩ := slice?_eq_some_iff.1 hraw
  have hlonger := slice?_eq_some_iff.2 ⟨hslice text bodyStart hstands, rfl⟩
  rw [Nat.add_assoc, ← hstop] at hlonger
  simp only [blockText, hraw, hlonger]

/-- What a rendering that comes to an end does with a budget. -/
theorem run_renderPlainly_ok {budget depth : Nat} {here : Standpoint} {template x : String}
    {c c' : Course σ} (h : (s.renderPlainly budget here depth template).run c = some (.ok x, c')) :
    ∃ less nodes, budget = less + 1 ∧ parse s.delimiters template = .ok nodes ∧
      (writePlainly s (s.renderPlainly less) (blockText (some template)) depth here nodes).run c =
        some (.ok x, c') := by
  cases budget with
  | zero => cases h
  | succ less =>
    rw [Setup.renderPlainly, PlainM.run_bind, PlainM.run_lift] at h
    cases hparse : parse s.delimiters template with
    | error fault =>
      rw [hparse] at h
      cases h
    | ok nodes =>
      rw [hparse] at h
      exact ⟨less, nodes, rfl, rfl, h⟩

/-- What two templates render to, one after the other, they render to as one. -/
theorem run_renderPlainly_append (hd : s.delimiters.BlankFree) (hline : EndsLine s.delimiters a)
    {budget depth : Nat} {here : Standpoint} {x y : String} {c c' c'' : Course σ}
    (hfirst : (s.renderPlainly budget here depth a).run c = some (.ok x, c'))
    (hsecond : (s.renderPlainly budget here depth b).run c' = some (.ok y, c'')) :
    (s.renderPlainly budget here depth (a ++ b)).run c = some (.ok (x ++ y), c'') := by
  obtain ⟨less, nodes, rfl, ha, hx⟩ := run_renderPlainly_ok hfirst
  obtain ⟨_, nodes', ⟨⟩, hb, hy⟩ := run_renderPlainly_ok hsecond
  have hbefore : SameBodies 0 (blockText (some a)) (blockText (some (a ++ b)))
      (Node.flatten.flattenAll nodes) := sameBodies_of_slice hd ha fun text start h => by
    rw [Nat.zero_add, String.toList_append]
    exact h.append_right _
  have hbehind : SameBodies (byteLength a.toList) (blockText (some b)) (blockText (some (a ++ b)))
      (Node.flatten.flattenAll nodes') := sameBodies_of_slice hd hb fun text start h => by
    rw [String.toList_append]
    exact h.append_left _
  rw [← writePlainly_shift hbefore depth here nodes (List.Subset.refl _), shiftAll_zero] at hx
  rw [← writePlainly_shift hbehind depth here nodes' (List.Subset.refl _), shiftAll_eq] at hy
  rw [Setup.renderPlainly, parse_append hd ha hline.leaves hb, PlainM.run_bind, PlainM.run_lift]
  exact run_writePlainly_meet hx hy

end

/-! ## Templates and calls -/

/-- What is read of a template behind one with the tree `nodes`. -/
structure ReadBehind (d : Delimiters) (a b : String) (nodes : List Node) : Prop where
  accepted : (∃ nodes', parse d (a ++ b) = .ok nodes') ↔ ∃ nodes', parse d b = .ok nodes'
  tree : ∀ nodes', parse d b = .ok nodes' → parse d (a ++ b) =
    .ok (meetNodes nodes (nodes'.map (Node.shift (byteLength a.toList))))
  fault : ∀ fault, parse d b = .error fault →
    ∃ fault', parse d (a ++ b) = .error fault' ∧ FaultBehind a b fault fault'

theorem readBehind {d : Delimiters} {a : String} {nodes : List Node} (hd : d.BlankFree)
    (ha : parse d a = .ok nodes) (hline : EndsLine d a) (b : String) : ReadBehind d a b nodes where
  accepted := by
    constructor
    · rintro ⟨nodes', h⟩
      cases hb : parse d b with
      | ok nodes' => exact ⟨nodes', rfl⟩
      | error fault =>
        rw [parse_append_error hd ha hline.leaves hb] at h
        cases h
    · rintro ⟨nodes', hb⟩
      exact ⟨_, parse_append hd ha hline.leaves hb⟩
  tree _ hb := parse_append hd ha hline.leaves hb
  fault _ hb := parse_append_faultBehind hd ha hline.leaves hb

/-- A template behind one that ends with a line feed and changes no delimiters is read as it is by
itself, further on; and if both are rendered, one after the other, then together they render to
one text behind the other. -/
theorem template_behind_line {d : Delimiters} (hd : d.BlankFree) {a : String} {nodes : List Node}
    (ha : parse d a = .ok nodes) (hline : EndsLine d a) (b : String) :
    ReadBehind d a b nodes ∧
    ∀ {σ : Type} (s : Setup σ) (session session₁ session₂ : Session σ) (view : Value)
      (budget₁ budget₂ : Nat) (x y : String),
      s.delimiters = d → s.engine.Reaches s.callables session →
      s.engine.answer budget₁ s.callables session (.render a view s.inclusions s.options) =
        some (.ok (.text x), session₁) →
      s.engine.answer budget₂ s.callables session₁ (.render b view s.inclusions s.options) =
        some (.ok (.text y), session₂) →
      ∀ budget, budget₁ ≤ budget → budget₂ ≤ budget → ∃ session',
        s.engine.answer budget s.callables session (.render (a ++ b) view s.inclusions s.options) =
          some (.ok (.text (x ++ y)), session') ∧ session'.memory = session₂.memory := by
  refine ⟨readBehind hd ha hline b, ?_⟩
  intro σ s session session₁ session₂ view budget₁ budget₂ x y hdelimiters hreaches hx hy budget
    hle₁ hle₂
  subst hdelimiters
  -- both plainly, the second with the memory that the first leaves
  have hplain₁ := answer_plainReply s hreaches.sound budget₁ a view
  rw [hx] at hplain₁
  obtain ⟨c₁, hrun₁, hmemory₁, hasked₁, hsound₁⟩ := hplain₁.of_answer
  have hplain₂ := answer_plainReply s hsound₁ budget₂ b view
  rw [hy, hmemory₁, hasked₁] at hplain₂
  obtain ⟨c₂, hrun₂, hmemory₂, -⟩ := hplain₂.of_answer
  have hrun := run_renderPlainly_append hd hline
    ((steady_render s ⟨view, []⟩ 0 a).stays hle₁ hrun₁)
    ((steady_render s ⟨view, []⟩ 0 b).stays hle₂ hrun₂)
  have hplain := answer_plainReply s hreaches.sound budget (a ++ b) view
  rw [hrun] at hplain
  obtain ⟨session', hanswer, hmemory⟩ := hplain.of_plain
  exact ⟨session', hanswer, hmemory.trans hmemory₂.symm⟩

/-- Blocks are written as the number of calls of their transformer. -/
def countedBlocks : Setup CallCounts where
  engine := {}
  callables := .ofRecipes #[.transformer .callCount]

def countedReply (session : Session CallCounts) (template : String) :
    Option (Except Fault Reply × Session CallCounts) :=
  countedBlocks.engine.answer 1 countedBlocks.callables session
    (.render template (.object [("f", .transformer 0)]) countedBlocks.inclusions
      countedBlocks.options)

def countedLine : String := "\x7b\x7b#f\x7d\x7d.\x7b\x7b/f\x7d\x7d\n"

def countedRest : String := "-\x7b\x7b#f\x7d\x7d.\x7b\x7b/f\x7d\x7d"

/-- A line with a block, and a text and another block behind it. -/
theorem template_behind_line_counted :
    Delimiters.standard.BlankFree ∧ EndsLine .standard countedLine ∧
    ReadBehind .standard countedLine countedRest
      [.block "f" 0 6 [.text "." 6 7] 7, .text "\n" 13 14] ∧
    ∃ session', countedReply (.fresh [] fun _ => .root .null) (countedLine ++ countedRest) =
      some (.ok (.text ("1\n" ++ "-2")), session') := by
  have hd : Delimiters.standard.BlankFree := by decide
  have ha : parse .standard countedLine =
      .ok [.block "f" 0 6 [.text "." 6 7] 7, .text "\n" 13 14] := by decide +kernel
  have hline : EndsLine .standard countedLine := ⟨by decide, by decide +kernel⟩
  have hreplies : ((countedReply (.fresh [] fun _ => .root .null) countedLine).bind fun first =>
      (countedReply first.2 countedRest).map fun second =>
        (replyText? first.1, replyText? second.1)) = some (some "1\n", some "-2") := by
    decide +kernel
  obtain ⟨⟨reply₁, session₁⟩, hx, hreplies⟩ := Option.bind_eq_some_iff.1 hreplies
  obtain ⟨⟨reply₂, session₂⟩, hy, hreplies⟩ := Option.map_eq_some_iff.1 hreplies
  obtain ⟨hx', hy'⟩ := Prod.mk.inj hreplies
  obtain rfl := replyText?_eq_some hx'
  obtain rfl := replyText?_eq_some hy'
  obtain ⟨hread, hrender⟩ := template_behind_line hd ha hline countedRest
  obtain ⟨session', hanswer, -⟩ := hrender countedBlocks _ _ _ _ 1 1 _ _ rfl (.fresh _ _) hx hy
    1 le_rfl le_rfl
  exact ⟨hd, hline, hread, session', hanswer⟩

end TagTemplate
