import TagTemplate.Proofs.Engine.Append
import TagTemplate.Proofs.Engine.Unmentioned
import TagTemplate.Proofs.Template.Body

/-!
# Bodies rendered by themselves

A transformer that has the text of its block rendered writes the nodes of this text, which are
those of the block where no margin on the first line of the body makes a difference. Main statement:
`body_stands_alone`.
-/

namespace TagTemplate

/-- The first tag of the pieces is that of an inclusion, and before it on the first line stand
characters. -/
def LeadsIndented (body : List Piece) : Prop :=
  (tagsOf body).head?.map Tag.kind = some .inclusion ∧ body.takeWhile (!·.isTag) ≠ [] ∧
    ∀ p ∈ body.takeWhile (!·.isTag), p.endsLine = false

instance (body : List Piece) : Decidable (LeadsIndented body) :=
  inferInstanceAs (Decidable (_ ∧ _ ∧ _))

/-- The transformer hands back its text rendered; `note` is what it remembers of a call. -/
def Callables.Renders {σ : Type} (callables : Callables σ) (handle : Handle) (note : σ → σ) :
    Prop :=
  ∀ memory text, callables.transform handle memory text =
    .render (note memory) text (.onText fun memory text => .done memory (some text))

/-- What a part of a rendering comes to: its text or fault, the memory that it leaves, and the names
of the inclusions that were asked for. -/
def observed {σ : Type} (outcome : Option (Except Fault String × Run σ)) :
    Option (Except Fault String × σ × List String) :=
  outcome.map fun (result, run) => (result, run.memory, run.shelf.askedNames)

/-- What nodes of a template come to when they are written. -/
def Setup.written {σ : Type} (s : Setup σ) (budget : Nat) (template : String) (depth : Nat)
    (ns : List Node) (r : Run σ) : Option (Except Fault String × σ × List String) :=
  observed ((writeNodes s (s.renderAt budget) (blockText (some template)) depth ns).run r)

/-! ## Margins without effect -/

/-- A text that is included at the margin is not moved. -/
def Margin.Flat (m : Margin) : Prop := ∀ text, includedText m text = text

theorem Margin.Flat.of_unmoved {m : Margin} (h : m.tagIndex = 0 → m.indentation = []) : m.Flat :=
  fun _ => if_neg fun hmoved => hmoved.2 (h hmoved.1)

theorem mem_keptBetween_tag {before ps after : List Piece} {t : Tag} {m : Margin}
    (h : .tag t m ∈ keptBetween before ps after) :
    ∃ a b, ps = a ++ .tag t :: b ∧ m = .behind (a.foldl lineBehind before) := by
  induction ps generalizing before with
  | nil => cases h
  | cons p ps ih =>
    rw [keptBetween] at h
    rcases List.mem_append.1 h with h | h
    · cases p with
      | char c start =>
        split at h
        · cases List.mem_singleton.1 h
        · cases h
      | tag u =>
        cases List.mem_singleton.1 h
        exact ⟨[], ps, rfl, rfl⟩
    · obtain ⟨a, b, rfl, hm⟩ := ih h
      exact ⟨p :: a, b, rfl, hm⟩

theorem Part.mem_join_tag {p : Part} {ps : List Part} {t : Tag} {m : Margin}
    (h : .tag t m ∈ p.join ps) : .tag t m ∈ p :: ps := by
  rw [join.eq_def] at h
  split at h
  · rcases List.mem_cons.1 h with h | h
    · cases h
    · exact List.mem_cons_of_mem _ (List.mem_cons_of_mem _ h)
  · exact h

theorem mem_joinTexts_tag {ps : List Part} {t : Tag} {m : Margin} (h : .tag t m ∈ joinTexts ps) :
    .tag t m ∈ ps := by
  induction ps with
  | nil => cases h
  | cons p ps ih =>
    rcases List.mem_cons.1 (Part.mem_join_tag h) with rfl | h
    · exact List.mem_cons_self
    · exact List.mem_cons_of_mem p (ih h)

theorem foldl_lineBehind {a : List Piece} (ha : ∀ p ∈ a, p.endsLine = false)
    (before : List Piece) : a.foldl lineBehind before = a.reverse ++ before := by
  induction a generalizing before with
  | nil => rfl
  | cons p a ih =>
    obtain ⟨hp, ha⟩ := List.forall_mem_cons.1 ha
    rw [List.foldl_cons, lineBehind, hp, if_neg Bool.false_ne_true, ih ha, List.reverse_cons,
      List.append_assoc, List.singleton_append]

/-- An inclusion on the first line of some pieces has the margin of what stands before it there. -/
theorem inclusion_margin {before body after : List Piece} {ns : List Node}
    (hrising : body.Pairwise fun p q => p.start < q.start)
    (h : Forest (joinTexts (keptBetween before body after)) ns) {key : String} {start stop : Nat}
    {margin : Margin} (hmem : .inclusion key start stop margin ∈ Node.flatten.flattenAll ns)
    (hfirst : onFirstLine body start = true) :
    ∃ a b t, body = a ++ .tag t :: b ∧ t.kind = .inclusion ∧ (∀ p ∈ a, p.endsLine = false) ∧
      margin = .behind (a.reverse ++ before) := by
  have horigin := h.origin hmem
  generalize hn : Node.inclusion key start stop margin = n at horigin
  cases horigin with
  | text => cases hn
  | block => rw [Tag.blockNode] at hn; split at hn <;> cases hn
  | @leaf t m n hp hleaf =>
    obtain ⟨kind, key', start', stop'⟩ := t
    subst hn
    obtain ⟨rfl, rfl, rfl⟩ : kind = .inclusion ∧ start' = start ∧ m = margin := by
      cases kind <;> cases hleaf
      exact ⟨rfl, rfl, rfl⟩
    obtain ⟨a, b, rfl, hm⟩ := mem_keptBetween_tag (mem_joinTexts_tag hp)
    have ha : ∀ p ∈ a, p.endsLine = false := by
      intro p hp
      have hbefore : p.start < start' :=
        (List.pairwise_append.1 hrising).2.2 p hp _ List.mem_cons_self
      have hline := List.all_eq_true.1 hfirst p (List.mem_append_left _ hp)
      by_contra hend
      simp [hend] at hline
      omega
    exact ⟨a, b, _, rfl, rfl, ha, by rw [hm, foldl_lineBehind ha]⟩

/-- Behind another tag of its line, an inclusion is not moved. -/
theorem Margin.Flat.behind_tag (a : List Piece) (t : Tag) (before : List Piece) :
    (Margin.behind (a ++ .tag t :: before)).Flat := by
  refine .of_unmoved fun hnone => ?_
  have htag := List.countP_eq_zero.1 hnone (.tag t) (by simp)
  cases htag rfl

/-- By itself a body moves no inclusion on its first line, unless one leads it behind characters. -/
theorem Margin.Flat.of_not_leads {a b : List Piece} {t : Tag} (hkind : t.kind = .inclusion)
    (ha : ∀ p ∈ a, p.endsLine = false) (h : ¬ LeadsIndented (a ++ .tag t :: b)) :
    (Margin.behind a.reverse).Flat := by
  refine .of_unmoved fun hnone => ?_
  have hchars : ∀ p ∈ a, p.isTag = false := fun p hp => by
    simpa using List.countP_eq_zero.1 hnone p (List.mem_reverse.2 hp)
  by_contra hne
  have htake : (a ++ .tag t :: b).takeWhile (!·.isTag) = a := by
    rw [List.takeWhile_append_of_pos (by simpa using hchars),
      List.takeWhile_cons_of_neg (by simp [Piece.isTag]), List.append_nil]
  have htags : tagsOf a = [] := List.filterMap_eq_nil_iff.2 fun p hp => by
    cases p with
    | char => rfl
    | tag u => cases hchars _ hp
  refine h ⟨?_, ?_, ?_⟩
  · rw [tagsOf_append, htags, List.nil_append, tagsOf_tag, List.head?_cons, Option.map_some, hkind]
  · rw [htake]
    rintro rfl
    exact hne rfl
  · rwa [htake]

/-! ## Bodies written plainly -/

section

variable {σ : Type} {s : Setup σ} {render : Standpoint → Nat → String → PlainM σ String}
  {body : BlockText} {places : Nat → Bool} {all : List Node}

mutual

theorem writePlainly_unmargined_node
    (hflat : ∀ key start stop margin, .inclusion key start stop margin ∈ all →
      places start = true → margin.Flat) (depth : Nat) (here : Standpoint) (n : Node)
    (hn : n.flatten ⊆ all) :
    (n.unmargined places).writePlainly s render body depth here =
      n.writePlainly s render body depth here :=
  match n with
  | .text .. | .escaped .. | .unescaped .. => rfl
  | .inclusion key start stop margin => by
    rw [Node.unmargined]
    split
    · next hplace =>
      have hmargin := hflat key start stop margin (hn List.mem_cons_self) hplace
      have hnone : Margin.Flat {} := .of_unmoved fun _ => rfl
      simp only [Node.writePlainly, hmargin _, hnone _]
    · rfl
  | .block key start bodyStart children bodyStop
  | .inverted key start bodyStart children bodyStop => by
    have hchildren (depth : Nat) (here : Standpoint) :=
      writePlainly_unmargined hflat depth here children
        fun n hmem => hn (List.mem_cons_of_mem _ hmem)
    simp only [Node.unmargined, Node.writePlainly, hchildren]

/-- Margins without effect can be left out. -/
theorem writePlainly_unmargined
    (hflat : ∀ key start stop margin, .inclusion key start stop margin ∈ all →
      places start = true → margin.Flat) (depth : Nat) (here : Standpoint) (ns : List Node)
    (hns : Node.flatten.flattenAll ns ⊆ all) :
    writePlainly s render body depth here (Node.unmargined.unmarginedAll places ns) =
      writePlainly s render body depth here ns :=
  match ns with
  | [] => rfl
  | n :: ns => by
    rw [Node.unmargined.unmarginedAll, writePlainly, writePlainly,
      writePlainly_unmargined_node hflat depth here n fun _ hn => hns (List.mem_append_left _ hn),
      writePlainly_unmargined hflat depth here ns fun _ hn => hns (List.mem_append_right _ hn)]

end

/-- The nodes of a body by itself are written as the children of its block. -/
theorem BodyForests.writePlainly_eq {pieces : List Piece} {children alone : List Node}
    (h : BodyForests pieces children alone) (hfirst : Firm (firstLine pieces))
    (hlast : Firm (lastLine pieces)) (hleads : ¬ LeadsIndented pieces) (depth : Nat)
    (here : Standpoint) :
    writePlainly s render body depth here alone =
      writePlainly s render body depth here children := by
  have hsame := h.unmargined hfirst hlast
  obtain ⟨hrising, ⟨o, before, after, hwithin⟩, halone⟩ := h
  have hflat : ∀ key start stop margin,
      .inclusion key start stop margin ∈ Node.flatten.flattenAll alone →
        onFirstLine pieces start = true → margin.Flat := by
    intro key start stop margin hmem hplace
    obtain ⟨a, b, t, rfl, hkind, ha, rfl⟩ := inclusion_margin hrising halone hmem hplace
    rw [List.append_nil]
    exact .of_not_leads hkind ha hleads
  have hflat' : ∀ key start stop margin,
      .inclusion key start stop margin ∈ Node.flatten.flattenAll children →
        onFirstLine pieces start = true → margin.Flat := by
    intro key start stop margin hmem hplace
    obtain ⟨a, b, t, rfl, -, -, rfl⟩ := inclusion_margin hrising hwithin hmem hplace
    exact .behind_tag _ o before
  rw [← writePlainly_unmargined hflat depth here alone (List.Subset.refl _),
    ← writePlainly_unmargined hflat' depth here children (List.Subset.refl _), unmarginedAll_eq,
    unmarginedAll_eq, hsame]

/-- The text of a self-contained body is rendered as the children of its block are written. -/
theorem renderPlainly_body (hd : s.delimiters.BlankFree) {template : String} {nodes : List Node}
    (h : parse s.delimiters template = .ok nodes) {n : Node}
    (hmem : n ∈ Node.flatten.flattenAll nodes) {key : String} {start bodyStart bodyStop : Nat}
    {children : List Node} (hblock : n = .block key start bodyStart children bodyStop)
    (hself : SelfContained s.delimiters template start bodyStart bodyStop)
    (hleads : ¬ LeadsIndented (piecesWithin s.delimiters template bodyStart bodyStop)) :
    ∃ text, slice? template.toList bodyStart bodyStop = some text ∧ ∀ budget here depth,
      s.renderPlainly (budget + 1) here depth (String.ofList text) =
        writePlainly s (s.renderPlainly budget) (blockText (some template)) depth here
          children := by
  obtain ⟨text, alone, hslice, halone, hforests⟩ :=
    body_of_selfContained hd h hmem (.inl hblock) hself
  have hbodies : SameBodies bodyStart (blockText (some (String.ofList text)))
      (blockText (some template)) (Node.flatten.flattenAll alone) := by
    refine sameBodies_of_slice hd halone fun inner start hinner => ?_
    obtain ⟨⟨before, after, htemplate, hpos⟩, -⟩ := slice?_eq_some_iff.1 hslice
    rw [String.toList_ofList] at hinner
    rw [htemplate, ← hpos]
    exact (hinner.append_right after).append_left before
  refine ⟨text, hslice, fun budget here depth => ?_⟩
  rw [Setup.renderPlainly, halone, PlainM.lift, pure_bind,
    ← writePlainly_shift hbodies depth here alone (List.Subset.refl _), shiftAll_eq,
    hforests.writePlainly_eq hself.opening hself.closing hleads]

/-- A transformer that hands back its text rendered has it rendered in place of the block. -/
theorem run_block_renders {handle : Handle} {note : σ → σ}
    (hrenders : s.callables.Renders handle note) {key : String} {start bodyStart bodyStop : Nat}
    {children : List Node} {text : String} (hbody : body key bodyStart bodyStop = .ok text)
    {here : Standpoint} (hfind : here.find key = .transformer handle) (depth : Nat)
    (c : Course σ) :
    ((Node.block key start bodyStart children bodyStop).writePlainly s render body depth here).run
        c = (render here depth text).run { c with memory := note c.memory } := by
  rw [Node.writePlainly, PlainM.run_bind, Setup.run_seek, hfind]
  show (PlainM.lift (body key bodyStart bodyStop) >>= _ : PlainM σ String).run c = _
  rw [PlainM.run_bind, PlainM.run_lift, hbody]
  show ((s.callables.transform handle c.memory text).performPlainly (render here depth)).run c = _
  rw [hrenders, PlainM.run_perform_render]
  rcases (render here depth text).run { c with memory := note c.memory } with _ | ⟨_ | _, c'⟩ <;>
    rfl

/-- A block is written as its children if its value is true. -/
theorem run_block_true {key : String} {here : Standpoint} (hfind : here.find key = .bool true)
    (start bodyStart : Nat) (children : List Node) (bodyStop depth : Nat) (c : Course σ) :
    ((Node.block key start bodyStart children bodyStop).writePlainly s render body depth here).run
        c = (writePlainly s render body depth here children).run c := by
  rw [Node.writePlainly, PlainM.run_bind, Setup.run_seek, hfind]
  rfl

end

/-! ## Bodies that stand alone -/

section

variable {σ : Type}

theorem Mirrors.observed_eq {here : Standpoint} {m : RenderM σ String} {p : PlainM σ String}
    (h : Mirrors here Eq m p) {r : Run σ} {c : Course σ} (hrun : Beside here r c) :
    observed (m.run r) = (p.run c).map fun (result, c) => (result, c.memory, c.asked) := by
  have hsame := h r c hrun
  generalize m.run r = o₁, p.run c = o₂ at hsame
  cases hsame with
  | none => rfl
  | ok hv hafter => simp [observed, hv, hafter.memory, hafter.asked]
  | error _ hafter => simp [observed, hafter.memory, hafter.asked]

/-- Nodes come to what they come to when they are written plainly. -/
theorem written_eq (s : Setup σ) (budget : Nat) (template : String) (depth : Nat) (ns : List Node)
    {r : Run σ} (hfaithful : r.scope.Faithful) (hsound : r.shelf.Sound) :
    s.written budget template depth ns r =
      ((writePlainly s (s.renderPlainly budget) (blockText (some template)) depth
        r.scope.standpoint ns).run ⟨r.memory, r.shelf.askedNames⟩).map
          fun (result, c) => (result, c.memory, c.asked) :=
  (mirrors_writeNodes (mirrors_renderAt s budget) depth r.scope.standpoint ns).observed_eq
    ⟨rfl, rfl, rfl, hfaithful, hsound⟩

theorem writePlainly_singleton (s : Setup σ)
    (render : Standpoint → Nat → String → PlainM σ String) (body : BlockText) (depth : Nat)
    (here : Standpoint) (n : Node) :
    writePlainly s render body depth here [n] = n.writePlainly s render body depth here := by
  simp only [writePlainly, pure_bind, String.append_empty, bind_pure]

end

/-- The text of a block whose body is self-contained is read by itself as it is in its template,
except for the margins on its first line. A transformer that hands the text back rendered has the
block written as the value true has it written, unless the first tag of the body is that of an
inclusion on the first line behind some characters. -/
theorem body_stands_alone {d : Delimiters} (hd : d.BlankFree) {template : String}
    {nodes : List Node} (h : parse d template = .ok nodes) {n : Node}
    (hmem : n ∈ Node.flatten.flattenAll nodes) {key : String} {start bodyStart bodyStop : Nat}
    {children : List Node} (hblock : n = .block key start bodyStart children bodyStop ∨
      n = .inverted key start bodyStart children bodyStop)
    (hself : SelfContained d template start bodyStart bodyStop) :
    (∃ text alone, slice? template.toList bodyStart bodyStop = some text ∧
      parse d (String.ofList text) = .ok alone ∧
      (alone.map (Node.shift bodyStart)).map
          (Node.unmargined (onFirstLine (piecesWithin d template bodyStart bodyStop))) =
        children.map
          (Node.unmargined (onFirstLine (piecesWithin d template bodyStart bodyStop)))) ∧
    (n = .block key start bodyStart children bodyStop →
      ¬ LeadsIndented (piecesWithin d template bodyStart bodyStop) →
      ∀ {σ : Type} (s : Setup σ) (handle : Handle) (note : σ → σ), s.delimiters = d →
        s.callables.Renders handle note →
        ∀ (budget depth : Nat) (r : Run σ), r.scope.Faithful → r.shelf.Sound →
          (r.scope.standpoint.find key = .transformer handle →
            s.written (budget + 1) template depth [n] r =
              s.written budget template depth children { r with memory := note r.memory }) ∧
          (r.scope.standpoint.find key = .bool true →
            s.written budget template depth [n] r =
              s.written budget template depth children r)) := by
  refine ⟨?_, ?_⟩
  · obtain ⟨text, alone, hslice, halone, hforests⟩ := body_of_selfContained hd h hmem hblock hself
    exact ⟨text, alone, hslice, halone, hforests.unmargined hself.opening hself.closing⟩
  · rintro rfl hleads σ s handle note rfl hrenders budget depth r hfaithful hsound
    obtain ⟨text, hslice, hrender⟩ := renderPlainly_body hd h hmem rfl hself hleads
    have hbody : blockText (some template) key bodyStart bodyStop = .ok (String.ofList text) := by
      simp only [blockText, hslice]
    refine ⟨fun hfind => ?_, fun hfind => ?_⟩
    · have hnoted := written_eq s budget template depth children
        (r := { r with memory := note r.memory }) hfaithful hsound
      rw [written_eq s _ _ _ _ hfaithful hsound, hnoted, writePlainly_singleton,
        run_block_renders hrenders hbody hfind, hrender]
    · rw [written_eq s _ _ _ _ hfaithful hsound, written_eq s _ _ _ _ hfaithful hsound,
        writePlainly_singleton, run_block_true hfind]

/-- A block behind two changes of delimiters, with an inclusion on the first line of its body, and
a line that holds nothing but a tag. -/
def twoLines : String :=
  "\x7b\x7b=< >=\x7d\x7d<=\x7b\x7b \x7d\x7d=>\n" ++
    "\x7b\x7b#f\x7d\x7d\x7b\x7ba\x7d\x7d \x7b\x7b>p\x7d\x7d\n" ++
    "  \x7b\x7b#g\x7d\x7d\n.\x7b\x7b/g\x7d\x7d\x7b\x7b/f\x7d\x7d\n"

def twoLinesChildren : List Node :=
  [.escaped "a" 25 30, .text " " 30 31, .inclusion "p" 31 37 ⟨[' '], 2, false⟩, .text "\n" 37 38,
    .block "g" 40 46 [.text "." 47 48] 48]

/-- Blocks are handed back rendered, and two lines can be included. -/
def renderedSetup : Setup CallCounts where
  engine := {}
  inclusions := some fun name => if name = "p" then some "1\n2" else none
  callables := .ofRecipes #[.transformer .render]

def renderedRun : Run CallCounts := ⟨[], {}, .root (.object [("f", .transformer 0)])⟩

theorem body_stands_alone_twoLines :
    SelfContained .standard twoLines 19 25 54 ∧
    (∃ text alone, slice? twoLines.toList 25 54 = some text ∧
      parse .standard (String.ofList text) = .ok alone ∧
      (alone.map (Node.shift 25)).map
          (Node.unmargined (onFirstLine (piecesWithin .standard twoLines 25 54))) =
        twoLinesChildren.map
          (Node.unmargined (onFirstLine (piecesWithin .standard twoLines 25 54)))) ∧
    ∀ budget, renderedSetup.written (budget + 1) twoLines 0
        [.block "f" 19 25 twoLinesChildren 54] renderedRun =
      renderedSetup.written budget twoLines 0 twoLinesChildren
        { renderedRun with memory := CallCounts.called [] 0 } := by
  have hparse : parse .standard twoLines =
      .ok [.block "f" 19 25 twoLinesChildren 54, .text "\n" 60 61] := by decide +kernel
  have hself : SelfContained .standard twoLines 19 25 54 :=
    ⟨by decide +kernel, by decide +kernel, by decide +kernel⟩
  have hleads : ¬ LeadsIndented (piecesWithin .standard twoLines 25 54) := by decide +kernel
  obtain ⟨halone, hwritten⟩ :=
    body_stands_alone (by decide) hparse List.mem_cons_self (.inl rfl) hself
  refine ⟨hself, halone, fun budget => ?_⟩
  exact (hwritten rfl hleads renderedSetup 0 (·.called 0) rfl (fun _ _ => rfl) budget 0 renderedRun
    (Scope.faithful_root _) Shelf.sound_empty).1 rfl

def movedTemplate : String := "\x7b\x7b#f\x7d\x7d x\x7b\x7b>p\x7d\x7d\x7b\x7b/f\x7d\x7d"

/-- An inclusion that leads the body behind a text is moved if the body is rendered by itself, and
is not moved in the place of the block. -/
theorem leading_inclusion_moved :
    parse .standard movedTemplate =
      .ok [.block "f" 0 6 [.text " x" 6 8, .inclusion "p" 8 14 ⟨[' ', ' '], 1, true⟩] 14] ∧
    SelfContained .standard movedTemplate 0 6 14 ∧
    renderedSetup.callables.Renders 0 (·.called 0) ∧
    renderedSetup.replyWith 3 (.fresh [] fun _ => .root .null) movedTemplate
      (.object [("f", .transformer 0)]) = some (.ok (.text " x1\n  2")) ∧
    renderedSetup.replyWith 3 (.fresh [] fun _ => .root .null) movedTemplate
      (.object [("f", .bool true)]) = some (.ok (.text " x1\n2")) :=
  ⟨by decide +kernel, ⟨by decide +kernel, by decide +kernel, by decide +kernel⟩, fun _ _ => rfl,
    map_replyText?_eq_some (by decide +kernel), map_replyText?_eq_some (by decide +kernel)⟩

end TagTemplate
