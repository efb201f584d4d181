import TagTemplate.Proofs.Engine.Append
import TagTemplate.Proofs.Template.Leaves

/-!
# Included text behind white space

A line that starts with white space and an inclusion. Main statements: `writePlainly_joinTexts`,
texts are written as if they had not been joined; `OnlyValues.renderPlainly_eq`, a template in which
all tags write values is rendered piece by piece; `inclusion_indents_lines`, what such a line is
rendered as. By `first_line_indented_twice` the first line of the included text may stand further to
the right than the others.
-/

namespace TagTemplate

section

variable {σ : Type} {s : Setup σ} {render : Standpoint → Nat → String → PlainM σ String}
  {body : BlockText} {depth : Nat} {here : Standpoint}

/-- What is written for a character or for a tag that writes a value, wherever it stands. -/
def Piece.write (s : Setup σ) (here : Standpoint) : Piece → PlainM σ String
  | .char c _ => return String.singleton c
  | .tag t =>
    match t.kind with
    | .escaped => do return s.options.escapedText (← s.seek here t.key)
    | .unescaped => do return Options.plainText (← s.seek here t.key)
    | _ => return ""

/-! ## Nodes one by one -/

theorem writePlainly_append (a b : List Node) :
    writePlainly s render body depth here (a ++ b) = (do
      let first ← writePlainly s render body depth here a
      let rest ← writePlainly s render body depth here b
      return first ++ rest) := by
  induction a with
  | nil => simp only [List.nil_append, writePlainly, pure_bind, String.empty_append, bind_pure]
  | cons n a ih =>
    simp only [List.cons_append, writePlainly, ih, bind_assoc, pure_bind, String.append_assoc]

theorem writePlainly_text (text : String) (start stop : Nat) (ns : List Node) :
    writePlainly s render body depth here (.text text start stop :: ns) = (do
      let rest ← writePlainly s render body depth here ns
      return text ++ rest) := by
  rw [writePlainly, Node.writePlainly, pure_bind]

theorem leaves_text (text : String) (start stop : Nat) (ps : List Part) :
    leaves (.text text start stop :: ps) = .text text start stop :: leaves ps := rfl

/-- Texts are written as if they had not been joined. -/
theorem writePlainly_joinTexts (ps : List Part) :
    writePlainly s render body depth here (leaves (joinTexts ps)) =
      writePlainly s render body depth here (leaves ps) := by
  induction ps with
  | nil => rfl
  | cons p ps ih =>
    cases p with
    | tag t m =>
      rw [joinTexts_tag, leaves, leaves]
      cases hleaf : (Part.tag t m).leaf? with
      | none =>
        rw [List.filterMap_cons_none hleaf, List.filterMap_cons_none hleaf]
        exact ih
      | some n =>
        rw [List.filterMap_cons_some hleaf, List.filterMap_cons_some hleaf, writePlainly,
          writePlainly]
        exact congrArg _ (funext fun _ => congrArg (· >>= _) ih)
    | text a i j =>
      rw [joinTexts, leaves_text, writePlainly_text, ← ih]
      cases joinTexts ps with
      | nil => exact writePlainly_text a i j []
      | cons q qs =>
        cases q with
        | tag t m => exact writePlainly_text a i j _
        | text b k l =>
          rw [Part.join, leaves_text, leaves_text, writePlainly_text, writePlainly_text]
          simp only [bind_assoc, pure_bind, String.append_assoc]

/-! ## Pieces one by one -/

theorem writePlainly_leaves {ps : List Piece} (h : WriteValues ps) :
    writePlainly s render body depth here (ps.filterMap Piece.leaf?) =
      PlainM.each (Piece.write s here) ps := by
  induction ps with
  | nil => rfl
  | cons p ps ih =>
    cases p with
    | char c start =>
      have hleaf : (Piece.char c start).leaf? =
          some (.text (String.singleton c) start (start + c.utf8Size)) := rfl
      rw [List.filterMap_cons_some hleaf, writePlainly, ih h]
      rfl
    | tag t =>
      obtain ⟨ht, hps⟩ := List.forall_mem_cons.1 h
      obtain ⟨kind, key, start, stop⟩ := t
      cases kind with
      | escaped => exact congrArg _ (funext fun _ => congrArg (· >>= _) (ih hps))
      | unescaped => exact congrArg _ (funext fun _ => congrArg (· >>= _) (ih hps))
      | _ => cases ht

/-- Pieces further on are written as they are where they stand. -/
theorem each_write_shift (k : Nat) (ps : List Piece) :
    PlainM.each (Piece.write s here) (ps.map (Piece.shift k)) =
      PlainM.each (Piece.write s here) ps := by
  induction ps with
  | nil => rfl
  | cons p ps ih =>
    have hwrite : (p.shift k).write s here = p.write s here := by cases p <;> rfl
    rw [List.map_cons, PlainM.each, PlainM.each, hwrite, ih]

theorem each_write_chars (cs : List Char) (pos : Nat) :
    PlainM.each (Piece.write s here) (charPieces pos cs) = pure (String.ofList cs) := by
  induction cs generalizing pos with
  | nil => rfl
  | cons c cs ih =>
    rw [charPieces, PlainM.each, ih, Piece.write, pure_bind, pure_bind]
    refine congrArg pure (String.ext ?_)
    simp

theorem run_seek_some (s : Setup σ) (here : Standpoint) (name : String) (memory : σ) :
    ∃ value memory', ∀ asked,
      (s.seek here name).run ⟨memory, asked⟩ = some (.ok value, ⟨memory', asked⟩) := by
  by_cases hgetter : ∃ handle, here.find name = .getter handle
  · obtain ⟨handle, hfind⟩ := hgetter
    exact ⟨(s.callables.get handle memory here.view).1,
      (s.callables.get handle memory here.view).2, fun asked => by rw [Setup.run_seek, hfind]⟩
  · refine ⟨here.find name, memory, fun asked => ?_⟩
    rw [Setup.run_seek]
    split
    · next handle hfind => exact absurd ⟨handle, hfind⟩ hgetter
    · rfl

/-- Writing a value never fails, and changes nothing but the memory of the callables. -/
theorem run_write (s : Setup σ) (here : Standpoint) (p : Piece) (memory : σ) :
    ∃ text memory', ∀ asked,
      (p.write s here).run ⟨memory, asked⟩ = some (.ok text, ⟨memory', asked⟩) := by
  cases p with
  | char c start => exact ⟨_, memory, fun _ => rfl⟩
  | tag t =>
    obtain ⟨kind, key, start, stop⟩ := t
    obtain ⟨value, memory', hseek⟩ := run_seek_some s here key memory
    cases kind with
    | escaped =>
      refine ⟨s.options.escapedText value, memory', fun asked => ?_⟩
      rw [Piece.write, PlainM.run_bind, hseek]
      rfl
    | unescaped =>
      refine ⟨Options.plainText value, memory', fun asked => ?_⟩
      rw [Piece.write, PlainM.run_bind, hseek]
      rfl
    | _ => exact ⟨"", memory, fun _ => rfl⟩

theorem run_each_write (s : Setup σ) (here : Standpoint) (ps : List Piece) (memory : σ) :
    ∃ text memory', ∀ asked,
      (PlainM.each (Piece.write s here) ps).run ⟨memory, asked⟩ =
        some (.ok text, ⟨memory', asked⟩) := by
  induction ps generalizing memory with
  | nil => exact ⟨"", memory, fun _ => rfl⟩
  | cons p ps ih =>
    obtain ⟨first, memory₁, hfirst⟩ := run_write s here p memory
    obtain ⟨rest, memory₂, hrest⟩ := ih memory₁
    refine ⟨first ++ rest, memory₂, fun asked => ?_⟩
    simp only [PlainM.each, PlainM.run_bind, hfirst, hrest]
    rfl

/-! ## Templates that write values -/

variable {template text : String}

theorem OnlyValues.renderPlainly_eq (h : OnlyValues s.delimiters template) (budget : Nat) :
    s.renderPlainly (budget + 1) here depth template =
      PlainM.each (Piece.write s here) (Pieces.ofText s.delimiters template).list := by
  rw [Setup.renderPlainly, h.parse_eq]
  show writePlainly _ _ _ _ _ _ = _
  rw [layout, writePlainly_joinTexts, leaves_keptParts h.values, writePlainly_leaves h.values]

/-- A text without opening delimiters is rendered as it is. -/
theorem renderPlainly_text (h : ¬ s.delimiters.opening.toList <:+: text.toList) (budget : Nat) :
    s.renderPlainly (budget + 1) here depth text = pure text := by
  rw [(OnlyValues.of_text h).renderPlainly_eq, ofText_text h, each_write_chars,
    String.ofList_toList]

/-! ## An inclusion behind white space -/

/-- A text with white space in front of each line. -/
def indented (margin : List Char) (text : String) : String :=
  String.ofList (joinLines ((splitLines text.toList).map (margin ++ ·)))

/-- What is written for a line that starts with spaces and tabs and an inclusion, if `written` is
what is written for the rest of the line. Each line of the included text is indented; but where the
line goes on, the white space at its start is written too. -/
def renderedLine (margin : List Char) (text rest written : String) : String :=
  if rest.toList.all isBlank then indented margin text
  else String.ofList margin ++ (indented margin text ++ written)

/-- A line that starts with spaces and tabs and an inclusion, and has nothing but texts and values
behind it; what is included has no tags and no empty lines. -/
structure IndentedInclusion (s : Setup σ) (margin tag : List Char) (key text rest : String) :
    Prop where
  nonempty : margin ≠ []
  plain : ∀ c ∈ margin, c = ' ' ∨ c = '\t'
  lexeme : Lexeme s.delimiters .inclusion key.toList tag
  included : ∃ inclusions, s.inclusions = some inclusions ∧ inclusions key = some text
  untagged : ¬ s.delimiters.opening.toList <:+: text.toList
  filled : ∀ line ∈ splitLines text.toList, line ≠ []
  values : OnlyValues s.delimiters rest
  oneLine : '\n' ∉ rest.toList

namespace IndentedInclusion

variable {margin tag : List Char} {key rest : String}

theorem blanks (h : IndentedInclusion s margin tag key text rest) : Blanks margin := by
  intro c hc
  rcases h.plain c hc with rfl | rfl <;> rfl

theorem plainIndentation_eq (h : IndentedInclusion s margin tag key text rest) :
    plainIndentation margin = margin := by
  rw [plainIndentation, List.filter_eq_self]
  intro c hc
  simpa using h.plain c hc

/-- Every line of the included text gets the white space in front. -/
theorem includedText_eq (h : IndentedInclusion s margin tag key text rest) :
    includedText ⟨margin, 0, false⟩ text = indented margin text := by
  have hlines : ∀ line ∈ splitLines text.toList, indentLine margin line = margin ++ line := by
    intro line hline
    rw [indentLine, if_neg (by simpa using h.filled line hline)]
  rw [includedText, if_pos ⟨rfl, h.nonempty⟩, reflow, h.plainIndentation_eq, indented,
    ← List.map_congr_left hlines]
  cases splitLines text.toList <;> rfl

theorem untagged_indented (hd : s.delimiters.BlankFree)
    (h : IndentedInclusion s margin tag key text rest) :
    ¬ s.delimiters.opening.toList <:+: (indented margin text).toList := by
  rw [← h.includedText_eq, includedText, if_pos ⟨rfl, h.nonempty⟩, String.toList_ofList, reflow_eq]
  exact fun hin => h.untagged
    (infix_of_indent (blanks_plainIndentation margin) hd.opening_solid hin)

theorem run_inclusion (hd : s.delimiters.BlankFree)
    (h : IndentedInclusion s margin tag key text rest) {below : Nat}
    (hdescend : s.options.descend depth = .ok below) (budget : Nat) (body : BlockText)
    (here : Standpoint) (c : Course σ) :
    ((inclusionNode margin tag key).writePlainly s (s.renderPlainly (budget + 1)) body depth
      here).run c = some (.ok (indented margin text), { c with asked := key :: c.asked }) := by
  obtain ⟨inclusions, hinclusions, htext⟩ := h.included
  have hask : (s.ask key).run c = some (.ok (some text), { c with asked := key :: c.asked }) := by
    rw [Setup.ask, hinclusions, ← htext]
    rfl
  rw [inclusionNode, Node.writePlainly, PlainM.run_bind, hask]
  simp only [PlainM.run_bind, PlainM.run_lift, hdescend, h.includedText_eq,
    renderPlainly_text (h.untagged_indented hd)]
  rfl

/-- The line is rendered node by node. -/
theorem renderPlainly_line (hd : s.delimiters.BlankFree)
    (h : IndentedInclusion s margin tag key text rest) (budget : Nat) :
    s.renderPlainly (budget + 2) here depth (inclusionLine margin tag rest.toList) =
      writePlainly s (s.renderPlainly (budget + 1))
        (blockText (some (inclusionLine margin tag rest.toList))) depth here
        (if rest.toList.all isBlank then [inclusionNode margin tag key]
        else (charPieces 0 margin).filterMap Piece.leaf? ++ inclusionNode margin tag key ::
          ((Pieces.ofText s.delimiters rest).list.map
            (Piece.shift (byteLength margin + byteLength tag))).filterMap Piece.leaf?) := by
  have hline : '\n' ∉ margin := fun hmem => by
    rcases h.plain _ hmem with hc | hc <;> cases hc
  obtain ⟨parts, hparse, hparts⟩ :=
    parse_inclusionLine hd h.blanks hline h.lexeme h.values h.oneLine
  rw [Setup.renderPlainly, hparse, ← hparts]
  exact writePlainly_joinTexts parts

/-- What is behind the inclusion is rendered as it is by itself. -/
theorem run_renderPlainly (hd : s.delimiters.BlankFree)
    (h : IndentedInclusion s margin tag key text rest) {below : Nat}
    (hdescend : s.options.descend depth = .ok below) (budget : Nat) (here : Standpoint)
    (memory : σ) : ∃ written memory', ∀ asked,
      (s.renderPlainly (budget + 1) here depth rest).run ⟨memory, asked⟩ =
        some (.ok written, ⟨memory', asked⟩) ∧
      (s.renderPlainly (budget + 2) here depth (inclusionLine margin tag rest.toList)).run
          ⟨memory, asked⟩ =
        some (.ok (renderedLine margin text rest written), ⟨memory', key :: asked⟩) := by
  have hinclusion := h.run_inclusion hd hdescend budget
    (blockText (some (inclusionLine margin tag rest.toList))) here
  by_cases hblank : rest.toList.all isBlank = true
  · have huntagged := hd.not_infix_blanks (List.all_eq_true.1 hblank)
    refine ⟨rest, memory, fun asked => ⟨?_, ?_⟩⟩
    · rw [renderPlainly_text huntagged]
      rfl
    · rw [h.renderPlainly_line hd, if_pos hblank, renderedLine, if_pos hblank]
      exact run_writePlainly_cons.2 ⟨indented margin text, _, "", hinclusion _,
        run_writePlainly_nil.2 ⟨rfl, rfl⟩, String.append_empty.symm⟩
  · obtain ⟨written, memory', hwritten⟩ := run_each_write s here
      (Pieces.ofText s.delimiters rest).list memory
    refine ⟨written, memory', fun asked => ⟨?_, ?_⟩⟩
    · rw [h.values.renderPlainly_eq, hwritten]
    · have hshifted := values_shift h.values.values (byteLength margin + byteLength tag)
      rw [h.renderPlainly_line hd, if_neg hblank, renderedLine, if_neg hblank, writePlainly_append,
        writePlainly_leaves (values_charPieces 0 margin), each_write_chars, pure_bind,
        PlainM.run_bind,
        run_writePlainly_cons.2 ⟨indented margin text, _, written, hinclusion _, ?_, rfl⟩]
      · rfl
      · rw [writePlainly_leaves hshifted, each_write_shift, hwritten]

end IndentedInclusion

/-- Every ceiling but zero leaves room for an inclusion. -/
theorem Options.descend_zero {o : Options} (h : o.ceiling ≠ some 0) : o.descend 0 = .ok 1 := by
  rw [descend]
  split
  · next ceiling hsome =>
    refine if_neg fun hlt => h ?_
    rw [hsome, Nat.lt_one_iff.1 hlt]
  · rfl

/-- A line that starts with spaces and tabs and an inclusion is rendered, together with what stands
behind the inclusion by itself. Each line of the included text is indented once if nothing follows
the inclusion but white space; otherwise the first one is indented twice. -/
theorem inclusion_indents_lines {margin tag : List Char} {key rest : String}
    (hd : s.delimiters.BlankFree) (hceiling : s.options.ceiling ≠ some 0)
    (h : IndentedInclusion s margin tag key text rest) {session : Session σ}
    (hreaches : s.engine.Reaches s.callables session) (view : Value) {budget : Nat}
    (hbudget : 2 ≤ budget) :
    ∃ written session₁ session₂,
      s.engine.answer budget s.callables session (.render rest view s.inclusions s.options) =
        some (.ok (.text written), session₁) ∧
      s.engine.answer budget s.callables session
          (.render (inclusionLine margin tag rest.toList) view s.inclusions s.options) =
        some (.ok (.text (renderedLine margin text rest written)), session₂) ∧
      session₂.memory = session₁.memory := by
  obtain ⟨budget, rfl⟩ := Nat.exists_eq_add_of_le' hbudget
  obtain ⟨written, memory', hruns⟩ := h.run_renderPlainly hd (Options.descend_zero hceiling) budget
    ⟨view, []⟩ session.memory
  obtain ⟨hrest, hline⟩ := hruns session.shelf.askedNames
  have hrest := (steady_render s ⟨view, []⟩ 0 rest).stays (Nat.le_succ (budget + 1)) hrest
  have hplain₁ := answer_plainReply s hreaches.sound (budget + 2) rest view
  have hplain₂ := answer_plainReply s hreaches.sound (budget + 2)
    (inclusionLine margin tag rest.toList) view
  rw [hrest] at hplain₁
  rw [hline] at hplain₂
  obtain ⟨session₁, hanswer₁, hmemory₁⟩ := hplain₁.of_plain
  obtain ⟨session₂, hanswer₂, hmemory₂⟩ := hplain₂.of_plain
  exact ⟨written, session₁, session₂, hanswer₁, hanswer₂, hmemory₂.trans hmemory₁.symm⟩

end

/-- A text of three lines to include. -/
def threeLines : Setup CallCounts where
  engine := {}
  inclusions := some fun name => if name = "p" then some "I\nLove\nU" else none
  callables := .ofRecipes #[.getter .callCount]

def threeLinesReply (template : String) : Option (Except Fault Reply × Session CallCounts) :=
  threeLines.engine.answer 2 threeLines.callables (.fresh [] fun _ => .root .null)
    (.render template (.object [("n", .getter 0)]) threeLines.inclusions threeLines.options)

def threeLinesTag : String := "\x7b\x7b> p \x7d\x7d"

theorem threeLines_inclusion {rest : String} (hrest : OnlyValues .standard rest)
    (hline : '\n' ∉ rest.toList) : IndentedInclusion threeLines ['\t', ' '] threeLinesTag.toList "p"
      "I\nLove\nU" rest := by
  have hread : Cursor.readTag .standard ⟨0, threeLinesTag.toList⟩ =
      .ok (⟨.inclusion, "p", 0, 8⟩, ⟨8, []⟩) := by decide +kernel
  obtain ⟨lexeme, hlexeme, hsplit⟩ := Cursor.lexeme_of_readTag (by decide) (by decide) hread
  rw [List.append_nil] at hsplit
  subst hsplit
  exact {
    nonempty := List.cons_ne_nil _ _
    plain := List.forall_mem_cons.2 ⟨.inr rfl, List.forall_mem_singleton.2 (.inl rfl)⟩
    lexeme := hlexeme
    included := ⟨_, rfl, rfl⟩
    untagged := by decide +kernel
    filled := by decide +kernel
    values := hrest
    oneLine := hline }

/-- Behind the inclusion stands a value, or white space. -/
theorem inclusion_indents_lines_three :
    (∃ session', threeLinesReply ("\t " ++ threeLinesTag ++ "-\x7b\x7bn\x7d\x7d") =
      some (.ok (.text "\t \t I\n\t Love\n\t U-1"), session')) ∧
    ∃ session', threeLinesReply ("\t " ++ threeLinesTag ++ " ") =
      some (.ok (.text "\t I\n\t Love\n\t U"), session') := by
  have hd : threeLines.delimiters.BlankFree := show Delimiters.standard.BlankFree by decide
  have hreaches : threeLines.engine.Reaches threeLines.callables
      (.fresh [] fun _ => .root .null) := .fresh _ _
  constructor
  · have hpieces : Pieces.ofText .standard "-\x7b\x7bn\x7d\x7d" =
        ⟨[.char '-' 0, .tag ⟨.escaped, "n", 1, 6⟩], .finished 6⟩ := by decide +kernel
    have hvalue : OnlyValues .standard "-\x7b\x7bn\x7d\x7d" :=
      ⟨⟨6, by rw [hpieces]⟩, by rw [hpieces]; decide⟩
    obtain ⟨written, session₁, session₂, hrest, hline, -⟩ :=
      inclusion_indents_lines hd nofun (threeLines_inclusion hvalue (by decide)) hreaches
        (.object [("n", .getter 0)]) (le_refl 2)
    have hwritten : (threeLinesReply "-\x7b\x7bn\x7d\x7d").map (replyText? ·.1) =
        some (some "-1") := by decide +kernel
    rw [threeLinesReply, hrest] at hwritten
    obtain rfl : written = "-1" := Option.some.inj (Option.some.inj hwritten)
    exact ⟨session₂, hline⟩
  · have hblank : OnlyValues .standard " " := .of_text (by decide +kernel)
    obtain ⟨written, session₁, session₂, -, hline, -⟩ :=
      inclusion_indents_lines hd nofun (threeLines_inclusion hblank (by decide)) hreaches
        (.object [("n", .getter 0)]) (le_refl 2)
    exact ⟨session₂, hline⟩

/-- What follows the inclusion on its line makes the first line of the text stand further to the
right than the other lines. -/
theorem first_line_indented_twice :
    ¬∃ budget session', threeLines.engine.answer budget threeLines.callables
      (.fresh [] fun _ => .root .null)
      (.render " \x7b\x7b>p\x7d\x7d x" (.object []) threeLines.inclusions threeLines.options) =
        some (.ok (.text " I\n Love\n U x"), session') := by
  rintro ⟨budget, session', hreply⟩
  have hfirst : (threeLines.engine.answer 2 threeLines.callables (.fresh [] fun _ => .root .null)
      (.render " \x7b\x7b>p\x7d\x7d x" (.object []) threeLines.inclusions
        threeLines.options)).map (replyText? ·.1) = some (some "  I\n Love\n U x") := by
    decide +kernel
  obtain ⟨⟨reply, session''⟩, hanswer, htext⟩ := Option.map_eq_some_iff.1 hfirst
  obtain rfl := replyText?_eq_some htext
  have hsame := answer_unique threeLines Shelf.sound_empty hreply hanswer
  exact absurd (congrArg replyText? hsame) (by decide)

end TagTemplate
