import TagTemplate.Proofs.Template.Lexeme
import TagTemplate.Template.Reflow

/-!
# Tags in text that is moved to the right

An indentation is white space that comes before lines. What a tag needs is told apart from white
space, so moving a text to the right moves the tags in it, and only the keys of tags that go over
several lines change. Main statements: `reflow_eq`, moving a text is one pass over it;
`Lexeme.moved`, a tag that is moved is a tag; `words_indent`, it has the same words.
-/

namespace TagTemplate

/-- The text with `margin` before every character that starts a line; `fresh` tells whether the
first one does. -/
def indent (margin : List Char) (fresh : Bool) : List Char → List Char
  | [] => []
  | c :: cs =>
    if c = '\n' then c :: indent margin true cs
    else (if fresh then margin else []) ++ c :: indent margin false cs

/-- What follows a text starts a line. -/
def freshAfter (fresh : Bool) : List Char → Bool
  | [] => fresh
  | c :: cs => freshAfter (c = '\n') cs

/-- The key of a tag in a text that is moved to the right. -/
def indentKey (margin : List Char) (key : String) : String :=
  String.ofList (indent margin false key.toList)

section

variable {margin cs : List Char} {c : Char} {fresh : Bool}

@[simp] theorem indent_nil (margin : List Char) (fresh : Bool) : indent margin fresh [] = [] := rfl

theorem indent_lineFeed (margin : List Char) (fresh : Bool) (cs : List Char) :
    indent margin fresh ('\n' :: cs) = '\n' :: indent margin true cs := rfl

theorem indent_cons (hc : c ≠ '\n') (margin : List Char) (fresh : Bool) (cs : List Char) :
    indent margin fresh (c :: cs) =
      (if fresh then margin else []) ++ c :: indent margin false cs := if_neg hc

theorem indent_false_cons (margin : List Char) (c : Char) (cs : List Char) :
    indent margin false (c :: cs) = c :: indent margin (c = '\n') cs := by
  by_cases hc : c = '\n'
  · rw [hc]
    rfl
  · rw [indent_cons hc, decide_eq_false hc]
    rfl

theorem indent_append (margin : List Char) (fresh : Bool) (a b : List Char) :
    indent margin fresh (a ++ b) =
      indent margin fresh a ++ indent margin (freshAfter fresh a) b := by
  induction a generalizing fresh with
  | nil => rfl
  | cons c a ih =>
    by_cases hc : c = '\n'
    · rw [hc, List.cons_append, indent_lineFeed, indent_lineFeed, ih]
      rfl
    · rw [List.cons_append, indent_cons hc, indent_cons hc, ih, freshAfter, decide_eq_false hc,
        List.append_assoc, List.cons_append]

/-- A text on one line is moved as a whole. -/
theorem indent_line (h : '\n' ∉ cs) : indent margin false cs = cs := by
  induction cs with
  | nil => rfl
  | cons c cs ih =>
    obtain ⟨hc, hcs⟩ := List.ne_and_not_mem_of_not_mem_cons h
    rw [indent_cons (Ne.symm hc), ih hcs]
    rfl

theorem freshAfter_line (h : '\n' ∉ cs) : freshAfter false cs = false := by
  induction cs with
  | nil => rfl
  | cons c cs ih =>
    obtain ⟨hc, hcs⟩ := List.ne_and_not_mem_of_not_mem_cons h
    rw [freshAfter, decide_eq_false (Ne.symm hc), ih hcs]

theorem head?_indent (margin cs : List Char) : (indent margin false cs).head? = cs.head? := by
  cases cs with
  | nil => rfl
  | cons c cs => rw [indent_false_cons, List.head?_cons, List.head?_cons]

theorem startsUnblank_indent : StartsUnblank (indent margin false cs) ↔ StartsUnblank cs := by
  rw [StartsUnblank, StartsUnblank, head?_indent]

/-! ## Lines that are moved are a text that is moved -/

theorem joinLines_indentLines (margin : List Char) (afterText : Bool) (cs : List Char) :
    joinLines (indentLines margin afterText (splitLines cs)) = indent margin (!afterText) cs := by
  induction cs generalizing afterText with
  | nil => cases afterText <;> rfl
  | cons c cs ih =>
    obtain ⟨line, more, hlines⟩ := List.exists_cons_of_ne_nil (splitOn_ne_nil '\n' cs)
    rw [splitLines, hlines] at ih
    by_cases hc : c = '\n'
    · rw [splitLines, splitOn, if_pos hc, hlines, hc, indent_lineFeed]
      cases afterText <;> exact congrArg ('\n' :: ·) (ih false)
    · rw [splitLines, splitOn, if_neg hc, hlines, indent_cons hc]
      cases afterText with
      | true => exact (joinOn_head '\n' [c] line _).trans (congrArg (c :: ·) (ih true))
      | false =>
        have hmoved : indentLine margin (c :: line) = (margin ++ [c]) ++ line := by
          simp [indentLine]
        rw [indentLines, if_neg (by decide), hmoved, joinLines, joinOn_head]
        exact (congrArg ((margin ++ [c]) ++ ·) (ih true)).trans (by simp)

/-- Moving a text to the right is one pass over it. -/
theorem reflow_eq (text indentation : List Char) (afterText : Bool) :
    reflow text indentation afterText =
      indent (plainIndentation indentation) (!afterText) text :=
  joinLines_indentLines ..

theorem blanks_plainIndentation (indentation : List Char) :
    Blanks (plainIndentation indentation) := by
  intro c hc
  obtain ⟨-, hplain⟩ := List.mem_filter.1 hc
  rcases Bool.or_eq_true_iff.1 hplain with h | h
  · rw [of_decide_eq_true h]
    rfl
  · rw [of_decide_eq_true h]
    rfl

/-! ## Literals -/

/-- A literal on one line stands where it stood. -/
theorem prefix_indent_iff {w : List Char} (hw : '\n' ∉ w) :
    w <+: indent margin false cs ↔ w <+: cs := by
  induction w generalizing cs with
  | nil => simp
  | cons x w ih =>
    obtain ⟨hx, hw⟩ := List.ne_and_not_mem_of_not_mem_cons hw
    cases cs with
    | nil => rfl
    | cons c cs =>
      rw [indent_false_cons, List.cons_prefix_cons, List.cons_prefix_cons]
      refine and_congr_right fun hxc => ?_
      rw [decide_eq_false (hxc ▸ Ne.symm hx)]
      exact ih hw

theorem TagKind.sigil_line {kind : TagKind} {sigil : List Char} (h : sigil ∈ kind.sigils) :
    '\n' ∉ sigil := by
  obtain rfl | ⟨s, hs, rfl⟩ := TagKind.sigil_form h
  · exact List.not_mem_nil
  · intro hmem
    rw [← List.mem_singleton.1 hmem] at hs
    revert hs
    decide

theorem words_blanks_append {blanks : List Char} (h : Blanks blanks) (cs : List Char) :
    words (blanks ++ cs) = words cs := by
  induction blanks with
  | nil => rfl
  | cons c blanks ih =>
    obtain ⟨hc, hblanks⟩ := List.forall_mem_cons.1 h
    rw [List.cons_append, words, if_pos hc, ih hblanks]

variable (hmargin : Blanks margin)
include hmargin

theorem blanks_fresh (fresh : Bool) : Blanks (if fresh then margin else []) := by
  cases fresh with
  | true => exact hmargin
  | false => exact fun _ h => nomatch h

theorem blanks_indent (h : Blanks cs) (fresh : Bool) : Blanks (indent margin fresh cs) := by
  induction cs generalizing fresh with
  | nil => exact h
  | cons c cs ih =>
    obtain ⟨hc, hcs⟩ := List.forall_mem_cons.1 h
    rw [indent]
    split
    · exact List.forall_mem_cons.2 ⟨hc, ih hcs true⟩
    · exact List.forall_mem_append.2
        ⟨blanks_fresh hmargin fresh, List.forall_mem_cons.2 ⟨hc, ih hcs false⟩⟩

/-- White space stays in front of what it is in front of. -/
theorem indent_blanks_append {blanks : List Char} (hblanks : Blanks blanks)
    (hstart : StartsUnblank cs) (hne : cs ≠ []) (fresh : Bool) :
    ∃ blanks', Blanks blanks' ∧
      indent margin fresh (blanks ++ cs) = blanks' ++ indent margin false cs := by
  obtain ⟨c, cs, rfl⟩ := List.exists_cons_of_ne_nil hne
  have hc : c ≠ '\n' := by
    rintro rfl
    have hblank := hstart '\n' rfl
    cases hblank
  refine ⟨indent margin fresh blanks ++ if freshAfter fresh blanks then margin else [],
    List.forall_mem_append.2
      ⟨blanks_indent hmargin hblanks fresh, blanks_fresh hmargin _⟩, ?_⟩
  rw [indent_append, indent_cons hc, indent_cons hc, List.append_assoc]
  rfl

/-- So does white space in front of a literal, whatever follows. -/
theorem indent_padded {blanks w : List Char} (hblanks : Blanks blanks) (hw : Solid w)
    (fresh : Bool) : ∃ blanks', Blanks blanks' ∧ ∀ more,
      indent margin fresh (blanks ++ (w ++ more)) = blanks' ++ (w ++ indent margin false more) := by
  have hline := hw.not_mem_lineFeed
  have hpadded := indent_blanks_append hmargin hblanks
    (by simpa using startsUnblank_append hw.1 hw.2 []) hw.1 fresh
  obtain ⟨blanks', hblanks', hindent⟩ := hpadded
  refine ⟨blanks', hblanks', fun more => ?_⟩
  have hfresh : freshAfter (freshAfter fresh blanks) w = false := by
    obtain ⟨x, w, rfl⟩ := List.exists_cons_of_ne_nil hw.1
    obtain ⟨hx, hrest⟩ := List.ne_and_not_mem_of_not_mem_cons hline
    rw [freshAfter, decide_eq_false (Ne.symm hx), freshAfter_line hrest]
  have hboth : freshAfter fresh (blanks ++ w) = false := by
    rw [← hfresh]
    clear hindent hfresh
    induction blanks generalizing fresh with
    | nil => rfl
    | cons c blanks ih => exact ih (List.forall_mem_cons.1 hblanks).2 _
  rw [← List.append_assoc, indent_append, hindent, indent_line hline, hboth, List.append_assoc]

theorem dropWhile_indent (fresh : Bool) (cs : List Char) :
    (indent margin fresh cs).dropWhile isBlank = indent margin false (cs.dropWhile isBlank) := by
  induction cs generalizing fresh with
  | nil => rfl
  | cons c cs ih =>
    by_cases hline : c = '\n'
    · rw [hline, indent_lineFeed, List.dropWhile_cons_of_pos rfl, List.dropWhile_cons_of_pos rfl,
        ih]
    rw [indent_cons hline, List.dropWhile_append_of_pos (blanks_fresh hmargin fresh)]
    by_cases hc : isBlank c = true
    · rw [List.dropWhile_cons_of_pos hc, List.dropWhile_cons_of_pos hc, ih]
    · rw [List.dropWhile_cons_of_neg hc, List.dropWhile_cons_of_neg hc, indent_cons hline]
      rfl

/-- A text that is moved has the same words. -/
theorem words_indent (fresh : Bool) (cs : List Char) :
    words (indent margin fresh cs) = words cs := by
  induction cs generalizing fresh with
  | nil => rfl
  | cons c cs ih =>
    by_cases hline : c = '\n'
    · rw [hline, indent_lineFeed]
      exact ih true
    rw [indent_cons hline, words_blanks_append (blanks_fresh hmargin fresh)]
    simp only [words, head?_indent, ih]

/-- What ends a text that is moved was the end of the text, apart from white space in front. -/
theorem suffix_indent {front rest : List Char} (h : indent margin fresh cs = front ++ rest)
    (hne : rest ≠ []) :
    ∃ front' rest' fresh' blanks, cs = front' ++ rest' ∧ rest' ≠ [] ∧ Blanks blanks ∧
      rest = blanks ++ indent margin fresh' rest' ∧
      freshAfter fresh' rest' = freshAfter fresh cs := by
  induction cs generalizing fresh front with
  | nil => exact absurd (List.append_eq_nil_iff.1 h.symm).2 hne
  | cons c cs ih =>
    have hnone : Blanks [] := fun _ h => nomatch h
    by_cases hline : c = '\n'
    · subst hline
      rw [indent_lineFeed] at h
      cases front with
      | nil => exact ⟨[], _, fresh, [], rfl, List.cons_ne_nil _ _, hnone, h.symm, rfl⟩
      | cons x front =>
        obtain ⟨front', rest', fresh', blanks, rfl, hrest⟩ := ih (List.cons.inj h).2
        exact ⟨'\n' :: front', rest', fresh', blanks, rfl, hrest⟩
    · rw [indent_cons hline] at h
      have hwhole : indent margin false (c :: cs) = c :: indent margin false cs :=
        indent_cons hline ..
      -- the end starts within the white space, or at the character, or behind it
      rcases List.append_eq_append_iff.1 h with ⟨more, rfl, hmore⟩ | ⟨more, hfresh, rfl⟩
      · cases more with
        | nil => exact ⟨[], _, false, [], rfl, List.cons_ne_nil _ _, hnone,
            hmore.symm.trans hwhole.symm, rfl⟩
        | cons x more =>
          obtain ⟨front', rest', fresh', blanks, rfl, hne', hblanks, hrest, hend⟩ :=
            ih (List.cons.inj hmore).2
          refine ⟨c :: front', rest', fresh', blanks, rfl, hne', hblanks, hrest, ?_⟩
          rw [hend, freshAfter, decide_eq_false hline]
      · have hblanks : Blanks more := fun x hx =>
          blanks_fresh hmargin fresh x (hfresh ▸ List.mem_append_right _ hx)
        exact ⟨[], _, false, more, rfl, List.cons_ne_nil _ _, hblanks, by rw [hwhole], rfl⟩

/-! ## Tags -/

theorem Unmatched.moved {w text tail : List Char} (hw : Solid w) (h : Unmatched w text tail)
    (fresh : Bool) : Unmatched w (indent margin fresh text)
      (indent margin (freshAfter fresh text) tail) := by
  intro front rest htext hne hprefix
  obtain ⟨front', rest', fresh', blanks, rfl, hne', hblanks, rfl, hend⟩ :=
    suffix_indent hmargin htext hne
  rw [← hend, List.append_assoc, ← indent_append, List.dropWhile_append_of_pos hblanks,
    dropWhile_indent hmargin, prefix_indent_iff hw.not_mem_lineFeed] at hprefix
  exact h front' rest' rfl hne' hprefix

/-- A key with a literal behind it, both moved, at the end of a text and in front of more. -/
theorem Unmatched.moved_padded {w key blanks : List Char} (hw : Solid w) (hblanks : Blanks blanks)
    (h : Unmatched w key (blanks ++ w)) :
    ∃ blanks', Blanks blanks' ∧ Unmatched w (indent margin false key) (blanks' ++ w) ∧
      indent margin false (key ++ (blanks ++ w)) = indent margin false key ++ (blanks' ++ w) ∧
      ∀ more, indent margin false (key ++ (blanks ++ (w ++ more))) =
        indent margin false key ++
          (blanks' ++ (w ++ indent margin false more)) := by
  obtain ⟨blanks', hblanks', hpadded⟩ :=
    indent_padded hmargin hblanks hw (freshAfter false key)
  have hunmatched := h.moved hmargin hw false
  have htail := hpadded []
  rw [List.append_nil, indent_nil, List.append_nil] at htail
  rw [htail] at hunmatched
  exact ⟨blanks', hblanks', hunmatched, by rw [indent_append, htail],
    fun more => by rw [indent_append, hpadded]⟩

variable {d : Delimiters}

theorem KeyText.moved (hd : d.BlankFree) {sigil key text : List Char}
    (h : KeyText d sigil key text) :
    KeyText d sigil (indent margin false key) (indent margin false text) := by
  cases h with
  | plain hbrace hequals hblanks hkey =>
    obtain ⟨blanks', hblanks', hkey', htext, -⟩ :=
      hkey.moved_padded hmargin hd.closing_solid hblanks
    rw [htext]
    exact .plain hbrace hequals hblanks' hkey'
  | brace hblanks hkey =>
    obtain ⟨blanks', hblanks', hkey', htext, -⟩ :=
      hkey.moved_padded hmargin hd.brace_solid hblanks
    rw [htext]
    exact .brace hblanks' hkey'
  | @equals key blanks passed blanks₂ hblanks hblanks₂ hkey hpassed =>
    obtain ⟨blanks', hblanks', hkey', -, htext⟩ := hkey.moved_padded hmargin equals_solid hblanks
    obtain ⟨blanks₂', hblanks₂', hpassed', hmore, -⟩ :=
      hpassed.moved_padded hmargin hd.closing_solid hblanks₂
    have hboth := htext (passed ++ (blanks₂ ++ d.closing.toList))
    rw [List.singleton_append, List.singleton_append, hmore] at hboth
    rw [hboth]
    exact .equals hblanks' hblanks₂' hkey' hpassed'

/-- A tag that is moved is a tag, with its key moved. -/
theorem Lexeme.moved (hd : d.BlankFree) {kind : TagKind} {key : List Char}
    (h : Lexeme d kind key cs) :
    Lexeme d kind (indent margin false key) (indent margin false cs) := by
  obtain ⟨sigil, hsigil, a, b, text, ha, hb, hinside, hstart, hnone, htext, rfl⟩ := h
  have hne := htext.ne_nil
  have hline := TagKind.sigil_line hsigil
  obtain ⟨a', ha', houter⟩ := indent_blanks_append hmargin ha hinside (by simp [hne]) false
  obtain ⟨b', hb', hinner⟩ := indent_blanks_append hmargin hb hstart hne false
  have hmoved : indent margin false (sigil ++ (b ++ text)) =
      sigil ++ (b' ++ indent margin false text) := by
    rw [indent_append, indent_line hline, freshAfter_line hline, hinner]
  refine ⟨sigil, hsigil, a', b', _, ha', hb', ?_, startsUnblank_indent.2 hstart, ?_,
    htext.moved hmargin hd, ?_⟩
  · rw [← hmoved]
    exact startsUnblank_indent.2 hinside
  · rw [head?_indent]
    exact hnone
  · have hopening := hd.opening_solid.not_mem_lineFeed
    rw [indent_append, indent_line hopening, freshAfter_line hopening, houter, hmoved]

end

end TagTemplate
