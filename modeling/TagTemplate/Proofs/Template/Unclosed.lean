import TagTemplate.Proofs.Template.Indent

/-!
# Tags that do not end

A tag ends if the literal that it ends with occurs in what follows. Main statements:
`exists_lexeme_of_indent`, moving a text to the right makes no tags; `readTag_error_moved`, so a tag
that does not end does not end when it is moved.
-/

namespace TagTemplate

section

variable {cs w : List Char}

/-! ## Keys that end -/

/-- A literal that occurs in a text is found there by a search. -/
theorem exists_unmatched (hw : Solid w) (h : w <:+: cs) :
    ∃ text blanks more, Blanks blanks ∧ Unmatched w text (blanks ++ w) ∧
      cs = text ++ (blanks ++ (w ++ more)) := by
  let p : Pattern := { choices := [w], blankBefore := true }
  let c : Cursor := ⟨0, cs⟩
  have hmatch : (p.matchLength? (c.scanUntil p).2.rest).isSome := by
    refine (Cursor.scanUntil_stops rfl).resolve_left fun hend => ?_
    -- otherwise the search would have passed over the literal
    obtain ⟨a, b, hcs⟩ := h
    have hall := Cursor.scanUntil_append p c
    rw [hend, List.append_nil] at hall
    have hskip := Cursor.scanUntil_skips (p := p) (c := c) rfl
      (a := a) (b := w ++ b) (by rw [hall, ← List.append_assoc, hcs]) (by simp [hw.1])
    rw [hend, List.append_nil] at hskip
    have hhere := Pattern.matchLength?_literal_append (p := p) rfl rfl b
    rw [hskip] at hhere
    cases hhere
  obtain ⟨blanks, more, hblanks, hrest⟩ := Cursor.scanUntil_blanks rfl rfl rfl hmatch
  refine ⟨(c.scanUntil p).1, blanks, more, hblanks,
    Cursor.unmatched_scanUntil hw rfl rfl rfl rfl hrest, ?_⟩
  rw [← hrest, Cursor.scanUntil_append]

/-- A literal of one character is not in a text that a search for it passes over. -/
theorem Unmatched.not_mem {x : Char} {text tail : List Char} (hx : Solid [x])
    (h : Unmatched [x] text tail) : x ∉ text := by
  intro hmem
  obtain ⟨front, rest, rfl, -⟩ := List.eq_append_cons_of_mem hmem
  refine h front (x :: rest) rfl (List.cons_ne_nil x rest) ?_
  have hself := hx.dropWhile_self (rest ++ tail)
  rw [List.singleton_append] at hself
  rw [List.cons_append, hself]
  exact List.prefix_append [x] _

/-- What follows a character follows its first occurrence. -/
theorem suffix_behind_first {x : Char} {a b a' b' : List Char} (h : a ++ x :: b = a' ++ x :: b')
    (hx : x ∉ a) : b' <:+ b := by
  obtain ⟨middle, -, hrest⟩ | ⟨middle, rfl, hrest⟩ := List.append_eq_append_iff.1 h
  · cases middle with
    | nil =>
      obtain ⟨-, rfl⟩ := List.cons.inj hrest
      exact List.suffix_refl _
    | cons y middle =>
      obtain ⟨-, rfl⟩ := List.cons.inj hrest
      exact (List.suffix_cons x b').trans (List.suffix_append middle _)
  · cases middle with
    | nil =>
      obtain ⟨-, rfl⟩ := List.cons.inj hrest
      exact List.suffix_refl _
    | cons y middle =>
      obtain ⟨rfl, -⟩ := List.cons.inj hrest
      exact absurd (List.mem_append_right _ List.mem_cons_self) hx

theorem StartsUnblank.dropWhile_eq (h : StartsUnblank cs) : cs.dropWhile isBlank = cs := by
  cases cs with
  | nil => rfl
  | cons c cs =>
    have hc : isBlank c = false := h c rfl
    exact List.dropWhile_cons_of_neg (by simp [hc])

/-- What ends a key behind a sigil occurs in a text. -/
inductive Ends (d : Delimiters) : List Char → List Char → Prop
  | plain {sigil cs : List Char} :
      sigil ≠ ['{'] → sigil ≠ ['='] → d.closing.toList <:+: cs → Ends d sigil cs
  | brace {cs : List Char} : '}' :: d.closing.toList <:+: cs → Ends d ['{'] cs
  | equals {passed more : List Char} :
      d.closing.toList <:+: more → Ends d ['='] (passed ++ '=' :: more)

variable {d : Delimiters} {sigil : List Char}

theorem KeyText.ends {key text : List Char} (h : KeyText d sigil key text) (more : List Char) :
    Ends d sigil (text ++ more) := by
  cases h with
  | @plain _ _ blanks hbrace hequals =>
    exact .plain hbrace hequals ⟨key ++ blanks, more, by simp⟩
  | @brace _ blanks => exact .brace ⟨key ++ blanks, more, by simp⟩
  | @equals _ blanks passed blanks' =>
    have hsplit : key ++ (blanks ++ '=' :: (passed ++ (blanks' ++ d.closing.toList))) ++ more =
        (key ++ blanks) ++ '=' :: ((passed ++ blanks') ++ (d.closing.toList ++ more)) := by simp
    rw [hsplit]
    exact .equals ⟨passed ++ blanks', more, by simp⟩

/-- A key ends if what ends it occurs at all. -/
theorem Ends.exists_keyText (hd : d.BlankFree) (h : Ends d sigil cs) :
    ∃ key text more, KeyText d sigil key text ∧ cs = text ++ more := by
  cases h with
  | plain hbrace hequals h =>
    obtain ⟨key, blanks, more, hblanks, hkey, rfl⟩ := exists_unmatched hd.closing_solid h
    exact ⟨key, _, more, .plain hbrace hequals hblanks hkey, by simp⟩
  | brace h =>
    obtain ⟨key, blanks, more, hblanks, hkey, rfl⟩ := exists_unmatched hd.brace_solid h
    exact ⟨key, _, more, .brace hblanks hkey, by simp⟩
  | @equals passed more h =>
    have hin : ['='] <:+: passed ++ '=' :: more := ⟨passed, more, by simp⟩
    obtain ⟨key, blanks, behind, hblanks, hkey, hsplit⟩ := exists_unmatched equals_solid hin
    -- the first equals sign is no further than the one that is known
    have hfirst : '=' ∉ key ++ blanks := by
      intro hmem
      obtain hmem | hmem := List.mem_append.1 hmem
      · exact hkey.not_mem equals_solid hmem
      · have hblank := hblanks '=' hmem
        cases hblank
    have hboth : (key ++ blanks) ++ '=' :: behind = passed ++ '=' :: more := by
      rw [hsplit]
      simp
    have hbehind := h.trans (suffix_behind_first hboth hfirst).isInfix
    obtain ⟨passed', blanks', more', hblanks', hpassed, rfl⟩ :=
      exists_unmatched hd.closing_solid hbehind
    refine ⟨key, _, more', .equals hblanks hblanks' hkey hpassed, ?_⟩
    rw [hsplit]
    simp

end

/-! ## Texts that are moved -/

section

variable {margin cs w : List Char} {fresh : Bool} (hmargin : Blanks margin)
include hmargin

/-- A literal and more, at the end of a text that is moved, stood at the end of the text. -/
theorem suffix_of_indent (hw : Solid w) {front more : List Char}
    (h : indent margin fresh cs = front ++ (w ++ more)) :
    ∃ front' rest, cs = front' ++ rest ∧ w <+: rest ∧ indent margin false rest = w ++ more := by
  obtain ⟨front', rest, fresh', blanks, rfl, -, hblanks, hrest, -⟩ :=
    suffix_indent hmargin h (by simp [hw.1])
  -- the literal starts with no white space, so none stands before it
  have hmoved : indent margin false (rest.dropWhile isBlank) = w ++ more := by
    rw [← dropWhile_indent hmargin fresh', ← hw.dropWhile_self, hrest,
      List.dropWhile_append_of_pos hblanks]
  refine ⟨front' ++ rest.takeWhile isBlank, rest.dropWhile isBlank, ?_, ?_, hmoved⟩
  · rw [List.append_assoc, List.takeWhile_append_dropWhile]
  · have hprefix : w <+: indent margin false (rest.dropWhile isBlank) :=
      hmoved ▸ List.prefix_append w more
    exact (prefix_indent_iff hw.not_mem_lineFeed).1 hprefix

/-- A literal that occurs in a text that is moved occurred in the text. -/
theorem infix_of_indent (hw : Solid w) (h : w <:+: indent margin fresh cs) : w <:+: cs := by
  obtain ⟨front, more, hsplit⟩ := h
  rw [List.append_assoc] at hsplit
  obtain ⟨front', rest, rfl, hprefix, -⟩ := suffix_of_indent hmargin hw hsplit.symm
  exact hprefix.isInfix.trans (List.suffix_append front' rest).isInfix

variable {d : Delimiters}

theorem Ends.of_indent (hd : d.BlankFree) {sigil : List Char}
    (h : Ends d sigil (indent margin false cs)) : Ends d sigil cs := by
  generalize hmoved : indent margin false cs = moved at h
  cases h with
  | plain hbrace hequals h =>
    exact .plain hbrace hequals (infix_of_indent hmargin hd.closing_solid (hmoved ▸ h))
  | brace h => exact .brace (infix_of_indent hmargin hd.brace_solid (hmoved ▸ h))
  | @equals passed more h =>
    have hsplit : indent margin false cs = passed ++ (['='] ++ more) := hmoved
    obtain ⟨front, rest, rfl, ⟨behind, rfl⟩, hrest⟩ := suffix_of_indent hmargin equals_solid hsplit
    rw [List.singleton_append, indent_cons (by decide)] at hrest
    obtain ⟨-, rfl⟩ := List.cons.inj hrest
    exact .equals (infix_of_indent hmargin hd.closing_solid h)

/-- Where a tag stands in a text that is moved, one stood before. -/
theorem exists_lexeme_of_indent (hd : d.BlankFree) {kind : TagKind} {key lexeme more : List Char}
    (hlexeme : Lexeme d kind key lexeme) (h : indent margin false cs = lexeme ++ more) :
    ∃ key' lexeme' more', Lexeme d kind key' lexeme' ∧ cs = lexeme' ++ more' := by
  obtain ⟨sigil, hsigil, a, b, text, ha, hb, hinside, hstart, hnone, htext, rfl⟩ := hlexeme
  have hne := htext.ne_nil
  have hopening := hd.opening_solid.not_mem_lineFeed
  -- the opening delimiter, and the text inside behind the white space
  obtain ⟨rest, rfl⟩ : d.opening.toList <+: cs := by
    have hprefix : d.opening.toList <+: indent margin false cs := by
      rw [h, List.append_assoc]
      exact List.prefix_append _ _
    exact (prefix_indent_iff hopening).1 hprefix
  rw [indent_append, indent_line hopening, freshAfter_line hopening, List.append_assoc] at h
  have hin : indent margin false (rest.dropWhile isBlank) = sigil ++ (b ++ (text ++ more)) := by
    have hunblank : StartsUnblank (sigil ++ (b ++ (text ++ more))) := by
      simpa using hinside.append (by simp [hne]) more
    rw [← dropWhile_indent hmargin, List.append_cancel_left h, List.append_assoc,
      List.dropWhile_append_of_pos ha, List.append_assoc, List.append_assoc, hunblank.dropWhile_eq]
  -- the sigil, and the key behind the white space
  have hline := TagKind.sigil_line hsigil
  obtain ⟨inner, hinner⟩ : sigil <+: rest.dropWhile isBlank := by
    have hprefix : sigil <+: indent margin false (rest.dropWhile isBlank) :=
      hin ▸ List.prefix_append _ _
    exact (prefix_indent_iff hline).1 hprefix
  rw [← hinner, indent_append, indent_line hline, freshAfter_line hline] at hin
  have hkey : indent margin false (inner.dropWhile isBlank) = text ++ more := by
    rw [← dropWhile_indent hmargin, List.append_cancel_left hin, List.dropWhile_append_of_pos hb,
      (hstart.append hne more).dropWhile_eq]
  obtain ⟨key', text', more', htext', hsplit⟩ :=
    (Ends.of_indent hmargin hd (hkey ▸ htext.ends more)).exists_keyText hd
  obtain ⟨b', hb', hbehind⟩ : ∃ b', Blanks b' ∧ inner = b' ++ (text' ++ more') :=
    ⟨_, blanks_takeWhile inner, by rw [← hsplit, List.takeWhile_append_dropWhile]⟩
  have hwhole : rest.dropWhile isBlank = (sigil ++ (b' ++ text')) ++ more' := by
    rw [← hinner, hbehind]
    simp
  obtain ⟨a', ha', hbefore⟩ : ∃ a', Blanks a' ∧ rest = a' ++ rest.dropWhile isBlank :=
    ⟨_, blanks_takeWhile rest, List.takeWhile_append_dropWhile.symm⟩
  refine ⟨key', _, more', ⟨sigil, hsigil, a', b', text', ha', hb', ?_, ?_, ?_, htext', rfl⟩, ?_⟩
  · exact StartsUnblank.of_append (hwhole ▸ startsUnblank_dropWhile rest)
  · exact StartsUnblank.of_append (hsplit ▸ startsUnblank_dropWhile inner)
  · have hhead : text'.head? = text.head? := by
      have hwith : (text' ++ more').head? = text'.head? :=
        List.head?_append_of_ne_nil text' htext'.ne_nil
      rw [← hwith, ← hsplit, ← head?_indent margin, hkey, List.head?_append_of_ne_nil text hne]
    rw [hhead]
    exact hnone
  · rw [hbefore, hwhole]
    simp

/-- A tag that does not end does not end when it is moved. -/
theorem Cursor.readTag_error_moved (hd : d.BlankFree) {c : Cursor} {stop : Nat}
    (hopen : d.opening.toList <+: c.rest) (h : c.readTag d = .error stop) (pos : Nat) :
    ∃ stop', Cursor.readTag d ⟨pos, indent margin false c.rest⟩ = .error stop' := by
  cases hread : Cursor.readTag d ⟨pos, indent margin false c.rest⟩ with
  | error stop' => exact ⟨stop', rfl⟩
  | ok read =>
    obtain ⟨t, next⟩ := read
    have hopening := hd.opening_solid.not_mem_lineFeed
    obtain ⟨lexeme, hlexeme, hrest⟩ := lexeme_of_readTag hd ((prefix_indent_iff hopening).2 hopen)
      hread
    obtain ⟨key', lexeme', more', hlexeme', hrest'⟩ :=
      exists_lexeme_of_indent hmargin hd hlexeme hrest
    rw [readTag_lexeme hd hlexeme' hrest'] at h
    cases h

end

end TagTemplate
