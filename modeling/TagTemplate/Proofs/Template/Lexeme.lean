import TagTemplate.Proofs.Template.Spelling

/-!
# Lexemes

`Lexeme d kind key cs`: the text `cs` by itself is a tag of this kind and with this key. Main
statements: `Cursor.readTag_lexeme` and `Cursor.lexeme_of_readTag`, a tag is read where a lexeme
stands, whatever follows it, and only there.
-/

namespace TagTemplate

/-- A literal that can be told from the white space around it. -/
def Solid (w : List Char) : Prop := w ≠ [] ∧ ∀ c ∈ w, isBlank c = false

instance (w : List Char) : Decidable (Solid w) := @instDecidableAnd _ _ _ (List.decidableBAll _ w)

/-- With `tail` behind it, the text is passed over by a search for a literal that may have white
space before it: the literal starts nowhere in the text, nor behind white space that does. -/
def Unmatched (w text tail : List Char) : Prop :=
  ∀ front rest, text = front ++ rest → rest ≠ [] → ¬ w <+: (rest ++ tail).dropWhile isBlank

/-- A key, by the sigil of its tag, and the text from the key to the end of the tag. -/
inductive KeyText (d : Delimiters) : List Char → List Char → List Char → Prop
  | plain {sigil key blanks : List Char} :
      sigil ≠ ['{'] → sigil ≠ ['='] → Blanks blanks →
      Unmatched d.closing.toList key (blanks ++ d.closing.toList) →
      KeyText d sigil key (key ++ (blanks ++ d.closing.toList))
  | brace {key blanks : List Char} :
      Blanks blanks → Unmatched ('}' :: d.closing.toList) key (blanks ++ '}' :: d.closing.toList) →
      KeyText d ['{'] key (key ++ (blanks ++ '}' :: d.closing.toList))
  | equals {key blanks passed blanks' : List Char} :
      Blanks blanks → Blanks blanks' → Unmatched ['='] key (blanks ++ ['=']) →
      Unmatched d.closing.toList passed (blanks' ++ d.closing.toList) →
      KeyText d ['='] key (key ++ (blanks ++ '=' :: (passed ++ (blanks' ++ d.closing.toList))))

/-- A text is a tag: the opening delimiter, a sigil or none, and the key up to the end of the tag,
each with all the white space that there is before it. -/
def Lexeme (d : Delimiters) (kind : TagKind) (key cs : List Char) : Prop :=
  ∃ sigil ∈ kind.sigils, ∃ a b text, Blanks a ∧ Blanks b ∧
    StartsUnblank (sigil ++ (b ++ text)) ∧ StartsUnblank text ∧
    (sigil = [] → ∀ c ∈ text.head?, c ∉ sigils) ∧ KeyText d sigil key text ∧
    cs = d.opening.toList ++ (a ++ (sigil ++ (b ++ text)))

theorem KeyText.ne_nil {d : Delimiters} {sigil key text : List Char}
    (h : KeyText d sigil key text) : text ≠ [] := by
  cases h <;> simp [d.closing_toList_ne]

theorem StartsUnblank.append {cs : List Char} (h : StartsUnblank cs) (hne : cs ≠ [])
    (more : List Char) : StartsUnblank (cs ++ more) := by
  cases cs with
  | nil => exact absurd rfl hne
  | cons c cs => exact h

theorem StartsUnblank.of_append {cs more : List Char} (h : StartsUnblank (cs ++ more)) :
    StartsUnblank cs := by
  cases cs with
  | nil => exact fun _ hx => nomatch hx
  | cons c cs => exact h

/-- White space does not start what starts with none. -/
theorem StartsUnblank.blanks_eq_nil {blanks rest : List Char} (h : StartsUnblank (blanks ++ rest))
    (hblanks : Blanks blanks) : blanks = [] := by
  cases blanks with
  | nil => rfl
  | cons c blanks =>
    have hc := h c rfl
    rw [hblanks c List.mem_cons_self] at hc
    cases hc

/-! ## Literals with white space before them -/

theorem Delimiters.BlankFree.opening_solid {d : Delimiters} (hd : d.BlankFree) :
    Solid d.opening.toList := ⟨d.opening_toList_ne, hd.1⟩

theorem Delimiters.BlankFree.closing_solid {d : Delimiters} (hd : d.BlankFree) :
    Solid d.closing.toList := ⟨d.closing_toList_ne, hd.2⟩

theorem Delimiters.BlankFree.brace_solid {d : Delimiters} (hd : d.BlankFree) :
    Solid ('}' :: d.closing.toList) :=
  ⟨List.cons_ne_nil _ _, List.forall_mem_cons.2 ⟨by decide, hd.2⟩⟩

theorem equals_solid : Solid ['='] := ⟨by simp, List.forall_mem_singleton.2 rfl⟩

namespace Solid

variable {w cs : List Char}

theorem not_mem_lineFeed (hw : Solid w) : '\n' ∉ w := by
  intro h
  have hblank := hw.2 _ h
  cases hblank

theorem dropWhile_self (hw : Solid w) (cs : List Char) :
    (w ++ cs).dropWhile isBlank = w ++ cs := by
  obtain ⟨c, w, rfl⟩ := List.exists_cons_of_ne_nil hw.1
  have hc : isBlank c = false := hw.2 c List.mem_cons_self
  rw [List.cons_append, List.dropWhile_cons_of_neg (by simp [hc])]

theorem dropWhile_blanks (hw : Solid w) {blanks : List Char} (hblanks : Blanks blanks)
    (cs : List Char) : (blanks ++ (w ++ cs)).dropWhile isBlank = w ++ cs := by
  rw [List.dropWhile_append_of_pos hblanks, hw.dropWhile_self]

/-- A text that ends with a literal is not shorter than the literal, less the white space at its
start. -/
theorem suffix_dropWhile (hw : Solid w) (front : List Char) :
    w <:+ (front ++ w).dropWhile isBlank := by
  induction front with
  | nil =>
    have hself := hw.dropWhile_self []
    rw [List.append_nil] at hself
    exact hself.symm ▸ List.suffix_refl w
  | cons c front ih =>
    by_cases hc : isBlank c = true
    · rw [List.cons_append, List.dropWhile_cons_of_pos hc]
      exact ih
    · rw [List.cons_append, List.dropWhile_cons_of_neg hc]
      exact List.suffix_append (c :: front) w

/-- Whether a literal starts somewhere before its own end does not depend on what follows. -/
theorem prefix_dropWhile_append (hw : Solid w) (front more : List Char) :
    w <+: (front ++ (w ++ more)).dropWhile isBlank ↔ w <+: (front ++ w).dropWhile isBlank := by
  have hsuffix := hw.suffix_dropWhile front
  have hne : (front ++ w).dropWhile isBlank ≠ [] := fun h => hw.1 (List.suffix_nil.1 (h ▸ hsuffix))
  rw [← List.append_assoc, List.dropWhile_append, if_neg (by simpa using hne)]
  constructor
  · intro h
    exact List.prefix_of_prefix_length_le h (List.prefix_append _ _) hsuffix.length_le
  · intro h
    exact h.trans (List.prefix_append _ _)

/-- A pattern that takes white space along matches where its literal stands behind white space. -/
theorem matches_iff (hw : Solid w) {p : Pattern} (hchoices : p.choices = [w])
    (hafter : p.blankAfter = false) (hbefore : p.blankBefore = true) :
    (p.matchLength? cs).isSome ↔ w <+: cs.dropWhile isBlank := by
  constructor
  · intro h
    obtain ⟨n, hn⟩ := Option.isSome_iff_exists.1 h
    obtain ⟨blanks, rest, rfl, hblanks, -⟩ :=
      Pattern.matchLength?_literal hchoices hafter hbefore hn
    rw [hw.dropWhile_blanks hblanks]
    exact List.prefix_append _ _
  · rintro ⟨rest, hrest⟩
    have hsplit := List.takeWhile_append_dropWhile (p := isBlank) (l := cs)
    rw [← hrest] at hsplit
    rw [← hsplit]
    generalize cs.takeWhile isBlank = blanks, blanks_takeWhile cs = hblanks at hsplit
    clear hsplit hrest
    induction blanks with
    | nil => exact Pattern.matchLength?_literal_append hchoices hafter rest
    | cons c blanks ih =>
      obtain ⟨hc, hblanks⟩ := List.forall_mem_cons.1 hblanks
      exact Pattern.matchLength?_blank_cons hbefore hc (ih hblanks)

end Solid

theorem TagKind.sigil_form {kind : TagKind} {sigil : List Char} (h : sigil ∈ kind.sigils) :
    sigil = [] ∨ ∃ s ∈ TagTemplate.sigils, sigil = [s] := by
  have hall : ∀ sigil ∈ kind.sigils, sigil = [] ∨ sigil ∈ TagTemplate.sigils.map ([·]) := by
    cases kind <;> decide
  obtain hnil | hmem := hall sigil h
  · exact .inl hnil
  · obtain ⟨s, hs, rfl⟩ := List.mem_map.1 hmem
    exact .inr ⟨s, hs, rfl⟩

theorem TagKind.ofSigil_eq {kind : TagKind} {sigil : List Char} (h : sigil ∈ kind.sigils) :
    ofSigil sigil = kind := by
  have hall : ∀ sigil ∈ kind.sigils, ofSigil sigil = kind := by cases kind <;> decide
  exact hall sigil h

namespace Cursor

variable {c : Cursor} {p : Pattern} {w text blanks more : List Char}

/-- A search ends behind a text that it passes over, where the literal follows. -/
theorem scanUntil_unmatched (hw : Solid w) (hchoices : p.choices = [w])
    (hafter : p.blankAfter = false) (hbefore : p.blankBefore = true) (hfree : p.anchored = false)
    (hblanks : Blanks blanks) (htext : Unmatched w text (blanks ++ w))
    (hrest : c.rest = text ++ (blanks ++ (w ++ more))) :
    (c.scanUntil p).1 = text ∧ (c.scanUntil p).2.rest = blanks ++ (w ++ more) := by
  have hfind : p.find? c.rest = some text.length := by
    rw [Pattern.find?_eq_some_iff hfree, hrest]
    refine ⟨by simp, ?_, fun k hk => ?_⟩
    · rw [List.drop_left, hw.matches_iff hchoices hafter hbefore, hw.dropWhile_blanks hblanks]
      exact List.prefix_append _ _
    · rw [← Option.not_isSome_iff_eq_none, hw.matches_iff hchoices hafter hbefore,
        List.drop_append_of_le_length hk.le, ← List.append_assoc, hw.prefix_dropWhile_append,
        List.append_assoc]
      refine htext _ _ (List.take_append_drop k text).symm ?_
      rw [ne_eq, List.drop_eq_nil_iff]
      omega
  rw [scanUntil, hfind, Option.getD_some, advance, hrest]
  exact ⟨List.take_left, List.drop_left⟩

/-- What a search passes over, if it ends where the literal follows. -/
theorem unmatched_scanUntil (hw : Solid w) (hchoices : p.choices = [w])
    (hafter : p.blankAfter = false) (hbefore : p.blankBefore = true) (hfree : p.anchored = false)
    (hrest : (c.scanUntil p).2.rest = blanks ++ (w ++ more)) :
    Unmatched w (c.scanUntil p).1 (blanks ++ w) := by
  intro front rest htext hne hprefix
  have hskip := scanUntil_skips hfree htext hne
  rw [← Option.not_isSome_iff_eq_none, hw.matches_iff hchoices hafter hbefore, hrest,
    ← List.append_assoc, hw.prefix_dropWhile_append, List.append_assoc] at hskip
  exact hskip hprefix

/-- Where a search ends, if not at the end of the text. -/
theorem scanUntil_blanks (hchoices : p.choices = [w]) (hafter : p.blankAfter = false)
    (hbefore : p.blankBefore = true) (hmatch : (p.matchLength? c.rest).isSome) :
    ∃ blanks more, Blanks blanks ∧ c.rest = blanks ++ (w ++ more) := by
  obtain ⟨n, hn⟩ := Option.isSome_iff_exists.1 hmatch
  obtain ⟨blanks, more, hrest, hblanks, -⟩ :=
    Pattern.matchLength?_literal hchoices hafter hbefore hn
  exact ⟨blanks, more, hblanks, hrest⟩

/-! ## The parts of a tag -/

variable {d : Delimiters}

theorem scan_opening_eq {a rest : List Char} (ha : Blanks a) (hrest : StartsUnblank rest)
    (h : c.rest = d.opening.toList ++ (a ++ rest)) : (c.scan d.openingPattern).2.rest = rest := by
  obtain ⟨blanks, hblanks, hscan, hunblank⟩ := scan_opening (c := c) (d := d)
    (h ▸ List.prefix_append _ _)
  have happ := scan_append d.openingPattern c
  rw [hscan, h, List.append_assoc] at happ
  exact (blanks_append_inj (List.append_cancel_left happ) hblanks ha hunblank hrest).2

/-- A sigil is taken if there is one. -/
theorem scan_sigil_eq {kind : TagKind} {sigil rest : List Char} (hsigil : sigil ∈ kind.sigils)
    (hnone : sigil = [] → ∀ x ∈ rest.head?, x ∉ sigils) (h : c.rest = sigil ++ rest) :
    (c.scan sigilPattern).1 = sigil ∧ (c.scan sigilPattern).2.rest = rest := by
  have hlength : (sigilPattern.matchLength? c.rest).getD 0 = sigil.length := by
    have hmatch : sigilPattern.matchLength? c.rest =
        (sigilPattern.choices.find? (·.isPrefixOf c.rest)).map fun choice => choice.length + 0 :=
      rfl
    rw [hmatch]
    cases hfind : sigilPattern.choices.find? (·.isPrefixOf c.rest) with
    | none =>
      obtain rfl | ⟨s, hs, rfl⟩ := TagKind.sigil_form hsigil
      · rfl
      · have hnot := List.find?_eq_none.1 hfind [s] (List.mem_map_of_mem hs)
        rw [h] at hnot
        simp at hnot
    | some choice =>
      obtain ⟨s, hs, rfl⟩ := List.mem_map.1 (List.mem_of_find?_eq_some hfind)
      have hprefix := List.find?_some hfind
      rw [h] at hprefix
      obtain rfl | ⟨s', -, rfl⟩ := TagKind.sigil_form hsigil
      · cases rest with
        | nil => simp at hprefix
        | cons x rest =>
          obtain rfl : s = x := by simpa using hprefix
          exact absurd hs (hnone rfl s rfl)
      · rfl
  rw [scan, hlength, advance, h]
  exact ⟨List.take_left, List.drop_left⟩

theorem scan_blanksHere_eq {b rest : List Char} (hb : Blanks b) (hrest : StartsUnblank rest)
    (h : c.rest = b ++ rest) : (c.scan blanksHere).2.rest = rest := by
  obtain ⟨hblanks, hunblank⟩ := scan_blanksHere c
  have happ := scan_append blanksHere c
  rw [h] at happ
  exact (blanks_append_inj happ hblanks hb hunblank hrest).2

/-- A key and what follows it up to the end of the tag are read as such. -/
theorem readKey_keyText (hd : d.BlankFree) {sigil key text : List Char}
    (htext : KeyText d sigil key text) (h : c.rest = text ++ more) :
    (c.readKey d sigil).1 = key ∧ ∃ blanks, Blanks blanks ∧
      (c.readKey d sigil).2.rest = blanks ++ (d.closing.toList ++ more) := by
  cases htext with
  | @plain _ key blanks hbrace hequals hblanks hkey =>
    rw [readKey_plain hbrace hequals]
    have hat : c.rest = key ++ (blanks ++ (d.closing.toList ++ more)) := by rw [h]; simp
    obtain ⟨hread, hrest⟩ := scanUntil_unmatched (p := d.closingPattern) hd.closing_solid rfl rfl
      rfl rfl hblanks hkey hat
    exact ⟨hread, blanks, hblanks, hrest⟩
  | @brace key blanks hblanks hkey =>
    have hat : c.rest = key ++ (blanks ++ ('}' :: d.closing.toList ++ more)) := by rw [h]; simp
    obtain ⟨hread, hrest⟩ := scanUntil_unmatched (p := d.bracePattern) hd.brace_solid rfl rfl rfl
      rfl hblanks hkey hat
    -- behind the brace the closing delimiter follows at once
    have hbehind := (scan_literal (p := closingBrace) (w := ['}']) rfl rfl rfl (by simp)
      (List.forall_mem_singleton.2 rfl) hblanks hrest).2
    have hmatch := Pattern.matchLength?_literal_append (p := d.closingPattern) rfl rfl more
    rw [List.append_eq] at hbehind
    rw [← hbehind] at hmatch
    simp only [readKey]
    rw [scanUntil_of_matches rfl hmatch]
    exact ⟨hread, [], by simp [Blanks], hbehind⟩
  | @equals key blanks passed blanks' hblanks hblanks' hkey hpassed =>
    have hat : c.rest = key ++ (blanks ++ (['='] ++
        (passed ++ (blanks' ++ (d.closing.toList ++ more))))) := by rw [h]; simp
    obtain ⟨hread, hrest⟩ := scanUntil_unmatched (p := equalsPattern) equals_solid rfl rfl rfl rfl
      hblanks hkey hat
    have hsign := (scan_literal (p := equalsPattern) rfl rfl rfl equals_solid.1 equals_solid.2
      hblanks hrest).2
    obtain ⟨-, hend⟩ := scanUntil_unmatched (p := d.closingPattern) hd.closing_solid rfl rfl rfl rfl
      hblanks' hpassed hsign
    exact ⟨hread, blanks', hblanks', hend⟩

/-! ## Reading lexemes -/

/-- Where a lexeme stands, a tag is read, whatever follows. -/
theorem readTag_lexeme (hd : d.BlankFree) {kind : TagKind} {key lexeme : List Char}
    (hlexeme : Lexeme d kind key lexeme) (h : c.rest = lexeme ++ more) :
    c.readTag d = .ok (⟨kind, String.ofList key, c.pos, c.pos + byteLength lexeme⟩,
      ⟨c.pos + byteLength lexeme, more⟩) := by
  obtain ⟨sigil, hsigil, a, b, text, ha, hb, hinside, hstart, hnone, htext, rfl⟩ := hlexeme
  have hne := htext.ne_nil
  have hopening : (c.scan d.openingPattern).2.rest = sigil ++ (b ++ (text ++ more)) :=
    scan_opening_eq ha (by simpa using hinside.append (by simp [hne]) more) (by rw [h]; simp)
  have hstop : (((((c.scan d.openingPattern).2.scan sigilPattern).2.scan blanksHere).2.readKey d
      sigil).2.scan d.closingPattern).2.stop = c.stop := by
    rw [scan_stop, readKey_stop, scan_stop, scan_stop, scan_stop]
  simp only [readTag]
  generalize (c.scan d.openingPattern).2 = c1 at hopening hstop ⊢
  have hnone' : sigil = [] → ∀ x ∈ (b ++ (text ++ more)).head?, x ∉ sigils := by
    rintro rfl
    obtain rfl : b = [] :=
      StartsUnblank.blanks_eq_nil (show StartsUnblank (b ++ text) from hinside) hb
    rw [List.nil_append, List.head?_append_of_ne_nil _ hne]
    exact hnone rfl
  obtain ⟨hread, hafterSigil⟩ := scan_sigil_eq hsigil hnone' hopening
  rw [hread, TagKind.ofSigil_eq hsigil]
  have hatKey := scan_blanksHere_eq hb (hstart.append hne more) hafterSigil
  generalize ((c1.scan sigilPattern).2.scan blanksHere).2 = c3 at hatKey hstop ⊢
  obtain ⟨hkey, blanks, hblanks, hend⟩ := readKey_keyText hd htext hatKey
  obtain ⟨hclose, hbehind⟩ := scan_literal (p := d.closingPattern) rfl rfl rfl
    d.closing_toList_ne hd.2 hblanks hend
  rw [hkey, hclose]
  generalize ((c3.readKey d sigil).2.scan d.closingPattern).2 = behind at hbehind hstop ⊢
  obtain ⟨pos, rest⟩ := behind
  obtain rfl : rest = more := hbehind
  have hempty : (blanks ++ d.closing.toList).isEmpty = false := by simp [d.closing_toList_ne]
  simp only [stop, h, byteLength_append _ rest] at hstop
  obtain rfl : pos = c.pos + byteLength (d.opening.toList ++ (a ++ (sigil ++ (b ++ text)))) := by
    omega
  rw [if_neg (by simp [hempty])]

/-- A lexeme is one piece, and the pieces of what follows are cut under the delimiters behind it. -/
theorem pieces_lexeme (hd : d.BlankFree) {kind : TagKind} {key lexeme : List Char}
    (hlexeme : Lexeme d kind key lexeme) {d' : Delimiters} {pos : Nat}
    (hafter : Tag.delimitersAfter ⟨kind, String.ofList key, pos, pos + byteLength lexeme⟩ d =
      .ok d') : pieces d ⟨pos, lexeme ++ more⟩ =
      (pieces d' ⟨pos + byteLength lexeme, more⟩).behind
        [.tag ⟨kind, String.ofList key, pos, pos + byteLength lexeme⟩] := by
  have hopen : (d.openingPattern.matchLength? (lexeme ++ more)).isSome := by
    obtain ⟨sigil, -, a, b, text, -, -, -, -, -, -, rfl⟩ := hlexeme
    rw [Delimiters.opening_matches_iff, List.append_assoc]
    exact List.prefix_append _ _
  rw [pieces_tag (c := ⟨pos, lexeme ++ more⟩) hopen (readTag_lexeme hd hlexeme rfl), hafter]

/-- White space in front of a text is no tag. -/
theorem pieces_blanks (hd : d.BlankFree) {blanks : List Char} (hblanks : Blanks blanks)
    (pos : Nat) (rest : List Char) : pieces d ⟨pos, blanks ++ rest⟩ =
      (pieces d ⟨pos + byteLength blanks, rest⟩).behind (charPieces pos blanks) := by
  induction blanks generalizing pos with
  | nil => rfl
  | cons c blanks ih =>
    obtain ⟨hc, hblanks⟩ := List.forall_mem_cons.1 hblanks
    have hnone : d.openingPattern.matchLength? (c :: (blanks ++ rest)) = none := by
      rw [Delimiters.opening_unmatched_iff]
      rintro ⟨more, hmore⟩
      have hunblank := startsUnblank_append d.opening_toList_ne hd.1 more c (by rw [hmore]; rfl)
      rw [hc] at hunblank
      cases hunblank
    rw [List.cons_append, pieces_char hnone, ih hblanks, Pieces.behind_behind, byteLength_cons,
      ← Nat.add_assoc]
    rfl

/-- A key that is read is one with what follows it up to the end of the tag. -/
theorem keyText_of_readKey (hd : d.BlankFree) (sigil : List Char)
    (hclose : ((c.readKey d sigil).2.scan d.closingPattern).1 ≠ []) :
    ∃ text, KeyText d sigil (c.readKey d sigil).1 text ∧
      c.rest = text ++ ((c.readKey d sigil).2.scan d.closingPattern).2.rest := by
  have hscan := scan_append d.closingPattern (c.readKey d sigil).2
  obtain ⟨blanks, hblanks, hclosing⟩ := scan_padded rfl rfl rfl (matches_of_scan hclose)
  rw [hclosing, List.append_assoc] at hscan
  have hatEnd := rest_ne_nil_of_scan hclose
  by_cases hequals : sigil = ['=']
  · subst hequals
    simp only [readKey] at hscan hatEnd ⊢
    -- the second equals sign, and behind it the search for the closing delimiter
    obtain ⟨blanks', more, hblanks', hsign⟩ := scanUntil_blanks (p := equalsPattern) rfl rfl rfl
      (scanUntil_found rfl (rest_ne_nil_of_advance (rest_ne_nil_of_advance hatEnd)))
    have hbehind := (scan_literal (p := equalsPattern) rfl rfl rfl equals_solid.1 equals_solid.2
      hblanks' hsign).2
    refine ⟨_, .equals hblanks' hblanks
      (unmatched_scanUntil equals_solid rfl rfl rfl rfl hsign)
      (unmatched_scanUntil hd.closing_solid rfl rfl rfl rfl hscan.symm), ?_⟩
    have hpassed := scanUntil_append d.closingPattern
      ((c.scanUntil equalsPattern).2.scan equalsPattern).2
    rw [← hscan, hbehind] at hpassed
    rw [← scanUntil_append equalsPattern c, hsign, ← hpassed]
    simp
  by_cases hbrace : sigil = ['{']
  · subst hbrace
    obtain ⟨-, blanks', hblanks', hrest⟩ := readKey_brace hd hatEnd
    have hkey : (c.readKey d ['{']).1 = (c.scanUntil d.bracePattern).1 := rfl
    have hat := scanUntil_append d.bracePattern c
    rw [hrest, hkey] at hat
    refine ⟨_, .brace hblanks'
      (unmatched_scanUntil hd.brace_solid rfl rfl rfl rfl (List.append_cancel_left hat)), ?_⟩
    rw [hrest, hkey]
    simp
  · rw [readKey_plain hbrace hequals] at hscan hclose ⊢
    refine ⟨_, .plain hbrace hequals hblanks
      (unmatched_scanUntil hd.closing_solid rfl rfl rfl rfl hscan.symm), ?_⟩
    rw [List.append_assoc, List.append_assoc, hscan, scanUntil_append]

/-- No sigil is scanned only where none stands. -/
theorem scan_sigil_nil (h : (c.scan sigilPattern).1 = []) : ∀ x ∈ c.rest.head?, x ∉ sigils := by
  intro x hx hmem
  obtain ⟨rest, hrest⟩ := List.head?_eq_some_iff.1 hx
  have hscan := (scan_sigil_eq (TagKind.mem_sigils_ofSigil hmem) (fun hnil => nomatch hnil)
    (show c.rest = [x] ++ rest from hrest)).1
  rw [h] at hscan
  cases hscan

/-- A tag that is read is a lexeme, which is passed over. -/
theorem lexeme_of_readTag (hd : d.BlankFree) (hopen : d.opening.toList <+: c.rest) {next : Cursor}
    {t : Tag} (h : c.readTag d = .ok (t, next)) :
    ∃ lexeme, Lexeme d t.kind t.key.toList lexeme ∧ c.rest = lexeme ++ next.rest := by
  -- the parts of the tag, in the order in which they are scanned
  obtain ⟨a, ha, hopening, hinside⟩ := scan_opening hopen
  have hsplit := scan_append d.openingPattern c
  simp only [readTag] at h
  generalize (c.scan d.openingPattern).2 = c1 at h hinside hsplit
  have hsigil := scan_sigil c1
  have hafterSigil := scan_append sigilPattern c1
  have hnone := scan_sigil_nil (c := c1)
  generalize (c1.scan sigilPattern).1 = sigil at h hsigil hafterSigil hnone
  generalize (c1.scan sigilPattern).2 = c2 at h hafterSigil
  obtain ⟨hb, hstart⟩ := scan_blanksHere c2
  have hatKey := scan_append blanksHere c2
  generalize (c2.scan blanksHere).1 = b at hb hatKey
  generalize (c2.scan blanksHere).2 = c3 at h hstart hatKey
  split at h
  · cases h
  · next hclose =>
    obtain ⟨rfl, rfl⟩ := Prod.mk.inj (Except.ok.inj h)
    obtain ⟨text, htext, hrest⟩ := keyText_of_readKey (c := c3) hd sigil (by simpa using hclose)
    have hne := htext.ne_nil
    have hin : c1.rest = (sigil ++ (b ++ text)) ++
        ((c3.readKey d sigil).2.scan d.closingPattern).2.rest := by
      rw [← hafterSigil, ← hatKey, hrest]
      simp
    refine ⟨_, ⟨sigil, hsigil, a, b, text, ha, hb, ?_, ?_, ?_, by simpa using htext, rfl⟩, ?_⟩
    · exact StartsUnblank.of_append (hin ▸ hinside)
    · exact StartsUnblank.of_append (hrest ▸ hstart)
    · rintro rfl x hx
      have hunblank : StartsUnblank (b ++ text) := StartsUnblank.of_append (hin ▸ hinside)
      obtain rfl : b = [] := hunblank.blanks_eq_nil hb
      refine hnone rfl x ?_
      rw [hin, List.nil_append, List.nil_append, List.head?_append_of_ne_nil _ hne]
      exact hx
    · rw [← hsplit, hopening, hin]
      simp

/-- A tag is read whatever follows. -/
theorem readTag_append (hd : d.BlankFree) (hopen : d.opening.toList <+: c.rest) {next : Cursor}
    {t : Tag} (h : c.readTag d = .ok (t, next)) (more : List Char) :
    readTag d ⟨c.pos, c.rest ++ more⟩ = .ok (t, ⟨next.pos, next.rest ++ more⟩) := by
  obtain ⟨lexeme, hlexeme, hrest⟩ := lexeme_of_readTag hd hopen h
  have hread := readTag_lexeme hd hlexeme hrest
  rw [h] at hread
  obtain ⟨htag, hnext⟩ := Prod.mk.inj (Except.ok.inj hread)
  have hpos : next.pos = c.pos + byteLength lexeme := congrArg Cursor.pos hnext
  have hmore : c.rest ++ more = lexeme ++ (next.rest ++ more) := by
    rw [hrest, List.append_assoc]
  rw [readTag_lexeme (c := ⟨c.pos, c.rest ++ more⟩) hd hlexeme hmore]
  simp only
  rw [← htag, hpos]

end Cursor

end TagTemplate
