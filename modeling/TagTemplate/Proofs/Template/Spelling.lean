import TagTemplate.Proofs.Template.InForce

/-!
# How tags are spelled

`Spells d t lexeme`: under the delimiters `d`, the text `lexeme` is the tag `t`. Main statements:
`Cursor.readTag_spells`, a tag that is read is spelled by the text passed over; `cut_ofText`, the
pieces of a template tile it, each tag spelled under the delimiters in force where it stands.
-/

namespace TagTemplate

/-- What stands for a kind behind the opening delimiter. -/
def TagKind.sigils : TagKind → List (List Char)
  | escaped => [[]]
  | unescaped => [['{'], ['&']]
  | block => [['#']]
  | inverted => [['^']]
  | blockEnd => [['/']]
  | inclusion => [['>']]
  | comment => [['!']]
  | delimiters => [['=']]

def EndsUnblank (cs : List Char) : Prop := ∀ c ∈ cs.getLast?, isBlank c = false

/-- What ends a tag behind its key, by its sigil. -/
inductive KeyEnd (d : Delimiters) : List Char → List Char → Prop
  | plain {sigil : List Char} : sigil ≠ ['{'] → sigil ≠ ['='] → KeyEnd d sigil d.closing.toList
  | brace : KeyEnd d ['{'] ('}' :: d.closing.toList)
  | equals {passed : List Char} : KeyEnd d ['='] ('=' :: (passed ++ d.closing.toList))

/-- A text is a tag: opening delimiter, sigil, key and what ends the tag, with white space
between them that does not belong to the key. -/
def Spells (d : Delimiters) (t : Tag) (lexeme : List Char) : Prop :=
  ∃ sigil ∈ t.kind.sigils, ∃ a b c ending, Blanks a ∧ Blanks b ∧ Blanks c ∧
    StartsUnblank t.key.toList ∧ EndsUnblank t.key.toList ∧ KeyEnd d sigil ending ∧
    lexeme = d.opening.toList ++ a ++ sigil ++ b ++ t.key.toList ++ c ++ ending

/-- The pieces tile a text that starts at a position, from left to right: a character is not where
a tag opens, and a tag is spelled under the delimiters in force. -/
inductive Cut : Delimiters → Nat → List Char → List Piece → Prop
  | nil {d : Delimiters} {pos : Nat} : Cut d pos [] []
  | char {d : Delimiters} {pos : Nat} {c : Char} {cs : List Char} {ps : List Piece} :
      ¬ d.opening.toList <+: c :: cs → Cut d (pos + c.utf8Size) cs ps →
      Cut d pos (c :: cs) (.char c pos :: ps)
  | tag {d d' : Delimiters} {t : Tag} {lexeme cs : List Char} {ps : List Piece} :
      Spells d t lexeme → t.stop = t.start + byteLength lexeme → t.delimitersAfter d = .ok d' →
      Cut d' t.stop cs ps → Cut d t.start (lexeme ++ cs) (.tag t :: ps)

theorem Spells.ne_nil {d : Delimiters} {t : Tag} {lexeme : List Char} (h : Spells d t lexeme) :
    lexeme ≠ [] := by
  obtain ⟨sigil, -, a, b, c, ending, -, -, -, -, -, -, rfl⟩ := h
  simp [d.opening_toList_ne]

theorem TagKind.mem_sigils_ofSigil {s : Char} (h : s ∈ TagTemplate.sigils) :
    [s] ∈ (ofSigil [s]).sigils := by
  have hall : TagTemplate.sigils.all (fun s => [s] ∈ (ofSigil [s]).sigils) = true := by decide
  exact of_decide_eq_true (List.all_eq_true.1 hall s h)

/-! ## Scans inside a tag -/

namespace Cursor

variable {d : Delimiters} {c : Cursor} {p : Pattern}

/-- A sigil that is scanned is one of the kind it stands for. -/
theorem scan_sigil (c : Cursor) :
    (c.scan sigilPattern).1 ∈ (TagKind.ofSigil (c.scan sigilPattern).1).sigils := by
  have hscan : (c.scan sigilPattern).1 = [] ∨ ∃ s ∈ sigils, (c.scan sigilPattern).1 = [s] := by
    cases hm : sigilPattern.matchLength? c.rest with
    | none => exact .inl (by simp [scan, advance, hm])
    | some n =>
      have hcore : sigilPattern.coreLength? c.rest = some n := hm
      obtain ⟨choice, hfind, hn⟩ := Option.map_eq_some_iff.1 hcore
      obtain ⟨s, hs, rfl⟩ := List.mem_map.1 (List.mem_of_find?_eq_some hfind)
      have hpre := List.find?_some hfind
      obtain ⟨rest, hrest⟩ := List.isPrefixOf_iff_prefix.1 hpre
      refine .inr ⟨s, hs, ?_⟩
      have hone : n = 1 := by
        rw [← hn]
        simp [sigilPattern]
      rw [scan, hm, Option.getD_some, hone, advance, ← hrest]
      rfl
  rcases hscan with h | ⟨s, hs, h⟩
  · rw [h]
    decide
  · rw [h]
    exact TagKind.mem_sigils_ofSigil hs

/-- White space is skipped as far as it goes. -/
theorem scan_blanksHere (c : Cursor) :
    Blanks (c.scan blanksHere).1 ∧ StartsUnblank (c.scan blanksHere).2.rest := by
  have hm : blanksHere.matchLength? c.rest = some (c.rest.takeWhile isBlank).length := by
    simp [Pattern.matchLength?, blanksHere, Pattern.blanks, Pattern.coreLength?]
  have hsplit := List.takeWhile_append_dropWhile (p := isBlank) (l := c.rest)
  have htaken : (c.scan blanksHere).1 = c.rest.takeWhile isBlank := by
    rw [scan, hm, Option.getD_some, advance]
    exact (List.prefix_iff_eq_take.1 (List.takeWhile_prefix _)).symm
  have hrest := scan_append blanksHere c
  rw [htaken] at hrest ⊢
  rw [List.append_cancel_left (hrest.trans hsplit.symm)]
  exact ⟨blanks_takeWhile _, startsUnblank_dropWhile _⟩

/-- What is skipped on the way to a pattern that takes white space along does not end with it. -/
theorem scanUntil_endsUnblank (hfree : p.anchored = false) (hpad : p.blankBefore = true)
    (h : (p.matchLength? (c.scanUntil p).2.rest).isSome) : EndsUnblank (c.scanUntil p).1 := by
  intro x hx
  obtain ⟨front, hfront⟩ := List.getLast?_eq_some_iff.1 hx
  by_contra hblank
  -- with white space at its end, the pattern would have matched one character earlier
  have hskip := scanUntil_skips hfree hfront (by simp)
  have hmatch := Pattern.matchLength?_blank_cons hpad (by simpa using hblank) h
  rw [List.singleton_append] at hskip
  rw [hskip] at hmatch
  cases hmatch

theorem scanUntil_startsUnblank (h : StartsUnblank c.rest) (p : Pattern) :
    StartsUnblank (c.scanUntil p).1 := by
  intro x hx
  refine h x ?_
  rw [← scanUntil_append p c]
  cases hfirst : (c.scanUntil p).1 with
  | nil => rw [hfirst] at hx; cases hx
  | cons y ys => rw [hfirst] at hx; simpa using hx

/-- Where something can still be scanned, a search has found its pattern. -/
theorem scanUntil_found (hfree : p.anchored = false) (h : (c.scanUntil p).2.rest ≠ []) :
    (p.matchLength? (c.scanUntil p).2.rest).isSome :=
  (scanUntil_stops hfree).resolve_left h

theorem rest_ne_nil_of_scan (h : (c.scan p).1 ≠ []) : c.rest ≠ [] := by
  intro hnil
  have happ := scan_append p c
  rw [hnil] at happ
  exact h (List.append_eq_nil_iff.1 happ).1

theorem rest_ne_nil_of_advance {n : Nat} (h : (c.advance n).2.rest ≠ []) : c.rest ≠ [] := by
  intro hnil
  simp [advance, hnil] at h

end Cursor

/-! ## The end of a tag -/

theorem startsUnblank_append {cs : List Char} (hne : cs ≠ []) (h : ∀ c ∈ cs, isBlank c = false)
    (rest : List Char) : StartsUnblank (cs ++ rest) := by
  cases cs with
  | nil => exact absurd rfl hne
  | cons c cs =>
    intro x hx
    cases hx
    exact h c (by simp)

namespace Cursor

variable {d : Delimiters} {c : Cursor}

/-- A key that ends where its tag does. -/
theorem readKey_plain {sigil : List Char} (hbrace : sigil ≠ ['{']) (hequals : sigil ≠ ['='])
    (c : Cursor) (d : Delimiters) : c.readKey d sigil = c.scanUntil d.closingPattern := by
  unfold readKey
  split
  · exact absurd rfl hequals
  · exact absurd rfl hbrace
  · rfl

/-- The cursor stands where white space, a literal and more follow: a scan yields the first two. -/
theorem scan_literal {p : Pattern} {w blanks more : List Char} (hw : p.choices = [w])
    (hafter : p.blankAfter = false) (hbefore : p.blankBefore = true) (hne : w ≠ [])
    (hblank : ∀ x ∈ w, isBlank x = false) (hblanks : Blanks blanks)
    (hrest : c.rest = blanks ++ (w ++ more)) :
    (c.scan p).1 = blanks ++ w ∧ (c.scan p).2.rest = more := by
  have hmatch : (p.matchLength? c.rest).isSome := by
    rw [hrest]
    clear hrest
    induction blanks with
    | nil => exact Pattern.matchLength?_literal_append hw hafter more
    | cons x blanks ih =>
      obtain ⟨hx, htail⟩ := List.forall_mem_cons.1 hblanks
      exact Pattern.matchLength?_blank_cons hbefore hx (ih htail)
  obtain ⟨blanks', hblanks', hscan⟩ := scan_padded hw hafter hbefore hmatch
  have happ := scan_append p c
  rw [hscan, hrest, List.append_assoc] at happ
  -- the white space ends where the literal starts, in both readings
  obtain ⟨rfl, htail⟩ := blanks_append_inj happ hblanks' hblanks
    (startsUnblank_append hne hblank _) (startsUnblank_append hne hblank _)
  exact ⟨hscan, List.append_cancel_left htail⟩

/-- A key in braces ends at a brace directly before the closing delimiter. -/
theorem readKey_brace (hd : d.BlankFree) (hrest : (c.readKey d ['{']).2.rest ≠ []) :
    (d.bracePattern.matchLength? (c.scanUntil d.bracePattern).2.rest).isSome ∧
    ∃ blanks, Blanks blanks ∧ c.rest = (c.readKey d ['{']).1 ++ (blanks ++
      ('}' :: d.closing.toList ++ ((c.readKey d ['{']).2.scan d.closingPattern).2.rest)) := by
  simp only [readKey] at hrest ⊢
  have hfound := scanUntil_found (c := c) (p := d.bracePattern) rfl
    (rest_ne_nil_of_advance (rest_ne_nil_of_advance hrest))
  obtain ⟨n, hn⟩ := Option.isSome_iff_exists.1 hfound
  obtain ⟨blanks, more, hat, hblanks, -⟩ := Pattern.matchLength?_literal rfl rfl rfl hn
  refine ⟨hfound, blanks, hblanks, ?_⟩
  -- behind the brace the closing delimiter follows at once
  have hbehind := (scan_literal (p := closingBrace) (w := ['}']) rfl rfl rfl (by simp)
    (List.forall_mem_singleton.2 rfl) hblanks hat).2
  have hmatch := Pattern.matchLength?_literal_append (p := d.closingPattern) rfl rfl more
  rw [List.append_eq] at hbehind
  rw [← hbehind] at hmatch
  rw [scanUntil_of_matches rfl hmatch, (@scan_literal _ d.closingPattern _ [] _ rfl rfl
    rfl d.closing_toList_ne hd.2 (by simp [Blanks]) hbehind).2, ← hat, scanUntil_append]

/-- A key in equals signs ends at the second; up to the closing delimiter anything goes. -/
theorem readKey_equals (hrest : (c.readKey d ['=']).2.rest ≠ []) :
    (equalsPattern.matchLength? (c.scanUntil equalsPattern).2.rest).isSome ∧
    ∃ blanks passed, Blanks blanks ∧
      c.rest = (c.readKey d ['=']).1 ++ (blanks ++ ('=' :: (passed ++
        (c.readKey d ['=']).2.rest))) := by
  simp only [readKey] at hrest ⊢
  have hfound := scanUntil_found (c := c) (p := equalsPattern) rfl
    (rest_ne_nil_of_advance (rest_ne_nil_of_advance hrest))
  obtain ⟨blanks, hblanks, hsign⟩ := scan_padded rfl rfl rfl hfound
  refine ⟨hfound, blanks,
    (((c.scanUntil equalsPattern).2.scan equalsPattern).2.scanUntil d.closingPattern).1,
    hblanks, ?_⟩
  have hpassed := scanUntil_append d.closingPattern
    ((c.scanUntil equalsPattern).2.scan equalsPattern).2
  have happ := scan_append equalsPattern (c.scanUntil equalsPattern).2
  rw [hsign, ← hpassed] at happ
  rw [← scanUntil_append equalsPattern c, ← happ]
  simp

/-- Behind the key, white space and what ends the tag are passed over. -/
theorem readKey_ends (hd : d.BlankFree) (sigil : List Char) (hstart : StartsUnblank c.rest)
    (hclose : ((c.readKey d sigil).2.scan d.closingPattern).1 ≠ []) :
    StartsUnblank (c.readKey d sigil).1 ∧ EndsUnblank (c.readKey d sigil).1 ∧
    ∃ blanks ending, Blanks blanks ∧ KeyEnd d sigil ending ∧
      c.rest = (c.readKey d sigil).1 ++ (blanks ++ (ending ++
        ((c.readKey d sigil).2.scan d.closingPattern).2.rest)) := by
  have hscan := scan_append d.closingPattern (c.readKey d sigil).2
  obtain ⟨blanks, hblanks, hclosing⟩ := scan_padded rfl rfl rfl (matches_of_scan hclose)
  rw [hclosing, List.append_assoc] at hscan
  have hatEnd := rest_ne_nil_of_scan hclose
  by_cases hequals : sigil = ['=']
  · subst hequals
    obtain ⟨hfound, blanks', passed, hblanks', hrest⟩ := readKey_equals hatEnd
    refine ⟨scanUntil_startsUnblank hstart _, scanUntil_endsUnblank rfl rfl hfound,
      blanks', _, hblanks', @KeyEnd.equals d (passed ++ blanks), ?_⟩
    rw [hrest, ← hscan]
    simp
  by_cases hbrace : sigil = ['{']
  · subst hbrace
    obtain ⟨hfound, blanks', hblanks', hrest⟩ := readKey_brace hd hatEnd
    exact ⟨scanUntil_startsUnblank hstart _, scanUntil_endsUnblank rfl rfl hfound,
      blanks', _, hblanks', .brace, hrest⟩
  · rw [readKey_plain hbrace hequals] at hscan hclose ⊢
    refine ⟨scanUntil_startsUnblank hstart _,
      scanUntil_endsUnblank rfl rfl (matches_of_scan hclose),
      blanks, _, hblanks, .plain hbrace hequals, ?_⟩
    rw [hscan, scanUntil_append]

/-- A tag that is read is spelled by the text passed over. -/
theorem readTag_spells {next : Cursor} {t : Tag} (hd : d.BlankFree)
    (hopen : d.opening.toList <+: c.rest) (h : c.readTag d = .ok (t, next)) :
    ∃ lexeme, c.rest = lexeme ++ next.rest ∧ Spells d t lexeme ∧ t.start = c.pos ∧
      t.stop = next.pos ∧ next.pos = c.pos + byteLength lexeme := by
  have hstop := readTag_stop h
  -- the parts of the tag, in the order in which they are scanned
  obtain ⟨a, ha, hopening, -⟩ := scan_opening hopen
  have hinside := scan_append d.openingPattern c
  simp only [readTag] at h
  generalize hc1 : (c.scan d.openingPattern).2 = c1 at h hinside
  have hsigil := scan_sigil c1
  have hafterSigil := scan_append sigilPattern c1
  generalize hs : (c1.scan sigilPattern).1 = sigil at h hsigil hafterSigil
  generalize hc2 : (c1.scan sigilPattern).2 = c2 at h hafterSigil
  obtain ⟨hb, hstart⟩ := scan_blanksHere c2
  have hatKey := scan_append blanksHere c2
  generalize hc3 : (c2.scan blanksHere).2 = c3 at h hstart hatKey
  split at h
  · cases h
  · next hclose =>
    obtain ⟨rfl, rfl⟩ := Prod.mk.inj (Except.ok.inj h)
    obtain ⟨hkeyStart, hkeyEnd, blanks, ending, hblanks, hending, hrest⟩ :=
      readKey_ends hd sigil hstart (by simpa using hclose)
    have hsplit : c.rest = d.opening.toList ++ a ++ sigil ++ (c2.scan blanksHere).1 ++
        (c3.readKey d sigil).1 ++ blanks ++ ending ++
          ((c3.readKey d sigil).2.scan d.closingPattern).2.rest := by
      rw [← hinside, hopening, ← hafterSigil, ← hatKey, hrest]
      simp
    refine ⟨_, hsplit, ?_, rfl, rfl, ?_⟩
    · exact ⟨sigil, hsigil, a, _, blanks, ending, ha, hb, hblanks, by simpa using hkeyStart,
        by simpa using hkeyEnd, hending, by simp⟩
    · have hlength := congrArg byteLength hsplit
      rw [byteLength_append] at hlength
      simp only [stop] at hstop
      omega

end Cursor

/-! ## A template in pieces -/

/-- The pieces from a cursor to the end of the text tile what is left of the text. -/
theorem Cursor.cut_pieces {d : Delimiters} {c : Cursor} {pos : Nat} (hd : d.BlankFree)
    (h : (c.pieces d).ending = .finished pos) : Cut d c.pos c.rest (c.pieces d).list := by
  induction d, c using Cursor.pieces_induction with
  | atEnd d c hend =>
    rw [pieces_atEnd hend, hend]
    exact .nil
  | char d start x xs hnone ih =>
    rw [pieces_char hnone] at h ⊢
    exact .char (Delimiters.opening_unmatched_iff.1 hnone) (ih hd h)
  | unclosed d c stop hopen htag =>
    rw [pieces_unclosed hopen htag] at h
    cases h
  | refused d c t next fault hopen htag hafter =>
    rw [pieces_tag hopen htag, hafter] at h
    cases h
  | tag d d' c t next hopen htag hafter ih =>
    rw [pieces_tag hopen htag, hafter] at h ⊢
    obtain ⟨lexeme, hrest, hspells, hstart, hstop, hpos⟩ :=
      readTag_spells hd (Delimiters.opening_matches_iff.1 hopen) htag
    have hnext := ih (delimitersAfter_blankFree hd hafter) h
    rw [← hstop] at hnext
    rw [hrest, ← hstart]
    exact .tag hspells (by rw [hstop, hpos, hstart]) hafter hnext

/-- The pieces of a template that is read to its end tile it. -/
theorem cut_ofText {d : Delimiters} {template : String} {pos : Nat} (hd : d.BlankFree)
    (h : (Pieces.ofText d template).ending = .finished pos) :
    Cut d 0 template.toList (Pieces.ofText d template).list := Cursor.cut_pieces hd h

end TagTemplate
