import TagTemplate.Proofs.Template.Acceptance

/-!
# The closing delimiter that a tag misses

A message about a tag without an end shows the closing delimiter that is missing. It recovers it
from the closing pattern, written as a regular expression. The mark for white space at its start is
told from the delimiter, whatever that looks like (`dropBlankMarks_escapeMeta`); but to undo the
escaping all backslashes are left out, those of the delimiter too (`filter_escapeMeta`). Main
statements: `parse_unclosedTag_iff`, when there is such a message; `unclosed_tag_shows_closing`, it
shows the closing delimiter in force there, but for its backslashes.
-/

namespace TagTemplate

/-! ## Delimiters as regular expressions -/

namespace Delimiters

/-- The text that a regular expression of literal characters stands for: a character behind a
backslash stands for itself. -/
def literalText : List Char → List Char
  | '\\' :: c :: cs => c :: literalText cs
  | c :: cs => c :: literalText cs
  | [] => []

theorem escapeMeta_meta {c : Char} (h : isMeta c) (cs : List Char) :
    escapeMeta (c :: cs) = '\\' :: c :: escapeMeta cs := by
  rw [escapeMeta, List.flatMap_cons, if_pos h]
  rfl

theorem escapeMeta_plain {c : Char} (h : ¬ isMeta c) (cs : List Char) :
    escapeMeta (c :: cs) = c :: escapeMeta cs := by
  rw [escapeMeta, List.flatMap_cons, if_neg h]
  rfl

theorem ne_backslash_of_plain {c : Char} (h : ¬ isMeta c) : c ≠ '\\' := by
  rintro rfl
  exact h (by decide)

theorem literalText_plain {c : Char} (h : c ≠ '\\') (cs : List Char) :
    literalText (c :: cs) = c :: literalText cs := by
  conv_lhs => unfold literalText
  split
  · next heq => exact absurd (List.cons.inj heq).1 h
  · next heq =>
    obtain ⟨rfl, rfl⟩ := List.cons.inj heq
    rfl
  · next heq => cases heq

/-- An escaped text stands for the text. -/
theorem literalText_escapeMeta (cs : List Char) : literalText (escapeMeta cs) = cs := by
  induction cs with
  | nil => rfl
  | cons c cs ih =>
    by_cases hmeta : isMeta c
    · rw [escapeMeta_meta hmeta, literalText, ih]
    · rw [escapeMeta_plain hmeta, literalText_plain (ne_backslash_of_plain hmeta), ih]

/-- No escaped text starts with a mark for white space. -/
theorem dropBlankMarks_escapeMeta (cs : List Char) :
    dropBlankMarks (escapeMeta cs) = escapeMeta cs := by
  unfold dropBlankMarks
  split
  · next rest hmark =>
    -- behind a backslash is a special character, and the letter of the mark is none
    cases cs with
    | nil => cases hmark
    | cons c cs =>
      by_cases hmeta : isMeta c
      · rw [escapeMeta_meta hmeta] at hmark
        obtain ⟨rfl, -⟩ := List.cons.inj (List.cons.inj hmark).2
        exact absurd hmeta (by decide)
      · rw [escapeMeta_plain hmeta] at hmark
        exact absurd (List.cons.inj hmark).1 (ne_backslash_of_plain hmeta)
  · rfl

/-- Of an escaped text without backslashes, those of the text are missing too. -/
theorem filter_escapeMeta (cs : List Char) :
    (escapeMeta cs).filter (· ≠ '\\') = cs.filter (· ≠ '\\') := by
  induction cs with
  | nil => rfl
  | cons c cs ih =>
    by_cases hmeta : isMeta c
    · rw [escapeMeta_meta hmeta, List.filter_cons_of_neg (by simp), List.filter_cons,
        List.filter_cons, ih]
    · rw [escapeMeta_plain hmeta, List.filter_cons, List.filter_cons, ih]

theorem shownClosing_toList (d : Delimiters) :
    d.shownClosing.toList = d.closing.toList.filter (· ≠ '\\') := by
  have hmark : dropBlankMarks d.closingExpression = escapeMeta d.closing.toList :=
    dropBlankMarks_escapeMeta d.closing.toList
  rw [shownClosing, hmark, filter_escapeMeta, String.toList_ofList]

/-- A closing delimiter is shown as it is if it has no backslash. -/
theorem shownClosing_eq_iff {d : Delimiters} :
    d.shownClosing = d.closing ↔ '\\' ∉ d.closing.toList := by
  rw [← String.toList_inj, shownClosing_toList, List.filter_eq_self]
  constructor
  · intro h hmem
    exact absurd (h '\\' hmem) (by decide)
  · intro h c hc
    exact decide_eq_true fun heq => h (heq ▸ hc)

end Delimiters

/-! ## Tags without an end -/

namespace Cursor

/-- Reading passes some tags on the way from a cursor to another, and the delimiters in force
become others. -/
inductive Passes : Delimiters → Cursor → List Tag → Delimiters → Cursor → Prop
  | here {d : Delimiters} {c : Cursor} : Passes d c [] d c
  | char {d d' : Delimiters} {pos : Nat} {x : Char} {xs : List Char} {ts : List Tag}
      {c' : Cursor} :
      ¬ d.opening.toList <+: x :: xs → Passes d ⟨pos + x.utf8Size, xs⟩ ts d' c' →
      Passes d ⟨pos, x :: xs⟩ ts d' c'
  | tag {d d₁ d' : Delimiters} {c next c' : Cursor} {t : Tag} {ts : List Tag} :
      d.opening.toList <+: c.rest → c.readTag d = .ok (t, next) →
      t.delimitersAfter d = .ok d₁ → Passes d₁ next ts d' c' → Passes d c (t :: ts) d' c'

variable {d d' : Delimiters} {c c' : Cursor} {ts : List Tag}

theorem Passes.inForce (h : Passes d c ts d' c') : inForce d ts = .ok d' := by
  induction h with
  | here => rfl
  | char _ _ ih => exact ih
  | tag _ _ hafter _ ih => rw [inForce_cons, hafter, ok_bind, ih]

/-- What is passed stands in front of the pieces that are left. -/
theorem Passes.pieces (h : Passes d c ts d' c') :
    ∃ front, tagsOf front = ts ∧ c.pieces d = (c'.pieces d').behind front := by
  induction h with
  | here => exact ⟨[], rfl, rfl⟩
  | @char d d' pos x xs ts c' hnone _ ih =>
    obtain ⟨front, htags, hpieces⟩ := ih
    refine ⟨.char x pos :: front, htags, ?_⟩
    rw [pieces_char (Delimiters.opening_unmatched_iff.2 hnone), hpieces]
    rfl
  | @tag d d₁ d' c next c' t ts hopen htag hafter _ ih =>
    obtain ⟨front, rfl, hpieces⟩ := ih
    refine ⟨.tag t :: front, rfl, ?_⟩
    rw [pieces_tag (Delimiters.opening_matches_iff.2 hopen) htag, hafter]
    dsimp only
    rw [hpieces]
    rfl

/-- A tag opens at the cursor and cannot be read, because the search for its end comes to `pos`
without one. -/
def AtEndlessTag (d : Delimiters) (c : Cursor) (pos : Nat) : Prop :=
  d.opening.toList <+: c.rest ∧ c.readTag d = .error pos

theorem AtEndlessTag.pieces {pos : Nat} (h : c.AtEndlessTag d pos) :
    c.pieces d = ⟨[], .unclosed d.shownClosing pos⟩ :=
  pieces_unclosed (Delimiters.opening_matches_iff.2 h.1) h.2

/-- Pieces that end inside a tag end at a tag that reading gets to. -/
theorem exists_endless {closing : String} {pos : Nat}
    (h : (c.pieces d).ending = .unclosed closing pos) :
    ∃ d' c', Passes d c (tagsOf (c.pieces d).list) d' c' ∧ c'.AtEndlessTag d' pos ∧
      closing = d'.shownClosing := by
  induction d, c using pieces_induction with
  | atEnd d c hnil =>
    rw [pieces_atEnd hnil] at h
    cases h
  | char d start x xs hnone ih =>
    rw [pieces_char hnone] at h ⊢
    obtain ⟨d', c', hpasses, hendless⟩ := ih h
    exact ⟨d', c', .char (Delimiters.opening_unmatched_iff.1 hnone) hpasses, hendless⟩
  | unclosed d c stop hopen htag =>
    rw [pieces_unclosed hopen htag] at h ⊢
    cases h
    exact ⟨d, c, .here, ⟨Delimiters.opening_matches_iff.1 hopen, htag⟩, rfl⟩
  | refused d c t next fault hopen htag hafter =>
    rw [pieces_tag hopen htag, hafter] at h
    cases h
  | tag d d₁ c t next hopen htag hafter ih =>
    rw [pieces_tag hopen htag, hafter] at h ⊢
    obtain ⟨d', c', hpasses, hendless⟩ := ih h
    exact ⟨d', c', .tag (Delimiters.opening_matches_iff.1 hopen) htag hafter hpasses, hendless⟩

end Cursor

/-- Behind the tags `ts` of a template, none of them wrong, a tag opens under the delimiters `d'` in
force there and has no end; the search for it stops at `pos`. -/
structure BreaksOff (d : Delimiters) (template : String) (ts : List Tag) (d' : Delimiters)
    (pos : Nat) : Prop where
  fits : ∃ openers, OpenAfter ts openers
  reached : ∃ c, (Cursor.start template.toList).Passes d ts d' c ∧ c.AtEndlessTag d' pos

section

variable {d d' : Delimiters} {template : String} {ts : List Tag} {pos : Nat}

theorem BreaksOff.lastNamed (h : BreaksOff d template ts d' pos) : LastNamed d ts d' := by
  obtain ⟨-, c, hpasses, -⟩ := h
  exact (inForce_eq_ok_iff.1 hpasses.inForce).2

/-- A message about an unclosed tag is given where reading breaks off, and only there. -/
theorem parse_unclosedTag_iff {shown source : String} :
    parse d template = .error (.malformed ⟨.unclosedTag shown, pos, source⟩) ↔
      source = template ∧ ∃ ts d', BreaksOff d template ts d' pos ∧ shown = d'.shownClosing := by
  constructor
  · intro h
    cases firstFault_of_error h with
    | unclosedTag hopen _ hend =>
      obtain ⟨d', c, hpasses, hendless, hclosing⟩ := Cursor.exists_endless hend
      exact ⟨rfl, _, d', ⟨⟨_, hopen⟩, c, hpasses, hendless⟩, hclosing⟩
  · rintro ⟨rfl, ts, d', ⟨⟨openers, hopen⟩, c, hpasses, hendless⟩, rfl⟩
    obtain ⟨front, rfl, hpieces⟩ := hpasses.pieces
    have hwhole : Pieces.ofText d source = ⟨front, .unclosed d'.shownClosing pos⟩ := by
      rw [Pieces.ofText, hpieces, hendless.pieces, Pieces.behind, List.append_nil]
    rw [parse_eq_error_iff, hwhole]
    exact .inr ⟨openers, hopen, rfl⟩

end

/-- A message about an unclosed tag is given where reading breaks off, and only there, and it is
about the closing delimiter in force there, which the last tag with delimiters names, or which is
the initial one. The message shows that delimiter without its backslashes, and so as it is if it
has none. No delimiter is taken for the mark before it, and its regular expression does stand for
the delimiter itself; what loses backslashes is that all of them are left out. -/
theorem unclosed_tag_shows_closing (d : Delimiters) (template : String) :
    (∀ closing : List Char,
      Delimiters.dropBlankMarks (['\\', 's', '*'] ++ Delimiters.escapeMeta closing) =
        Delimiters.escapeMeta closing ∧
      Delimiters.literalText (Delimiters.escapeMeta closing) = closing ∧
      (Delimiters.escapeMeta closing).filter (· ≠ '\\') = closing.filter (· ≠ '\\')) ∧
    (∀ d' : Delimiters,
      d'.shownClosing.toList = d'.closing.toList.filter (· ≠ '\\') ∧
      (d'.shownClosing = d'.closing ↔ '\\' ∉ d'.closing.toList)) ∧
    ∀ shown pos source,
      parse d template = .error (.malformed ⟨.unclosedTag shown, pos, source⟩) ↔
        source = template ∧ ∃ ts d', BreaksOff d template ts d' pos ∧ LastNamed d ts d' ∧
          shown = d'.shownClosing := by
  refine ⟨fun closing => ?_, fun d' => ?_, fun shown pos source => ?_⟩
  · exact ⟨Delimiters.dropBlankMarks_escapeMeta closing, Delimiters.literalText_escapeMeta closing,
      Delimiters.filter_escapeMeta closing⟩
  · exact ⟨d'.shownClosing_toList, Delimiters.shownClosing_eq_iff⟩
  · rw [parse_unclosedTag_iff]
    constructor
    · rintro ⟨hsource, ts, d', hbreaks, hshown⟩
      exact ⟨hsource, ts, d', hbreaks, hbreaks.lastNamed, hshown⟩
    · rintro ⟨hsource, ts, d', hbreaks, -, hshown⟩
      exact ⟨hsource, ts, d', hbreaks, hshown⟩

/-- A tag changes the delimiters, and the new closing one looks like the mark for white space. -/
def markTag : String := "\x7b\x7bx\x7d\x7d\x7b\x7b=<% \\s*=\x7d\x7d<%a"

/-- The backslash of the new delimiter is not shown, the rest of it is. -/
theorem unclosed_tag_shows_closing_mark :
    parse .standard markTag = .error (.malformed ⟨.unclosedTag "s*", 20, markTag⟩) ∧
    ∃ ts d', BreaksOff .standard markTag ts d' 20 ∧ LastNamed .standard ts d' ∧
      d'.closing.toList.filter (· ≠ '\\') = "s*".toList := by
  have hparse : parse .standard markTag =
      .error (.malformed ⟨.unclosedTag "s*", 20, markTag⟩) := by decide +kernel
  obtain ⟨-, hshows, hmessage⟩ := unclosed_tag_shows_closing .standard markTag
  obtain ⟨-, ts, d', hbreaks, hlast, hshown⟩ := (hmessage _ _ _).1 hparse
  refine ⟨hparse, ts, d', hbreaks, hlast, ?_⟩
  rw [hshown, (hshows d').1]

/-- Delimiters of which the closing one has a backslash. -/
def backslashed : Delimiters := ⟨"<", "\\>", by decide, by decide⟩

/-- The message is about another delimiter than the one in force. -/
theorem backslash_not_shown :
    parse backslashed "<a" = .error (.malformed ⟨.unclosedTag ">", 2, "<a"⟩) ∧
    BreaksOff backslashed "<a" [] backslashed 2 ∧ ">" ≠ backslashed.closing := by
  have hendless : (Cursor.start "<a".toList).AtEndlessTag backslashed 2 :=
    ⟨by decide, by decide +kernel⟩
  exact ⟨by decide +kernel, ⟨⟨[], .balanced .nil⟩, _, .here, hendless⟩, by decide⟩

end TagTemplate
