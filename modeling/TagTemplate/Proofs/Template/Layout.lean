import Mathlib.Data.List.Basic
import TagTemplate.Proofs.Offset
import TagTemplate.Proofs.Template.Forest
import TagTemplate.Proofs.Template.Spelling

/-!
# Where the parts stand

The parts of a template stand one after the other, and a text directly behind a text starts where
that stops: what is struck out of a line always touches a tag, since only lines with tags are
stripped. Main statements: `laid_layout`, the layout of a template has its parts in place;
`characters_layout`, its texts hold the characters that are kept, one by one.
-/

namespace TagTemplate

def Piece.start : Piece → Nat
  | char _ start => start
  | tag t => t.start

/-- The pieces stand one behind the other, from a position on. -/
def Placed (source : List Char) (pos : Nat) : List Piece → Prop
  | [] => True
  | .char c start :: ps =>
    start = pos ∧ Stands source [c] pos ∧ Placed source (pos + c.utf8Size) ps
  | .tag t :: ps => t.start = pos ∧ t.start < t.stop ∧ Placed source t.stop ps

/-- The parts stand in order, from a position on, and a text at their head stands right there;
between a tag and the next part may be a gap. -/
inductive Laid (source : List Char) : Nat → List Part → Prop
  | nil {pos : Nat} : Laid source pos []
  | text {pos : Nat} {text : String} {ps : List Part} :
      text ≠ "" → Stands source text.toList pos →
      Laid source (pos + byteLength text.toList) ps →
      Laid source pos (.text text pos (pos + byteLength text.toList) :: ps)
  | tag {pos pos' : Nat} {t : Tag} {m : Margin} {ps : List Part} :
      pos ≤ t.start → t.start < t.stop → t.stop ≤ pos' → Laid source pos' ps →
      Laid source pos (.tag t m :: ps)

/-- The characters of a part, with their positions. -/
def Part.characters : Part → List Piece
  | text words start _ => charPieces start words.toList
  | tag .. => []

def keptCharacters (line : List Piece) : List Piece :=
  line.filter fun p => !p.isTag && !standsAlone line

/-! ## Pieces in place -/

theorem Cut.placed {d : Delimiters} {source cs : List Char} {pos : Nat} {ps : List Piece}
    (h : Cut d pos cs ps) (before : List Char) (hsource : source = before ++ cs)
    (hpos : byteLength before = pos) : Placed source pos ps := by
  induction h generalizing before with
  | nil => trivial
  | @char d pos c cs ps _ _ ih =>
    refine ⟨rfl, ⟨before, cs, hsource, hpos⟩, ih (before ++ [c]) ?_ ?_⟩
    · rw [hsource, List.append_assoc, List.singleton_append]
    · rw [byteLength_append, hpos]
      rfl
  | @tag d d' t lexeme cs ps hspells hstop _ _ ih =>
    have hlen := byteLength_pos hspells.ne_nil
    refine ⟨rfl, by omega, ih (before ++ lexeme) ?_ ?_⟩
    · rw [hsource, List.append_assoc]
    · rw [byteLength_append, hpos, hstop]

theorem Placed.behind {source : List Char} {pos : Nat} {a b : List Piece}
    (h : Placed source pos (a ++ b)) : ∃ pos', Placed source pos' b := by
  induction a generalizing pos with
  | nil => exact ⟨pos, h⟩
  | cons p a ih =>
    cases p with
    | char c start => exact ih h.2.2
    | tag t => exact ih h.2.2

/-- Pieces in place start one behind the other. -/
theorem Placed.rising {source : List Char} {pos : Nat} {ps : List Piece}
    (h : Placed source pos ps) :
    (∀ p ∈ ps, pos ≤ p.start) ∧ ps.Pairwise fun p q => p.start < q.start := by
  induction ps generalizing pos with
  | nil => exact ⟨by simp, .nil⟩
  | cons p ps ih =>
    cases p with
    | char c start =>
      obtain ⟨rfl, -, hps⟩ := h
      obtain ⟨hle, hpairs⟩ := ih hps
      have hsize := c.utf8Size_pos
      refine ⟨?_, List.pairwise_cons.2 ⟨fun q hq => ?_, hpairs⟩⟩
      · rintro q (_ | ⟨_, hq⟩)
        · exact le_rfl
        · exact le_trans (Nat.le_add_right ..) (hle q hq)
      · exact lt_of_lt_of_le (Nat.lt_add_of_pos_right hsize) (hle q hq)
    | tag t =>
      obtain ⟨rfl, hlt, hps⟩ := h
      obtain ⟨hle, hpairs⟩ := ih hps
      refine ⟨?_, List.pairwise_cons.2 ⟨fun q hq => lt_of_lt_of_le hlt (hle q hq), hpairs⟩⟩
      rintro q (_ | ⟨_, hq⟩)
      · exact le_rfl
      · exact le_trans hlt.le (hle q hq)

theorem Placed.nodup {source : List Char} {pos : Nat} {ps : List Piece}
    (h : Placed source pos ps) : ps.Nodup := by
  refine h.rising.2.imp fun hlt heq => ?_
  rw [heq] at hlt
  exact lt_irrefl _ hlt

/-! ## Lines in place -/

section

variable {source : List Char} {pos : Nat} {line rest : List Piece} {ps : List Part}

/-- All pieces of a line stay in place. -/
theorem laid_lineParts (before : List Piece) (h : Placed source pos (line ++ rest))
    (hrest : ∀ pos, Placed source pos rest → Laid source pos ps) :
    Laid source pos (lineParts before line ++ ps) := by
  induction line generalizing pos before with
  | nil => exact hrest pos h
  | cons p line ih =>
    cases p with
    | char c start =>
      obtain ⟨rfl, hc, hline⟩ := h
      have hlen : byteLength (String.singleton c).toList = c.utf8Size := by simp
      have hlaid := ih (.char c start :: before) hline
      rw [← hlen] at hlaid
      have htext := Laid.text (by simp) (by simpa using hc) hlaid
      rw [hlen] at htext
      exact htext
    | tag t =>
      obtain ⟨rfl, hlt, hline⟩ := h
      exact .tag le_rfl hlt le_rfl (ih (.tag t :: before) hline)

/-- The tags of a line stay in place without its characters. -/
theorem laid_tagParts (before : List Piece) (h : Placed source pos (line ++ rest))
    (hrest : ∀ pos, Placed source pos rest → Laid source pos ps) :
    ∃ pos' ≥ pos, Laid source pos' ((lineParts before line).filter Part.isTag ++ ps) := by
  induction line generalizing pos before with
  | nil => exact ⟨pos, le_rfl, hrest pos h⟩
  | cons p line ih =>
    cases p with
    | char c start =>
      obtain ⟨rfl, -, hline⟩ := h
      obtain ⟨pos', hle, hlaid⟩ := ih (.char c start :: before) hline
      exact ⟨pos', by omega, hlaid⟩
    | tag t =>
      obtain ⟨rfl, hlt, hline⟩ := h
      obtain ⟨pos', hle, hlaid⟩ := ih (.tag t :: before) hline
      exact ⟨t.start, le_rfl, .tag le_rfl hlt hle hlaid⟩

theorem filter_isTag_ne_nil (before : List Piece) (h : standsAlone line = true) :
    (lineParts before line).filter Part.isTag ≠ [] := by
  have hany := (Bool.and_eq_true_iff.1 h).1
  clear h
  induction line generalizing before with
  | nil => cases hany
  | cons p line ih =>
    cases p with
    | char c start => exact ih (.char c start :: before) hany
    | tag t => exact List.cons_ne_nil _ _

/-- Before a tag there may be a gap. -/
theorem Laid.tag_earlier {pos pos' : Nat} {front : List Part} (hle : pos ≤ pos')
    (hfront : ∀ p ∈ front, p.isTag = true) (hne : front ≠ [])
    (h : Laid source pos' (front ++ ps)) : Laid source pos (front ++ ps) := by
  cases front with
  | nil => exact absurd rfl hne
  | cons p front =>
    cases h with
    | text => cases hfront _ List.mem_cons_self
    | tag hstart hlt hstop hlaid => exact .tag (by omega) hlt hstop hlaid

theorem laid_keptParts (h : Placed source pos (line ++ rest))
    (hrest : ∀ pos, Placed source pos rest → Laid source pos ps) :
    Laid source pos (keptParts line ++ ps) := by
  rw [keptParts]
  by_cases halone : standsAlone line = true
  · simp only [halone, Bool.not_true, Bool.or_false]
    -- a stripped line has a tag, and in front of a tag may be a gap
    obtain ⟨pos', hle, hlaid⟩ := laid_tagParts [] h hrest
    exact hlaid.tag_earlier hle (fun p hp => (List.mem_filter.1 hp).2)
      (filter_isTag_ne_nil [] halone)
  · simp only [halone, Bool.not_false, Bool.or_true, List.filter_true]
    exact laid_lineParts [] h hrest

end

theorem laid_flatMap {source : List Char} {pos : Nat} {ps : List Piece}
    (h : Placed source pos ps) : Laid source pos ((pieceLines ps).flatMap keptParts) := by
  induction hlines : pieceLines ps generalizing ps pos with
  | nil => exact .nil
  | cons line more ih =>
    -- the next line starts wherever this one has left off
    obtain ⟨rest, rfl, hrest, -⟩ := pieceLines_eq_cons hlines
    rw [List.flatMap_cons]
    exact laid_keptParts h fun pos' hrest' => ih hrest' hrest

/-! ## Joined texts in place -/

theorem charPieces_append (start : Nat) (a b : List Char) :
    charPieces start (a ++ b) = charPieces start a ++ charPieces (start + byteLength a) b := by
  induction a generalizing start with
  | nil => rfl
  | cons c a ih =>
    rw [List.cons_append, charPieces, ih, byteLength_cons, ← Nat.add_assoc]
    rfl

/-- Joining a text to parts in place, which may start with a text, keeps the characters. -/
theorem Laid.join {source : List Char} {pos : Nat} {text : String} {ps : List Part}
    (hne : text ≠ "") (htext : Stands source text.toList pos)
    (h : Laid source (pos + byteLength text.toList) ps) :
    Laid source pos (Part.join (.text text pos (pos + byteLength text.toList)) ps) ∧
      (Part.join (.text text pos (pos + byteLength text.toList)) ps).flatMap Part.characters =
        charPieces pos text.toList ++ ps.flatMap Part.characters := by
  cases h with
  | nil => exact ⟨.text hne htext .nil, rfl⟩
  | tag hstart hlt hstop hlaid => exact ⟨.text hne htext (.tag hstart hlt hstop hlaid), rfl⟩
  | @text _ more ps _ hmore hlaid =>
    have hlen : pos + byteLength text.toList + byteLength more.toList =
        pos + byteLength (text ++ more).toList := by
      rw [String.toList_append, byteLength_append, Nat.add_assoc]
    rw [hlen] at hlaid
    refine ⟨?_, ?_⟩
    · rw [Part.join, hlen]
      refine .text ?_ ?_ hlaid
      · intro hempty
        exact hne (String.append_eq_empty_iff.1 hempty).1
      · rw [String.toList_append]
        exact htext.append hmore
    · rw [Part.join, List.flatMap_cons, List.flatMap_cons]
      simp only [Part.characters, String.toList_append, charPieces_append, List.append_assoc]

/-- Joining the texts of parts in place leaves them in place and keeps the characters. -/
theorem Laid.joinTexts {source : List Char} {pos : Nat} {ps : List Part} (h : Laid source pos ps) :
    Laid source pos (joinTexts ps) ∧
      (TagTemplate.joinTexts ps).flatMap Part.characters = ps.flatMap Part.characters := by
  induction h with
  | nil => exact ⟨.nil, rfl⟩
  | text hne htext _ ih =>
    obtain ⟨hlaid, hchars⟩ := ih
    have hjoin := Laid.join hne htext hlaid
    rw [hchars] at hjoin
    exact hjoin
  | tag hstart hlt hstop _ ih =>
    rw [joinTexts_tag]
    exact ⟨.tag hstart hlt hstop ih.1, ih.2⟩

theorem laid_layout {source : List Char} {pos : Nat} {ps : List Piece} (h : Placed source pos ps) :
    Laid source pos (layout ps) := (laid_flatMap h).joinTexts.1

/-- A text in place stands where it says. -/
theorem Laid.text_mem {source : List Char} {pos : Nat} {ps : List Part} (h : Laid source pos ps)
    {text : String} {start stop : Nat} (hmem : .text text start stop ∈ ps) :
    text ≠ "" ∧ Stands source text.toList start ∧ stop = start + byteLength text.toList := by
  induction h with
  | nil => cases hmem
  | text hne hstands _ ih =>
    rcases List.mem_cons.1 hmem with heq | hmem
    · cases heq
      exact ⟨hne, hstands, rfl⟩
    · exact ih hmem
  | tag _ _ _ _ ih =>
    rcases List.mem_cons.1 hmem with heq | hmem
    · cases heq
    · exact ih hmem

/-! ## Characters that are kept -/

theorem characters_lineParts (before line : List Piece) :
    (lineParts before line).flatMap Part.characters = line.filter (!·.isTag) := by
  induction line generalizing before with
  | nil => rfl
  | cons p line ih =>
    rw [lineParts, List.flatMap_cons, ih]
    cases p with
    | char c start => simp [Piece.part, Part.characters, charPieces, Piece.isTag]
    | tag t => rfl

theorem characters_keptParts (line : List Piece) :
    (keptParts line).flatMap Part.characters = keptCharacters line := by
  rw [keptParts, keptCharacters]
  by_cases halone : standsAlone line = true
  · simp only [halone, Bool.not_true, Bool.or_false, Bool.and_false, List.filter_false,
      List.flatMap_eq_nil_iff]
    intro p hp
    cases p with
    | text =>
      have htag := (List.mem_filter.1 hp).2
      cases htag
    | tag => rfl
  · simp only [halone, Bool.not_false, Bool.or_true, Bool.and_true, List.filter_true]
    exact characters_lineParts [] line

/-- The texts of the layout hold the characters that are kept, in their order. -/
theorem characters_layout {source : List Char} {pos : Nat} {ps : List Piece}
    (h : Placed source pos ps) :
    (layout ps).flatMap Part.characters = (pieceLines ps).flatMap keptCharacters := by
  rw [layout, (laid_flatMap h).joinTexts.2, List.flatMap_assoc]
  congr 1
  exact funext characters_keptParts

end TagTemplate
