import Mathlib.Data.List.Forall2
import TagTemplate.Proofs.Template.Conservation

/-!
# Lines that keep their white space

White space is struck out of a line only if the line shows nothing else. Main statements:
`keptParts_firm`, all pieces of a line are kept if it is firm or has no tag; `joinTexts_append_tag`,
a tag keeps apart the texts on its two sides.
-/

namespace TagTemplate

/-- A character that is white space. -/
def Piece.isSpace : Piece → Bool
  | char c _ => isBlank c
  | tag _ => false

/-- If some of the pieces are white space, then others are a character that is not, or a tag that
writes a value. -/
def Firm (line : List Piece) : Prop :=
  (∃ p ∈ line, p.isSpace = true) → ∃ p ∈ line, p.isInvisible = false

instance (line : List Piece) : Decidable (Firm line) := inferInstanceAs (Decidable (_ → _))

/-- Every line with a tag is firm. A line holds the line feed that ends it, which is white space. -/
def FirmLines (ps : List Piece) : Prop :=
  ∀ line, IsLine ps line → (∃ p ∈ line, p.isTag = true) → Firm line

theorem firmLines_iff {ps : List Piece} :
    FirmLines ps ↔ ∀ line ∈ pieceLines ps, (∃ p ∈ line, p.isTag = true) → Firm line :=
  forall_congr' fun _ => imp_congr_left mem_pieceLines_iff.symm

instance (ps : List Piece) : Decidable (FirmLines ps) := decidable_of_iff _ firmLines_iff.symm

/-! ## Parts of pieces -/

/-- The part is the piece, with whatever margin. -/
def IsPartOf (p : Piece) (q : Part) : Prop := ∃ before, q = p.part before

theorem lineParts_isPartOf (before line : List Piece) :
    List.Forall₂ IsPartOf line (lineParts before line) := by
  induction line generalizing before with
  | nil => exact .nil
  | cons p line ih => exact .cons ⟨before, rfl⟩ (ih (p :: before))

theorem mem_lineParts {before line : List Piece} {q : Part} (h : q ∈ lineParts before line) :
    ∃ p ∈ line, IsPartOf p q := by
  induction line generalizing before with
  | nil => cases h
  | cons p line ih =>
    rcases List.mem_cons.1 h with rfl | h
    · exact ⟨p, List.mem_cons_self, before, rfl⟩
    · obtain ⟨p', hp', hpart⟩ := ih h
      exact ⟨p', List.mem_cons_of_mem p hp', hpart⟩

theorem Piece.part_isTag (before : List Piece) (p : Piece) : (p.part before).isTag = p.isTag := by
  cases p <;> rfl

/-- A firm stretch of a line shows something where it has white space, so it has no characters if
tags stand alone on the line. -/
theorem Firm.kept {seg line : List Piece} (h : Firm seg) (hline : seg ⊆ line) {p : Piece}
    (hp : p ∈ seg) : (p.isTag || !standsAlone line) = true := by
  by_cases halone : standsAlone line = true
  · have hinvisible := List.all_eq_true.1 (Bool.and_eq_true_iff.1 halone).2
    cases p with
    | tag t => rfl
    | char c start =>
      obtain ⟨q, hq, hshows⟩ := h ⟨_, hp, hinvisible _ (hline hp)⟩
      rw [hinvisible q (hline hq)] at hshows
      cases hshows
  · simp [halone]

/-- A line that is firm, or has no tag, is kept as it is. -/
theorem keptParts_firm {line : List Piece} (h : (∃ p ∈ line, p.isTag = true) → Firm line) :
    keptParts line = lineParts [] line := by
  rw [keptParts, List.filter_eq_self]
  intro q hq
  obtain ⟨p, hp, before, rfl⟩ := mem_lineParts hq
  rw [Piece.part_isTag]
  by_cases halone : standsAlone line = true
  · have hfirm : Firm line := h (List.any_eq_true.1 (Bool.and_eq_true_iff.1 halone).1)
    exact hfirm.kept (List.Subset.refl _) hp
  · simp [halone]

/-- If all lines with tags are firm, then the layout holds all pieces. -/
theorem layout_firm {ps : List Piece} (h : FirmLines ps) :
    ∃ qs, List.Forall₂ IsPartOf ps qs ∧ layout ps = joinTexts qs := by
  have hkept {lines : List (List Piece)}
      (hlines : ∀ line ∈ lines, (∃ p ∈ line, p.isTag = true) → Firm line) :
      List.Forall₂ IsPartOf lines.flatten (lines.flatMap keptParts) := by
    induction lines with
    | nil => exact .nil
    | cons line lines ih =>
      obtain ⟨hline, hlines⟩ := List.forall_mem_cons.1 hlines
      rw [List.flatten_cons, List.flatMap_cons, keptParts_firm hline]
      exact List.rel_append (lineParts_isPartOf [] line) (ih hlines)
  have hall := hkept (firmLines_iff.1 h)
  rw [pieceLines_flatten] at hall
  exact ⟨_, hall, rfl⟩

/-! ## Texts on the two sides of a tag -/

theorem Part.join_append_tag (p : Part) (ps : List Part) (t : Tag) (m : Margin) (qs : List Part) :
    p.join (ps ++ .tag t m :: qs) = p.join ps ++ .tag t m :: qs := by
  cases ps with
  | nil => cases p <;> rfl
  | cons q ps => cases p <;> cases q <;> rfl

/-- Texts are not joined over a tag. -/
theorem joinTexts_append_tag (ps : List Part) (t : Tag) (m : Margin) (qs : List Part) :
    joinTexts (ps ++ .tag t m :: qs) = joinTexts ps ++ .tag t m :: joinTexts qs := by
  induction ps with
  | nil => exact joinTexts_tag t m qs
  | cons p ps ih => rw [List.cons_append, joinTexts, ih, Part.join_append_tag, joinTexts]

end TagTemplate
