import TagTemplate.Proofs.Template.Lines

/-!
# Squashed drafts

Texts that are neighbours become one text, from the left when a draft is squashed and from the
right in `joinTexts`. Main statement: `Draft.squash_eq`, a squashed draft is what is left of its
lines, joined.
-/

namespace TagTemplate

/-- A part in front of others; a text and the text it meets become one. -/
def Part.join (p : Part) (ps : List Part) : List Part :=
  match p, ps with
  | .text words start _, .text more _ stop :: ps => .text (words ++ more) start stop :: ps
  | p, ps => p :: ps

/-- Parts with texts that are neighbours joined. -/
def joinTexts : List Part → List Part
  | [] => []
  | p :: ps => p.join (joinTexts ps)

/-- What is left of a line: its tags, and its characters unless tags stand alone on it. -/
def keptParts (line : List Piece) : List Part :=
  (lineParts [] line).filter fun p => p.isTag || !standsAlone line

/-- The pieces as the parts to be nested. -/
def layout (ps : List Piece) : List Part := joinTexts ((pieceLines ps).flatMap keptParts)

/-! ## Joining from the left -/

theorem joinTexts_tag (t : Tag) (m : Margin) (ps : List Part) :
    joinTexts (.tag t m :: ps) = .tag t m :: joinTexts ps := by
  rw [joinTexts]
  rfl

/-- A change of parts that can be made before or after one is put in front of others. -/
theorem joinTexts_map {f : Part → Part}
    (hf : ∀ p ps, (f p).join (ps.map f) = (p.join ps).map f) (ps : List Part) :
    joinTexts (ps.map f) = (joinTexts ps).map f := by
  induction ps with
  | nil => rfl
  | cons p ps ih => rw [List.map_cons, joinTexts, joinTexts, ih, hf]

theorem joinTexts_text_tag (text : String) (start stop : Nat) (t : Tag) (m : Margin)
    (ps : List Part) :
    joinTexts (.text text start stop :: .tag t m :: ps) =
      .text text start stop :: joinTexts (.tag t m :: ps) := by
  rw [joinTexts, joinTexts_tag]
  rfl

theorem join_join (a b : String) (i j k l : Nat) (ps : List Part) :
    Part.join (.text a i j) (Part.join (.text b k l) ps) = Part.join (.text (a ++ b) i l) ps := by
  cases ps with
  | nil => rfl
  | cons p ps =>
    cases p with
    | text c m n => simp [Part.join, String.append_assoc]
    | tag t m => rfl

theorem joinTexts_text_text (a b : String) (i j k l : Nat) (ps : List Part) :
    joinTexts (.text a i j :: .text b k l :: ps) = joinTexts (.text (a ++ b) i l :: ps) := by
  simp only [joinTexts, join_join]

/-- Behind the latest part, joining from the left is joining from the right. -/
theorem foldl_squashPart (ps before : List Part) (p : Part) :
    (ps.foldl squashPart (p :: before)).reverse = before.reverse ++ joinTexts (p :: ps) := by
  -- `p` is the part that the next text may still join
  induction ps generalizing p before with
  | nil => simp [joinTexts, Part.join]
  | cons q ps ih =>
    rw [List.foldl_cons]
    cases q with
    | tag t m =>
      have hq : squashPart (p :: before) (.tag t m) = .tag t m :: p :: before := by
        cases p <;> rfl
      rw [hq, ih, List.reverse_cons, List.append_assoc]
      cases p with
      | text => rw [joinTexts_text_tag, List.singleton_append]
      | tag => rw [joinTexts_tag _ _ (.tag t m :: ps), List.singleton_append]
    | text b k l =>
      cases p with
      | tag t m =>
        rw [squashPart, ih, List.reverse_cons, List.append_assoc, List.singleton_append,
          ← joinTexts_tag]
        simp
      | text a i j => rw [squashPart, ih, joinTexts_text_text]

theorem foldl_squashPart_nil (ps : List Part) :
    (ps.foldl squashPart []).reverse = joinTexts ps := by
  cases ps with
  | nil => rfl
  | cons p ps =>
    have hp : squashPart [] p = [p] := by cases p <;> rfl
    rw [List.foldl_cons, hp, foldl_squashPart]
    rfl

/-! ## The draft of a template -/

theorem lineSlots_kept (line : List Piece) : (lineSlots line).filterMap id = keptParts line := by
  rw [lineSlots, keptParts, List.filterMap_map, ← List.filterMap_eq_filter]
  congr 1
  funext p
  by_cases halone : standsAlone line = true <;>
    simp [halone, Part.tagOnly, Option.guard]

theorem filterMap_lineSlots (lines : List (List Piece)) :
    (lines.flatMap lineSlots).filterMap id = lines.flatMap keptParts := by
  induction lines with
  | nil => rfl
  | cons line lines ih =>
    rw [List.flatMap_cons, List.filterMap_append, lineSlots_kept, ih, List.flatMap_cons]

/-- A squashed draft is the layout of the pieces drafted. -/
theorem Draft.squash_eq (ps : List Piece) :
    (Draft.strike (ps.foldl Draft.addPiece {})).squash = layout ps := by
  have hparts := Draft.parts_eq #[] ps
  rw [List.nil_append] at hparts
  rw [squash, ← Array.foldl_toList, hparts, layout, ← foldl_squashPart_nil, ← filterMap_lineSlots,
    List.foldl_filterMap]
  congr 2
  funext before slot
  cases slot <;> rfl

end TagTemplate
