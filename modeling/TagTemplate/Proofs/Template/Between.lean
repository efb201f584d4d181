import Mathlib.Data.List.DropRight
import TagTemplate.Proofs.Template.Firm
import TagTemplate.Proofs.Template.Reading

/-!
# Pieces between others

What is kept of pieces that stand between others depends on these only through the two lines that
they share with them. Main statements: `layout_eq_keptBetween`; `keptBetween_unmargined`, if what
the pieces have on these lines is firm, then they are kept as they are by themselves, up to the
margins on their first line.
-/

namespace TagTemplate

/-- The first line of some pieces, with its line feed. -/
def firstLine (ps : List Piece) : List Piece := (pieceLines ps).head?.getD []

/-- What stands behind the last line feed of some pieces. -/
def lastLine (ps : List Piece) : List Piece := ps.rtakeWhile fun p => !p.endsLine

/-- The pieces of a line behind one of them, the latest first. -/
def lineBehind (before : List Piece) (p : Piece) : List Piece :=
  if p.endsLine then [] else p :: before

/-- What is kept of pieces that stand between others; `before` are those before them on their line,
the latest first. -/
def keptBetween (before : List Piece) (ps after : List Piece) : List Part :=
  match ps with
  | [] => []
  | p :: ps =>
    let line := before.reverse ++ firstLine (p :: (ps ++ after))
    (if p.isTag || !standsAlone line then [p.part before] else []) ++
      keptBetween (lineBehind before p) ps after

/-- The part without its margin, if it is the tag of an inclusion that starts at one of these
positions. -/
def Part.unmargined (places : Nat → Bool) : Part → Part
  | text words start stop => text words start stop
  | tag t m => tag t (if places t.start then {} else m)

/-! ## First and last lines -/

theorem firstLine_cons (p : Piece) (ps : List Piece) :
    firstLine (p :: ps) = if p.endsLine then [p] else p :: firstLine ps := by
  rw [firstLine, pieceLines]
  split
  · rfl
  · rw [firstLine]
    cases pieceLines ps <;> rfl

theorem firstLine_append {a : List Piece} (ha : ∀ p ∈ a, p.endsLine = false) (b : List Piece) :
    firstLine (a ++ b) = a ++ firstLine b := by
  induction a with
  | nil => rfl
  | cons p a ih =>
    obtain ⟨hp, ha⟩ := List.forall_mem_cons.1 ha
    rw [List.cons_append, firstLine_cons, hp, ih ha]
    rfl

theorem firstLine_append_of_mem {a : List Piece} {p : Piece} (hp : p ∈ a)
    (hend : p.endsLine = true) (b : List Piece) : firstLine (a ++ b) = firstLine a := by
  induction a with
  | nil => cases hp
  | cons q a ih =>
    rw [List.cons_append, firstLine_cons, firstLine_cons]
    rcases List.mem_cons.1 hp with rfl | hp
    · rw [if_pos hend, if_pos hend]
    · rw [ih hp]

theorem firstLine_subset (a b : List Piece) : firstLine a ⊆ firstLine (a ++ b) := by
  induction a with
  | nil => exact List.nil_subset _
  | cons p a ih =>
    rw [List.cons_append, firstLine_cons, firstLine_cons]
    split
    · exact List.Subset.refl _
    · exact List.cons_subset_cons p ih

theorem lastLine_behind {p : Piece} (hp : p.endsLine = true) (a b : List Piece) :
    lastLine (a ++ p :: b) = lastLine b := by
  induction b using List.reverseRecOn generalizing a with
  | nil =>
    rw [lastLine, List.rtakeWhile_concat, hp]
    rfl
  | append_singleton b q ih =>
    rw [← List.cons_append, ← List.append_assoc, lastLine, List.rtakeWhile_concat, lastLine,
      List.rtakeWhile_concat]
    split
    · exact congrArg (· ++ [q]) (ih a)
    · rfl

theorem lastLine_eq_self {ps : List Piece} (h : ∀ p ∈ ps, p.endsLine = false) :
    lastLine ps = ps :=
  List.rtakeWhile_eq_self_iff.2 fun p hp => by simp [h p hp]

/-! ## Lines as they are kept -/

theorem keptBetween_append (before a b after : List Piece) :
    keptBetween before (a ++ b) after =
      keptBetween before a (b ++ after) ++ keptBetween (a.foldl lineBehind before) b after := by
  induction a generalizing before with
  | nil => rfl
  | cons p a ih =>
    rw [List.cons_append, keptBetween, ih, keptBetween, List.append_assoc, List.append_assoc]
    rfl

theorem keptBetween_tag (before : List Piece) (t : Tag) (ps after : List Piece) :
    keptBetween before (.tag t :: ps) after =
      .tag t (.behind before) :: keptBetween (.tag t :: before) ps after := by
  rw [keptBetween]
  rfl

theorem partTags_keptBetween (before ps after : List Piece) :
    partTags (keptBetween before ps after) = tagsOf ps := by
  induction ps generalizing before with
  | nil => rfl
  | cons p ps ih =>
    rw [keptBetween, partTags_append, ih]
    cases p with
    | tag t => rfl
    | char c start => split <;> rfl

/-- A stretch of one line. -/
theorem keptBetween_line {seg : List Piece} (hseg : ∀ p ∈ seg.dropLast, p.endsLine = false)
    (before after : List Piece) :
    keptBetween before seg after = (lineParts before seg).filter fun q =>
      q.isTag || !standsAlone (before.reverse ++ firstLine (seg ++ after)) := by
  induction seg generalizing before with
  | nil => rfl
  | cons p seg ih =>
    rw [keptBetween, lineParts, List.filter_cons, Piece.part_isTag]
    by_cases hnil : seg = []
    · subst hnil
      rw [keptBetween, lineParts, List.append_nil]
      rfl
    · rw [List.dropLast_cons_of_ne_nil hnil, List.forall_mem_cons] at hseg
      obtain ⟨hp, hseg⟩ := hseg
      have hline : before.reverse ++ firstLine (p :: (seg ++ after)) =
          (p :: before).reverse ++ firstLine (seg ++ after) := by
        rw [firstLine_cons, hp]
        simp
      rw [lineBehind, hp, if_neg Bool.false_ne_true, ih hseg, List.cons_append, hline]
      split <;> rfl

theorem keptBetween_eq_flatMap (ps : List Piece) :
    keptBetween [] ps [] = (pieceLines ps).flatMap keptParts := by
  induction hlines : pieceLines ps generalizing ps with
  | nil =>
    rw [pieceLines_eq_nil hlines]
    rfl
  | cons line more ih =>
    obtain ⟨rest, rfl, hrest, ⟨front, p, rfl, hp, hfront⟩ | ⟨-, rfl, hline⟩⟩ :=
      pieceLines_eq_cons hlines
    · have hseg : ∀ q ∈ (front ++ [p]).dropLast, q.endsLine = false := by simpa using hfront
      have hfirst : firstLine (front ++ [p] ++ rest) = front ++ [p] := by
        rw [List.append_assoc, firstLine_append hfront, List.singleton_append, firstLine_cons,
          if_pos hp]
      have hbehind : (front ++ [p]).foldl lineBehind [] = [] := by
        rw [List.foldl_append, List.foldl_cons, List.foldl_nil, lineBehind, if_pos hp]
      rw [keptBetween_append, hbehind, ih rest hrest, List.append_nil, keptBetween_line hseg,
        hfirst, List.flatMap_cons]
      rfl
    · -- the last line, with no line feed
      obtain rfl : more = [] := hrest.symm
      have hseg : ∀ q ∈ line.dropLast, q.endsLine = false :=
        fun q hq => hline q (List.dropLast_subset _ hq)
      rw [List.append_nil, keptBetween_line hseg, firstLine_append hline, List.flatMap_singleton]
      simp [firstLine, pieceLines, keptParts]

/-- The layout of pieces that stand between no others. -/
theorem layout_eq_keptBetween (ps : List Piece) : layout ps = joinTexts (keptBetween [] ps []) := by
  rw [layout, keptBetween_eq_flatMap]

/-! ## Firm stretches of the two shared lines -/

/-- What stands behind does not matter if the last line is firm. -/
theorem keptBetween_after {before ps : List Piece} (hlast : Firm (lastLine (before.reverse ++ ps)))
    (hbefore : ∀ p ∈ before, p.endsLine = false) (after : List Piece) :
    keptBetween before ps after = keptBetween before ps [] := by
  induction ps generalizing before with
  | nil => rfl
  | cons p ps ih =>
    have hkept : (p.isTag || !standsAlone (before.reverse ++ firstLine (p :: (ps ++ after)))) =
        (p.isTag || !standsAlone (before.reverse ++ firstLine (p :: (ps ++ [])))) := by
      rw [← List.cons_append, ← List.cons_append]
      by_cases hend : ∃ q ∈ p :: ps, q.endsLine = true
      · obtain ⟨q, hq, hend⟩ := hend
        rw [firstLine_append_of_mem hq hend, firstLine_append_of_mem hq hend]
      · -- without a line feed, all of the line is firm
        have hnone : ∀ q ∈ p :: ps, q.endsLine = false := by simpa using hend
        have hall : ∀ q ∈ before.reverse ++ p :: ps, q.endsLine = false :=
          List.forall_mem_append.2 ⟨fun q hq => hbefore q (List.mem_reverse.1 hq), hnone⟩
        rw [lastLine_eq_self hall] at hlast
        have hkept (more : List Piece) :
            (p.isTag || !standsAlone (before.reverse ++ firstLine (p :: ps ++ more))) = true := by
          rw [firstLine_append hnone, ← List.append_assoc]
          exact hlast.kept (List.subset_append_left _ _) (by simp)
        rw [hkept, hkept]
    rw [keptBetween, keptBetween, hkept]
    refine congrArg _ (ih ?_ ?_)
    · rw [lineBehind]
      split
      · next hp => rwa [lastLine_behind hp] at hlast
      · rwa [List.reverse_cons, List.append_assoc]
    · rw [lineBehind]
      split
      · exact fun q hq => nomatch hq
      · next hp => exact List.forall_mem_cons.2 ⟨by simpa using hp, hbefore⟩

/-- What stands before does not matter if the first line is firm, except for the margins on this
line. -/
theorem keptBetween_before {inner ps : List Piece} (hfirst : Firm (inner.reverse ++ firstLine ps))
    {places : Nat → Bool} (hplaces : ∀ t, .tag t ∈ firstLine ps → places t.start = true)
    (outer after : List Piece) :
    (keptBetween (inner ++ outer) ps after).map (Part.unmargined places) =
      (keptBetween inner ps after).map (Part.unmargined places) := by
  induction ps generalizing inner with
  | nil => rfl
  | cons p ps ih =>
    have hpart :
        (p.part (inner ++ outer)).unmargined places = (p.part inner).unmargined places := by
      cases p with
      | char c start => rfl
      | tag t =>
        have ht : places t.start = true := hplaces t (by rw [firstLine_cons]; split <;> simp)
        rw [Piece.part, Piece.part, Part.unmargined, Part.unmargined, if_pos ht, if_pos ht]
    have hp : p ∈ inner.reverse ++ firstLine (p :: ps) := by
      rw [firstLine_cons]
      split <;> simp
    have hline : firstLine (p :: ps) ⊆ firstLine (p :: (ps ++ after)) :=
      firstLine_subset (p :: ps) after
    have hkept :
        (p.isTag || !standsAlone (inner.reverse ++ firstLine (p :: (ps ++ after)))) = true :=
      hfirst.kept (List.append_subset.2 ⟨List.subset_append_left _ _,
        fun q hq => List.mem_append_right _ (hline hq)⟩) hp
    have hkept' : (p.isTag || !standsAlone ((inner ++ outer).reverse ++
        firstLine (p :: (ps ++ after)))) = true := by
      refine hfirst.kept (fun q hq => ?_) hp
      rcases List.mem_append.1 hq with hq | hq
      · simp [List.mem_reverse.1 hq]
      · exact List.mem_append_right _ (hline hq)
    simp only [keptBetween, hkept, hkept', if_true, List.map_append, List.map_cons, List.map_nil,
      hpart]
    by_cases hend : p.endsLine = true
    · rw [lineBehind, lineBehind, if_pos hend, if_pos hend]
    · rw [firstLine_cons, if_neg hend] at hfirst hplaces
      rw [lineBehind, lineBehind, if_neg hend, if_neg hend, ← List.cons_append, ih]
      · rwa [List.reverse_cons, List.append_assoc]
      · exact fun t ht => hplaces t (List.mem_cons_of_mem _ ht)

/-- Pieces with firm first and last lines are kept between others as they are by themselves, except
for the margins on the first line. -/
theorem keptBetween_unmargined {ps : List Piece} (hfirst : Firm (firstLine ps))
    (hlast : Firm (lastLine ps)) {places : Nat → Bool}
    (hplaces : ∀ t, .tag t ∈ firstLine ps → places t.start = true) (before after : List Piece) :
    (keptBetween before ps after).map (Part.unmargined places) =
      (keptBetween [] ps []).map (Part.unmargined places) := by
  have hbefore := @keptBetween_before [] ps hfirst places hplaces before after
  rw [List.nil_append] at hbefore
  have hafter := @keptBetween_after [] ps hlast (fun _ h => nomatch h) after
  rw [hbefore, hafter]

end TagTemplate
