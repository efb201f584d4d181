import TagTemplate.Proofs.Number.Magnitude
import Mathlib.Algebra.Order.Field.Power

/-!
# The grids of decimals

The decimals of one exponent form a grid, and the search for the shortest decimal goes over the
grids. Main statements, for an interval around a value: `Proper.onGrid?_closest`, the answer on a
grid is a point of the interval, and none is closer to the value; `Proper.onGrid?_none`, without an
answer no point of the grid is in the interval; `coarsest_eq`, the search takes the coarsest grid
with an answer.
-/

namespace TagTemplate

namespace Binary64.Neighbourhood

/-! ## The interval -/

/-- The exact value of a double, as a number. -/
def centre (n : Neighbourhood) : ℚ := n.value / twoTo (unitExponent + 2)

/-- The value is inside the interval. -/
structure Proper (n : Neighbourhood) : Prop where
  above : n.lower < n.value
  below : n.value < n.upper

/-- The points of the interval lie together. -/
theorem Contains.convex {n : Neighbourhood} {a b c : ℚ} (ha : n.Contains a) (hc : n.Contains c)
    (hab : a ≤ b) (hbc : b ≤ c) : n.Contains b := by
  have hquarter : (0 : ℚ) ≤ twoTo (unitExponent + 2) := Nat.cast_nonneg _
  have hab' := mul_le_mul_of_nonneg_right hab hquarter
  have hbc' := mul_le_mul_of_nonneg_right hbc hquarter
  unfold Contains at *
  split at ha
  · next hclosed =>
    rw [if_pos hclosed] at hc ⊢
    exact ⟨ha.1.trans hab', hbc'.trans hc.2⟩
  · next hopen =>
    rw [if_neg hopen] at hc ⊢
    exact ⟨ha.1.trans_le hab', hbc'.trans_lt hc.2⟩

theorem quarter_pos : (0 : ℚ) < twoTo (unitExponent + 2) := Nat.cast_pos.2 (twoTo_pos _)

theorem centre_mul (n : Neighbourhood) : n.centre * twoTo (unitExponent + 2) = n.value :=
  div_mul_cancel₀ _ quarter_pos.ne'

theorem Proper.contains_centre {n : Neighbourhood} (h : n.Proper) : n.Contains n.centre := by
  have habove : (n.lower : ℚ) < n.value := Nat.cast_lt.2 h.above
  have hbelow : (n.value : ℚ) < n.upper := Nat.cast_lt.2 h.below
  unfold Contains
  rw [centre_mul]
  split
  · exact ⟨habove.le, hbelow.le⟩
  · exact ⟨habove, hbelow⟩

/-- A scaled point is in the interval if the number it stands for is. -/
theorem holds_iff (n : Neighbourhood) {factor point : Nat} (hfactor : 0 < factor) {q : ℚ}
    (hpoint : q * twoTo (unitExponent + 2) * factor = point) :
    n.holds factor point = true ↔ n.Contains q := by
  have hscale : (0 : ℚ) < factor := Nat.cast_pos.2 hfactor
  have hle : ∀ end' : Nat, end' * factor ≤ point ↔ (end' : ℚ) ≤ q * twoTo (unitExponent + 2) :=
    fun end' => by
      rw [← Nat.cast_le (α := ℚ), ← hpoint, Nat.cast_mul, mul_le_mul_iff_left₀ hscale]
  have hge : ∀ end' : Nat, point ≤ end' * factor ↔ q * twoTo (unitExponent + 2) ≤ (end' : ℚ) :=
    fun end' => by
      rw [← Nat.cast_le (α := ℚ), ← hpoint, Nat.cast_mul, mul_le_mul_iff_left₀ hscale]
  unfold holds Contains
  split
  · rw [Bool.and_eq_true, decide_eq_true_eq, decide_eq_true_eq, hle, hge]
  · rw [Bool.and_eq_true, decide_eq_true_eq, decide_eq_true_eq, ← Nat.not_le, ← Nat.not_le, hle,
      hge, not_le, not_le]

/-! ## Points of a grid -/

/-- A point of the grid `10 ^ (i - gridOffset)`. -/
def gridPoint (i c : Nat) : ℚ := c * 10 ^ ((i : Int) - gridOffset)

/-- The last point of a grid that is not above the value. -/
def gridBelow (n : Neighbourhood) (i : Nat) : Nat :=
  n.value * tenTo gridOffset / (tenTo i * twoTo (unitExponent + 2))

theorem gridPoint_mono {i c c' : Nat} (h : c ≤ c') : gridPoint i c ≤ gridPoint i c' :=
  mul_le_mul_of_nonneg_right (Nat.cast_le.2 h) (zpow_nonneg (by norm_num) _)

theorem gridPoint_scaled (i c : Nat) :
    gridPoint i c * twoTo (unitExponent + 2) * tenTo gridOffset =
      (c * (tenTo i * twoTo (unitExponent + 2)) : Nat) := by
  have hshift : (10 : ℚ) ^ ((i : Int) - gridOffset) * tenTo gridOffset = tenTo i := by
    rw [cast_tenTo, cast_tenTo, ← zpow_natCast, ← zpow_natCast, ← zpow_add₀ (by norm_num),
      sub_add_cancel]
  calc gridPoint i c * twoTo (unitExponent + 2) * tenTo gridOffset
      = c * (10 ^ ((i : Int) - gridOffset) * tenTo gridOffset) * twoTo (unitExponent + 2) := by
        unfold gridPoint
        ring
    _ = c * tenTo i * twoTo (unitExponent + 2) := by rw [hshift]
    _ = (c * (tenTo i * twoTo (unitExponent + 2)) : Nat) := by
        push_cast
        ring

theorem holds_gridPoint (n : Neighbourhood) (i c : Nat) :
    n.holds (tenTo gridOffset) (c * (tenTo i * twoTo (unitExponent + 2))) = true ↔
      n.Contains (gridPoint i c) :=
  n.holds_iff (tenTo_pos gridOffset) (gridPoint_scaled i c)

theorem centre_scaled (n : Neighbourhood) :
    n.centre * twoTo (unitExponent + 2) * tenTo gridOffset = (n.value * tenTo gridOffset : Nat) := by
  rw [centre_mul, Nat.cast_mul]

/-- The factor by which everything is scaled. -/
theorem scaled_pos : (0 : ℚ) < twoTo (unitExponent + 2) * tenTo gridOffset :=
  mul_pos quarter_pos (Nat.cast_pos.2 (tenTo_pos gridOffset))

theorem gridBelow_le (n : Neighbourhood) (i : Nat) : gridPoint i (n.gridBelow i) ≤ n.centre := by
  refine le_of_mul_le_mul_right ?_ scaled_pos
  rw [← mul_assoc, ← mul_assoc, gridPoint_scaled, centre_scaled, Nat.cast_le]
  exact Nat.div_mul_le_self ..

theorem lt_gridBelow_succ (n : Neighbourhood) (i : Nat) :
    n.centre < gridPoint i (n.gridBelow i + 1) := by
  refine lt_of_mul_lt_mul_right ?_ scaled_pos.le
  rw [← mul_assoc, ← mul_assoc, gridPoint_scaled, centre_scaled, Nat.cast_lt]
  rw [Nat.add_mul, Nat.one_mul]
  exact Nat.lt_div_mul_add (Nat.mul_pos (tenTo_pos i) (twoTo_pos _))

/-- The point above the value is no farther than the one below. -/
theorem nearer_above_iff (n : Neighbourhood) (i : Nat) :
    tenTo i * twoTo (unitExponent + 2) ≤
        2 * (n.value * tenTo gridOffset % (tenTo i * twoTo (unitExponent + 2))) ↔
      gridPoint i (n.gridBelow i + 1) - n.centre ≤ n.centre - gridPoint i (n.gridBelow i) := by
  have hsplit := Nat.div_add_mod' (n.value * tenTo gridOffset)
    (tenTo i * twoTo (unitExponent + 2))
  have hcast : ((n.gridBelow i * (tenTo i * twoTo (unitExponent + 2)) : Nat) : ℚ) +
      (n.value * tenTo gridOffset % (tenTo i * twoTo (unitExponent + 2)) : Nat) =
      (n.value * tenTo gridOffset : Nat) := by
    rw [← Nat.cast_add]
    exact congrArg Nat.cast hsplit
  rw [← mul_le_mul_iff_left₀ scaled_pos, sub_mul, sub_mul, ← mul_assoc, ← mul_assoc, ← mul_assoc,
    gridPoint_scaled, gridPoint_scaled, centre_scaled, ← Nat.cast_le (α := ℚ), ← hcast]
  push_cast
  constructor <;> intro h <;> linarith

section

variable {n : Neighbourhood} {i : Nat}

/-- An answer on a grid is a point next to the value, the nearer one if both are in the
interval. -/
theorem onGrid?_eq_some {c : Nat} (h : n.onGrid? i = some c) :
    n.Contains (gridPoint i c) ∧
      (c = n.gridBelow i + 1 ∧ (n.Contains (gridPoint i (n.gridBelow i)) →
          gridPoint i c - n.centre ≤ n.centre - gridPoint i (n.gridBelow i)) ∨
        c = n.gridBelow i ∧ (n.Contains (gridPoint i (n.gridBelow i + 1)) →
          n.centre - gridPoint i c ≤ gridPoint i (n.gridBelow i + 1) - n.centre)) := by
  have habove := holds_gridPoint n i (n.gridBelow i + 1)
  have hbelow := holds_gridPoint n i (n.gridBelow i)
  have hnearer := nearer_above_iff n i
  unfold onGrid? at h
  dsimp only at h
  rw [← gridBelow] at h
  split at h
  · next hcond =>
    obtain rfl := Option.some.inj h
    rw [Bool.and_eq_true, Bool.or_eq_true, Bool.not_eq_true', decide_eq_true_eq] at hcond
    refine ⟨habove.1 hcond.1, .inl ⟨rfl, fun hcontains => ?_⟩⟩
    rcases hcond.2 with hno | hstep
    · exact absurd (hbelow.2 hcontains) (Bool.not_eq_true _ ▸ hno)
    · exact hnearer.1 hstep
  · next hcond =>
    split at h
    · next hholds =>
      obtain rfl := Option.some.inj h
      rw [Bool.and_eq_true, Bool.or_eq_true, decide_eq_true_eq, not_and, not_or] at hcond
      refine ⟨hbelow.1 hholds, .inr ⟨rfl, fun hcontains => ?_⟩⟩
      have hfar := mt hnearer.2 (hcond (habove.2 hcontains)).2
      linarith
    · exact nomatch h

theorem onGrid?_eq_none (h : n.onGrid? i = none) :
    ¬n.Contains (gridPoint i (n.gridBelow i)) ∧
      ¬n.Contains (gridPoint i (n.gridBelow i + 1)) := by
  have habove := holds_gridPoint n i (n.gridBelow i + 1)
  have hbelow := holds_gridPoint n i (n.gridBelow i)
  unfold onGrid? at h
  dsimp only at h
  rw [← gridBelow] at h
  split at h
  · exact nomatch h
  · next hcond =>
    split at h
    · exact nomatch h
    · next hno =>
      refine ⟨mt hbelow.2 hno, fun hcontains => hcond ?_⟩
      rw [habove.2 hcontains, Bool.eq_false_iff.2 hno]
      rfl

variable (hproper : n.Proper)
include hproper

/-- A point in the interval has one next to the value at most as far from it. -/
theorem Proper.contains_next {c : Nat} (hc : n.Contains (gridPoint i c)) :
    n.Contains (gridPoint i (n.gridBelow i)) ∧ gridPoint i c ≤ gridPoint i (n.gridBelow i) ∨
      n.Contains (gridPoint i (n.gridBelow i + 1)) ∧
        gridPoint i (n.gridBelow i + 1) ≤ gridPoint i c := by
  rcases Nat.lt_or_ge (n.gridBelow i) c with hlt | hle
  · have hle := gridPoint_mono (i := i) (Nat.succ_le_of_lt hlt)
    exact .inr ⟨hproper.contains_centre.convex hc (n.lt_gridBelow_succ i).le hle, hle⟩
  · have hle := gridPoint_mono (i := i) hle
    exact .inl ⟨hc.convex hproper.contains_centre hle (n.gridBelow_le i), hle⟩

theorem Proper.onGrid?_closest {c c' : Nat} (h : n.onGrid? i = some c)
    (hc : n.Contains (gridPoint i c')) :
    |gridPoint i c - n.centre| ≤ |gridPoint i c' - n.centre| := by
  have hbelow := n.gridBelow_le i
  have habove := n.lt_gridBelow_succ i
  have hnext := hproper.contains_next hc
  rcases (onGrid?_eq_some h).2 with ⟨rfl, hnearer⟩ | ⟨rfl, hnearer⟩
  · rw [abs_of_pos (by linarith)]
    rcases hnext with ⟨hcontains, hfar⟩ | ⟨-, hfar⟩
    · have hnear := hnearer hcontains
      rw [abs_of_nonpos (by linarith)]
      linarith
    · rw [abs_of_pos (by linarith)]
      linarith
  · rw [abs_of_nonpos (by linarith)]
    rcases hnext with ⟨-, hfar⟩ | ⟨hcontains, hfar⟩
    · rw [abs_of_nonpos (by linarith)]
      linarith
    · have hnear := hnearer hcontains
      rw [abs_of_pos (by linarith)]
      linarith

theorem Proper.onGrid?_none {c : Nat} (h : n.onGrid? i = none) :
    ¬n.Contains (gridPoint i c) := by
  intro hc
  obtain ⟨hbelow, habove⟩ := onGrid?_eq_none h
  rcases hproper.contains_next hc with ⟨hcontains, -⟩ | ⟨hcontains, -⟩
  · exact hbelow hcontains
  · exact habove hcontains

omit hproper in
/-- The search takes the coarsest grid with an answer, if there is one. -/
theorem coarsest_eq {k : Nat} (hi : i < k) (hsome : (n.onGrid? i).isSome = true) :
    ∃ j c, j < k ∧ n.onGrid? j = some c ∧ n.coarsest k = ⟨c, (j : Int) - gridOffset⟩ ∧
      ∀ j', j < j' → j' < k → n.onGrid? j' = none := by
  induction k with
  | zero => exact absurd hi (Nat.not_lt_zero i)
  | succ k ih =>
    cases hlast : n.onGrid? k with
    | some c =>
      refine ⟨k, c, Nat.lt_succ_self k, hlast, ?_, fun j' hlt hle => absurd hle (by omega)⟩
      rw [coarsest, hlast]
    | none =>
      have hne : i ≠ k := by
        rintro rfl
        rw [hlast] at hsome
        exact nomatch hsome
      obtain ⟨j, c, hj, hfound, hcoarsest, hnone⟩ := ih (by omega)
      refine ⟨j, c, Nat.lt_succ_of_lt hj, hfound, ?_, fun j' hlt hle => ?_⟩
      · rw [coarsest, hlast]
        exact hcoarsest
      · rcases Nat.lt_or_eq_of_le (Nat.le_of_lt_succ hle) with hbefore | rfl
        · exact hnone j' hlt hbefore
        · exact hlast

end

end Binary64.Neighbourhood

end TagTemplate
