import TagTemplate.Number.Display
import TagTemplate.Proofs.Number.Digits
import TagTemplate.Proofs.Number.Grid

/-!
# Shortest decimals

What the search over the grids finds. Main statements: `shortestOf_coarsest`, it is rounded to the
double, and no decimal with a larger exponent is; `Coarsest.shortestDecimal`, hence no decimal with
fewer digits is, and none with as many digits is closer; `Coarsest.value_eq_natCast`, for an integer
below `2 ^ 53` it is exact. A power of ten between two decimals would be on a coarser grid, so
almost any other decimal that is rounded to the double has more digits, or is on the same grid.
-/

namespace TagTemplate

/-- The number that a decimal stands for. -/
def Decimal.value (d : Decimal) : ℚ := d.coefficient * 10 ^ d.exponent

/-- Zeros behind the digits raise the exponent. -/
theorem append_zeros_value (c zeros : Nat) (e : Int) :
    ((c * 10 ^ zeros : Nat) : ℚ) * 10 ^ e = c * 10 ^ (e + zeros) := by
  rw [add_comm, zpow_add₀ (by norm_num), zpow_natCast, ← mul_assoc, Nat.cast_mul, Nat.cast_pow,
    Nat.cast_ofNat]

namespace Binary64

/-! ## The coarsest grid -/

section

variable {m : Nat} {q : ℚ}

/-- Only positive numbers are rounded to a positive double. -/
theorem Between.pos (h : Between (q * twoTo unitExponent) m) (hm : 0 < m) : 0 < q := by
  have hself : (0 : ℚ) < unitsOf (m - 1) + unitsOf m := by
    have hlt := unitsOf_lt_cast (show m - 1 < m by omega)
    have hle : (0 : ℚ) ≤ unitsOf (m - 1) := Nat.cast_nonneg _
    linarith
  refine pos_of_mul_pos_left ?_ unit_pos.le
  rcases h.lower hm with hlower | ⟨hlower, -⟩ <;> linarith

/-- Only numbers up to a power of two are rounded to a finite double. -/
theorem Between.le_limit (h : Between (q * twoTo unitExponent) m) (hm : m < infinityBits) :
    q ≤ twoTo 1024 := by
  have hself := unitsOf_le_cast hm.le
  have hnext := unitsOf_le_cast (Nat.succ_le_of_lt hm)
  have hlimit : (unitsOf infinityBits : ℚ) = twoTo 1024 * twoTo unitExponent := by
    rw [unitsOf_infinityBits, Nat.cast_mul]
  refine le_of_mul_le_mul_right ?_ unit_pos
  rcases h.upper with hupper | ⟨hupper, -⟩ <;> linarith

theorem Between.convex {a b c : ℚ} (ha : Between a m) (hc : Between c m) (hab : a ≤ b)
    (hbc : b ≤ c) : Between b m where
  lower hm := by
    rcases ha.lower hm with hlower | ⟨hlower, heven⟩
    · exact .inl (by linarith)
    · rcases lt_or_eq_of_le hab with hlt | rfl
      · exact .inl (by linarith)
      · exact .inr ⟨hlower, heven⟩
  upper := by
    rcases hc.upper with hupper | ⟨hupper, heven⟩
    · exact .inl (by linarith)
    · rcases lt_or_eq_of_le hbc with hlt | rfl
      · exact .inl (by linarith)
      · exact .inr ⟨hupper, heven⟩

/-- A negative power of ten in units. -/
theorem power_units (a k : Nat) :
    (a : ℚ) * (10 ^ (-(k : Int)) * twoTo unitExponent) =
      (a * twoTo unitExponent : Nat) / tenTo k := by
  rw [zpow_neg, zpow_natCast, ← cast_tenTo, Nat.cast_mul]
  ring

theorem power_units_lt_iff {a b k : Nat} :
    (a : ℚ) * (10 ^ (-(k : Int)) * twoTo unitExponent) < b ↔
      a * twoTo unitExponent < b * tenTo k := by
  rw [power_units, div_lt_iff₀ (Nat.cast_pos.2 (tenTo_pos k)), ← Nat.cast_mul, Nat.cast_lt]

theorem lt_power_units_iff {a b k : Nat} :
    (b : ℚ) < a * (10 ^ (-(k : Int)) * twoTo unitExponent) ↔
      b * tenTo k < a * twoTo unitExponent := by
  rw [power_units, lt_div_iff₀ (Nat.cast_pos.2 (tenTo_pos k)), ← Nat.cast_mul, Nat.cast_lt]

variable (hm : 0 < m)
include hm

theorem neighbourhood_proper : (neighbourhood (coefficientOf m) (scaleOf m)).Proper := by
  have hbelow := unitsOf_strictMono (show m - 1 < m by omega)
  have habove := unitsOf_strictMono (show m < m + 1 by omega)
  rw [neighbourhood_eq hm]
  constructor
  · show 2 * (unitsOf (m - 1) + unitsOf m) < 4 * unitsOf m
    omega
  · show 4 * unitsOf m < 2 * (unitsOf m + unitsOf (m + 1))
    omega

theorem centre_units :
    (neighbourhood (coefficientOf m) (scaleOf m)).centre * twoTo unitExponent = unitsOf m := by
  have hquarters : (twoTo (unitExponent + 2) : ℚ) = twoTo unitExponent * 4 := by
    rw [twoTo_add, Nat.cast_mul]
    rfl
  unfold Neighbourhood.centre
  rw [neighbourhood_eq hm, hquarters, Nat.cast_mul, div_mul_eq_mul_div,
    div_eq_iff (mul_ne_zero unit_pos.ne' (by norm_num))]
  push_cast
  ring

/-- The finest grid has an answer: its points are closer to one another than doubles are. -/
theorem finest_grid_isSome :
    ((neighbourhood (coefficientOf m) (scaleOf m)).onGrid? 0).isSome = true := by
  rw [Option.isSome_iff_ne_none]
  intro hnone
  have hbelow := Neighbourhood.gridBelow_le (neighbourhood (coefficientOf m) (scaleOf m)) 0
  have habove := Neighbourhood.lt_gridBelow_succ (neighbourhood (coefficientOf m) (scaleOf m)) 0
  refine (Neighbourhood.onGrid?_eq_none hnone).1 ((contains_iff hm).2 ?_)
  have hunit := unit_pos
  have hcentre := centre_units hm
  have hself := unitsOf_lt_cast (Nat.lt_succ_self m)
  have hprev : (unitsOf (m - 1) : ℚ) + 1 ≤ unitsOf m := by
    exact_mod_cast unitsOf_strictMono (show m - 1 < m by omega)
  generalize (neighbourhood (coefficientOf m) (scaleOf m)).gridBelow 0 = c at *
  generalize (neighbourhood (coefficientOf m) (scaleOf m)).centre = v at *
  have hnext : Neighbourhood.gridPoint 0 (c + 1) =
      Neighbourhood.gridPoint 0 c + 10 ^ (-(gridOffset : Int)) := by
    unfold Neighbourhood.gridPoint
    rw [Nat.cast_add_one, add_mul, one_mul, Nat.cast_zero, zero_sub]
  have hstep : (2 : ℚ) * (10 ^ (-(gridOffset : Int)) * twoTo unitExponent) < 1 := by
    have hsmall : 2 * twoTo unitExponent < 1 * tenTo gridOffset := by decide +kernel
    exact_mod_cast power_units_lt_iff.2 hsmall
  rw [hnext] at habove
  have hbelow' := mul_le_mul_of_nonneg_right hbelow hunit.le
  have habove' := mul_lt_mul_of_pos_right habove hunit
  rw [add_mul] at habove'
  exact ⟨fun _ => .inl (by linarith), .inl (by linarith)⟩

end

/-- A decimal is rounded to the magnitude, none of a larger exponent is, and none of the same
exponent is closer. -/
structure Coarsest (m : Nat) (d : Decimal) : Prop where
  between : Between (d.value * twoTo unitExponent) m
  coarsest : ∀ (c : Nat) (e : Int), d.exponent < e →
    ¬Between ((c * 10 ^ e : ℚ) * twoTo unitExponent) m
  closest : ∀ c : Nat, Between ((c * 10 ^ d.exponent : ℚ) * twoTo unitExponent) m →
    |d.value * twoTo unitExponent - unitsOf m| ≤
      |(c * 10 ^ d.exponent : ℚ) * twoTo unitExponent - unitsOf m|

/-- No double is beyond the last grid. -/
theorem not_between_beyond {m : Nat} (hm : 0 < m) (hfinite : m < infinityBits) (c : Nat) {e : Int}
    (he : (gridOffset : Int) ≤ e) : ¬Between ((c * 10 ^ e : ℚ) * twoTo unitExponent) m := by
  intro hbetween
  have hpositive := hbetween.pos hm
  have hle := hbetween.le_limit hfinite
  have hcoefficient : (1 : ℚ) ≤ c := by
    have hne : c ≠ 0 := by
      rintro rfl
      rw [Nat.cast_zero, zero_mul] at hpositive
      exact absurd hpositive (lt_irrefl 0)
    exact_mod_cast Nat.one_le_iff_ne_zero.2 hne
  have hpower : (tenTo gridOffset : ℚ) ≤ 10 ^ e := by
    rw [cast_tenTo, ← zpow_natCast]
    exact zpow_le_zpow_right₀ (by norm_num) he
  have hlimit : (twoTo 1024 : ℚ) < tenTo gridOffset := by
    have hlt : twoTo 1024 < tenTo gridOffset := by decide +kernel
    exact_mod_cast hlt
  have hproduct : (10 : ℚ) ^ e ≤ c * 10 ^ e :=
    le_mul_of_one_le_left (zpow_nonneg (by norm_num) _) hcoefficient
  linarith

/-- The decimal that the search over the grids finds for a magnitude. -/
def shortestOf (m : Nat) : Decimal := shortest (coefficientOf m) (scaleOf m)

theorem shortestOf_coarsest {m : Nat} (hm : 0 < m) (hfinite : m < infinityBits) :
    Coarsest m (shortestOf m) ∧ -(gridOffset : Int) ≤ (shortestOf m).exponent ∧
      (shortestOf m).exponent < gridOffset := by
  have hproper := neighbourhood_proper hm
  have hcentre := centre_units hm
  obtain ⟨j, c, hj, hfound, hcoarsest, hnone⟩ :=
    Neighbourhood.coarsest_eq (show 0 < gridCount by decide) (finest_grid_isSome hm)
  have hcount : gridCount = 2 * gridOffset := rfl
  unfold shortestOf shortest
  rw [hcoarsest]
  refine ⟨⟨?_, ?_, ?_⟩, ?_, ?_⟩
  · exact (contains_iff hm).1 (Neighbourhood.onGrid?_eq_some hfound).1
  · intro c' e hlt hbetween
    have hlt' : (j : Int) - gridOffset < e := hlt
    rcases lt_or_ge e gridOffset with hreach | hbeyond
    · obtain ⟨j', hj'⟩ : ∃ j' : Nat, e = (j' : Int) - gridOffset :=
        ⟨(e + gridOffset).toNat, by omega⟩
      rw [hj', ← contains_iff hm] at hbetween
      exact hproper.onGrid?_none (hnone j' (by omega) (by omega)) hbetween
    · exact not_between_beyond hm hfinite c' hbeyond hbetween
  · intro c' hbetween
    have hclosest := hproper.onGrid?_closest hfound ((contains_iff hm).2 hbetween)
    have hscaled := mul_le_mul_of_nonneg_right hclosest (abs_nonneg (twoTo unitExponent : ℚ))
    rw [← abs_mul, ← abs_mul, sub_mul, sub_mul, hcentre] at hscaled
    exact hscaled
  · show -(gridOffset : Int) ≤ (j : Int) - gridOffset
    omega
  · show (j : Int) - gridOffset < gridOffset
    omega

end Binary64

/-! ## The fewest digits -/

namespace Decimal

/-- How many places after the start of its digits the decimal point of a number stands. -/
def point (d : Decimal) : Int := d.digits.length + d.exponent

theorem digits_length_pos (d : Decimal) : 0 < d.digits.length := Nat.length_toDigits_pos

theorem value_lt (d : Decimal) : d.value < 10 ^ d.point := by
  have hlt : (d.coefficient : ℚ) < 10 ^ d.digits.length := by
    exact_mod_cast lt_pow_length_toDigits d.coefficient
  unfold value point
  rw [zpow_add₀ (by norm_num), zpow_natCast]
  exact mul_lt_mul_of_pos_right hlt (zpow_pos (by norm_num) _)

theorem le_value {d : Decimal} (h : 0 < d.coefficient) : 10 ^ (d.point - 1) ≤ d.value := by
  have hle : (10 : ℚ) ^ (d.digits.length - 1) ≤ d.coefficient := by
    exact_mod_cast pow_le_of_toDigits h
  have hsplit : d.point - 1 = (d.digits.length - 1 : Nat) + d.exponent := by
    have hlength := d.digits_length_pos
    unfold point
    omega
  unfold value
  rw [hsplit, zpow_add₀ (by norm_num), zpow_natCast]
  exact mul_le_mul_of_nonneg_right hle (zpow_nonneg (by norm_num) _)

/-- A decimal of one digit. -/
theorem value_le_nine {d : Decimal} (h : d.digits.length = 1) : d.value ≤ 9 * 10 ^ d.exponent := by
  have hlt := lt_pow_length_toDigits d.coefficient
  have hle : (d.coefficient : ℚ) ≤ 9 := by
    rw [← digits, h] at hlt
    exact_mod_cast Nat.le_of_lt_succ hlt
  exact mul_le_mul_of_nonneg_right hle (zpow_nonneg (by norm_num) _)

end Decimal

namespace Binary64

/-- If a power of ten and nine tenths of it are rounded to one double, the power of ten is not
farther from it. There is one such double, of two units, for `10 ^ -323`. -/
theorem power_closer {m : Nat} {e : Int} (hm : 0 < m)
    (hnine : Between ((9 * 10 ^ e : ℚ) * twoTo unitExponent) m)
    (hten : Between ((10 * 10 ^ e : ℚ) * twoTo unitExponent) m) :
    19 * ((10 ^ e : ℚ) * twoTo unitExponent) ≤ 2 * unitsOf m := by
  have hleast : (1 : ℚ) ≤ unitsOf m := by exact_mod_cast unitsOf_pos hm
  have hprev : (0 : ℚ) ≤ unitsOf (m - 1) := Nat.cast_nonneg _
  have hnext : (unitsOf (m + 1) : ℚ) = unitsOf m + twoTo (scaleOf m) := by
    exact_mod_cast unitsOf_succ m
  have hlower : (unitsOf m : ℚ) ≤ 18 * (10 ^ e * twoTo unitExponent) := by
    rcases hnine.lower hm with hlower | ⟨hlower, -⟩ <;> linarith
  have hupper : 20 * ((10 ^ e : ℚ) * twoTo unitExponent) ≤ 2 * unitsOf m + twoTo (scaleOf m) := by
    rcases hten.upper with hupper | ⟨hupper, -⟩ <;> linarith
  rcases le_or_gt (twoTo (scaleOf m) : ℚ) (10 ^ e * twoTo unitExponent) with hlarge | hsmall
  · linarith
  -- a double that is not among the least is many times its distance from the next
  have hscale : scaleOf m = 0 := by
    by_contra hne
    have hcoefficient := (scaleOf_coefficientOf m).2.2.resolve_left hne
    have hmany : 18 * twoTo (scaleOf m) ≤ unitsOf m :=
      Nat.mul_le_mul_right _ (Nat.le_trans (by decide) hcoefficient)
    have hmany' : (18 : ℚ) * twoTo (scaleOf m) ≤ unitsOf m := by exact_mod_cast hmany
    linarith
  have hone : (twoTo 0 : ℚ) = 1 := Nat.cast_one
  rw [hscale, hone] at hupper hsmall
  rcases lt_trichotomy e (-324) with hlt | rfl | hgt
  · have htiny : (18 : ℚ) * (10 ^ (-325 : Int) * twoTo unitExponent) < 1 := by
      simpa only [Nat.cast_ofNat, Nat.cast_one] using
        (power_units_lt_iff (a := 18) (b := 1) (k := 325)).2 (by decide +kernel)
    have hle : (10 : ℚ) ^ e ≤ 10 ^ (-325 : Int) := zpow_le_zpow_right₀ (by norm_num) (by omega)
    have hscaled := mul_le_mul_of_nonneg_right hle unit_pos.le
    linarith
  · have hthree : (3 : ℚ) < 20 * (10 ^ (-324 : Int) * twoTo unitExponent) := by
      simpa only [Nat.cast_ofNat] using
        (lt_power_units_iff (a := 20) (b := 3) (k := 324)).2 (by decide +kernel)
    have hfour : (19 : ℚ) * (10 ^ (-324 : Int) * twoTo unitExponent) < 4 := by
      simpa only [Nat.cast_ofNat] using
        (power_units_lt_iff (a := 19) (b := 4) (k := 324)).2 (by decide +kernel)
    have htwo : 1 < unitsOf m := by
      have hlt : (1 : ℚ) < unitsOf m := by linarith
      exact_mod_cast hlt
    have htwo' : (2 : ℚ) ≤ unitsOf m := by exact_mod_cast htwo
    linarith
  · have hunit : (1 : ℚ) < 1 * (10 ^ (-323 : Int) * twoTo unitExponent) := by
      simpa only [Nat.cast_ofNat, Nat.cast_one] using
        (lt_power_units_iff (a := 1) (b := 1) (k := 323)).2 (by decide +kernel)
    have hge : (10 : ℚ) ^ (-323 : Int) ≤ 10 ^ e := zpow_le_zpow_right₀ (by norm_num) (by omega)
    have hscaled := mul_le_mul_of_nonneg_right hge unit_pos.le
    linarith

namespace Coarsest

variable {m : Nat} {d d' : Decimal}

theorem not_between_power (h : Coarsest m d) {e : Int} (he : d.exponent < e) :
    ¬Between ((10 ^ e : ℚ) * twoTo unitExponent) m := by
  have hone := h.coarsest 1 e he
  rwa [Nat.cast_one, one_mul] at hone

theorem coefficient_pos (hm : 0 < m) (h : Between (d.value * twoTo unitExponent) m) :
    0 < d.coefficient := by
  refine Nat.pos_of_ne_zero fun hzero => ?_
  have hpos := h.pos hm
  unfold Decimal.value at hpos
  rw [hzero, Nat.cast_zero, zero_mul] at hpos
  exact lt_irrefl 0 hpos

/-- No digit of the decimal is a final zero. -/
theorem trimmed (h : Coarsest m d) : d.coefficient % 10 ≠ 0 := by
  intro hzero
  have hsplit : d.coefficient / 10 * 10 ^ 1 = d.coefficient :=
    Nat.div_mul_cancel (Nat.dvd_of_mod_eq_zero hzero)
  have hbetween := h.between
  unfold Decimal.value at hbetween
  rw [← hsplit, append_zeros_value] at hbetween
  exact h.coarsest _ _ (by omega) hbetween

variable (h : Coarsest m d) (hd' : Between (d'.value * twoTo unitExponent) m)
include h hd'

theorem exponent_le : d'.exponent ≤ d.exponent := by
  by_contra hlt
  exact h.coarsest _ _ (Int.lt_of_not_ge hlt) hd'

/-- A power of ten between the two decimals would be on a coarser grid. -/
theorem power_le_exponent (hm : 0 < m) {e : Int} (he : d'.point ≤ e) (hpoint : e < d.point) :
    e ≤ d.exponent := by
  by_contra hlt
  have hbelow : d'.value ≤ 10 ^ e :=
    d'.value_lt.le.trans (zpow_le_zpow_right₀ (by norm_num) he)
  have habove : 10 ^ e ≤ d.value :=
    (zpow_le_zpow_right₀ (by norm_num) (by omega)).trans
      (Decimal.le_value (coefficient_pos hm h.between))
  exact h.not_between_power (Int.lt_of_not_ge hlt) (hd'.convex h.between
    (mul_le_mul_of_nonneg_right hbelow unit_pos.le) (mul_le_mul_of_nonneg_right habove unit_pos.le))

theorem length_le (hm : 0 < m) : d.digits.length ≤ d'.digits.length := by
  have hexponent := h.exponent_le hd'
  have hlength := d'.digits_length_pos
  by_contra hlt
  have hle := h.power_le_exponent hd' hm
    (show d'.point ≤ d'.digits.length + d.exponent by unfold Decimal.point; omega)
    (by unfold Decimal.point; omega)
  omega

/-- A decimal of as many digits and a smaller exponent is below a power of ten that is rounded to the
double as well, so both have one digit. -/
theorem finer_of_length (hm : 0 < m) (hlength : d'.digits.length = d.digits.length)
    (hfiner : d'.exponent < d.exponent) :
    d'.value ≤ 9 * 10 ^ (d.exponent - 1) ∧ 10 ^ d.exponent ≤ d.value := by
  have hdigits := d.digits_length_pos
  have hle := h.power_le_exponent hd' hm
    (show d'.point ≤ d.point - 1 by unfold Decimal.point; omega) (by omega)
  have hone : d.digits.length = 1 := by
    unfold Decimal.point at hle
    omega
  have hpoint : d.point - 1 = d.exponent := by
    unfold Decimal.point
    omega
  constructor
  · calc d'.value ≤ 9 * 10 ^ d'.exponent := Decimal.value_le_nine (hlength.trans hone)
      _ ≤ 9 * 10 ^ (d.exponent - 1) :=
        mul_le_mul_of_nonneg_left (zpow_le_zpow_right₀ (by norm_num) (by omega)) (by norm_num)
  · rw [← hpoint]
    exact Decimal.le_value (coefficient_pos hm h.between)

theorem closest_of_length (hm : 0 < m) (hlength : d'.digits.length = d.digits.length) :
    |d.value * twoTo unitExponent - unitsOf m| ≤ |d'.value * twoTo unitExponent - unitsOf m| := by
  rcases Int.lt_or_eq_of_le (h.exponent_le hd') with hfiner | hsame
  · obtain ⟨hnine, hpower⟩ := h.finer_of_length hd' hm hlength hfiner
    have hten : (10 : ℚ) * 10 ^ (d.exponent - 1) = 10 ^ d.exponent := by
      rw [← zpow_one_add₀ (by norm_num), add_sub_cancel]
    have hpositive : (0 : ℚ) < 10 ^ (d.exponent - 1) := zpow_pos (by norm_num) _
    have hunit := unit_pos.le
    have hbetween : Between ((10 * 10 ^ (d.exponent - 1) : ℚ) * twoTo unitExponent) m := by
      refine hd'.convex h.between (mul_le_mul_of_nonneg_right ?_ hunit)
        (mul_le_mul_of_nonneg_right (hten ▸ hpower) hunit)
      linarith
    have hcloser := power_closer hm (hd'.convex hbetween (mul_le_mul_of_nonneg_right hnine hunit)
      (mul_le_mul_of_nonneg_right (by linarith) hunit)) hbetween
    have hclosest := h.closest 1 (by rwa [Nat.cast_one, one_mul, ← hten])
    rw [Nat.cast_one, one_mul, ← hten] at hclosest
    have hscaled := mul_le_mul_of_nonneg_right hnine hunit
    have hstep := mul_pos hpositive unit_pos
    -- the power of ten is no farther than the other decimal, and the decimal no farther than it
    refine hclosest.trans ?_
    rw [abs_of_nonpos (show d'.value * twoTo unitExponent - unitsOf m ≤ 0 by
      linarith only [hcloser, hscaled, hstep])]
    refine abs_le.2 ⟨?_, ?_⟩
    · linarith only [hcloser, hscaled, hstep]
    · linarith only [hcloser, hscaled, hstep]
  · have hclosest := h.closest d'.coefficient (hsame ▸ hd')
    rwa [← hsame] at hclosest

omit hd' in
/-- Where the point stands says which powers of ten are not above the double. -/
theorem power_le_iff {e : Int} {k : Nat} (hm : 0 < m)
    (hk : Between ((10 ^ e : ℚ) * twoTo unitExponent) k) : k ≤ m ↔ e < d.point := by
  have hvalue := Decimal.le_value (coefficient_pos hm h.between)
  constructor
  · intro hle
    rcases Nat.lt_or_eq_of_le hle with hlt | rfl
    · have hlt' := lt_of_mul_lt_mul_right (hk.lt_of_lt h.between hlt) unit_pos.le
      exact (zpow_lt_zpow_iff_right₀ (by norm_num)).1 (hlt'.trans d.value_lt)
    · have hexponent : e ≤ d.exponent := by
        by_contra hlt
        exact h.not_between_power (Int.lt_of_not_ge hlt) hk
      have hlength := d.digits_length_pos
      unfold Decimal.point
      omega
  · intro hlt
    by_contra hgt
    have hlt' := lt_of_mul_lt_mul_right (h.between.lt_of_lt hk (Nat.lt_of_not_le hgt)) unit_pos.le
    have hle : (10 : ℚ) ^ e ≤ 10 ^ (d.point - 1) := zpow_le_zpow_right₀ (by norm_num) (by omega)
    exact absurd (hle.trans hvalue) (not_le.2 hlt')

omit hd' in
/-- The shortest decimal of an integer below `2 ^ 53` is exact. -/
theorem value_eq_natCast {N : Nat} (hm : 0 < m) (hN : unitsOf m = N * twoTo unitExponent)
    (hlt : N < twoTo 53) : d.value = N := by
  have hunit := twoTo_pos unitExponent
  have hself : Between ((N * 10 ^ (0 : Int) : ℚ) * twoTo unitExponent) m := by
    rw [zpow_zero, mul_one, ← Nat.cast_mul, ← hN]
    exact between_unitsOf m
  obtain ⟨k, hk⟩ : ∃ k : Nat, d.exponent = k :=
    Int.eq_ofNat_of_zero_le (Int.not_lt.1 fun hneg => h.coarsest N 0 hneg hself)
  have hvalue : d.value = (d.coefficient * 10 ^ k : Nat) := by
    unfold Decimal.value
    rw [hk, zpow_natCast, Nat.cast_mul, Nat.cast_pow, Nat.cast_ofNat]
  have hbetween := h.between
  rw [hvalue] at hbetween ⊢
  generalize d.coefficient * 10 ^ k = D at *
  -- the doubles next to it are at most one away
  have hscale : scaleOf m ≤ unitExponent := by
    refine scaleOf_le_of_lt ?_
    rw [hN]
    exact Nat.mul_lt_mul_of_pos_right hlt hunit
  have hgap : ∀ s ≤ scaleOf m, twoTo s ≤ twoTo unitExponent := fun s hs =>
    twoTo_mono (hs.trans hscale)
  have hbelow : unitsOf m ≤ unitsOf (m - 1) + twoTo unitExponent := by
    have hprev := unitsOf_succ (m - 1)
    rw [Nat.sub_add_cancel hm] at hprev
    rw [hprev]
    exact Nat.add_le_add_left (hgap _ (scaleOf_mono (Nat.sub_le m 1))) _
  have habove : unitsOf (m + 1) ≤ unitsOf m + twoTo unitExponent := by
    rw [unitsOf_succ]
    exact Nat.add_le_add_left (hgap _ (Nat.le_refl _)) _
  have hlower : unitsOf (m - 1) + unitsOf m ≤ 2 * (D * twoTo unitExponent) := by
    rcases hbetween.lower hm with hlower | ⟨hlower, -⟩
    · exact_mod_cast hlower.le
    · exact_mod_cast hlower.le
  have hupper : 2 * (D * twoTo unitExponent) ≤ unitsOf m + unitsOf (m + 1) := by
    rcases hbetween.upper with hupper | ⟨hupper, -⟩
    · exact_mod_cast hupper.le
    · exact_mod_cast hupper.le
  have hle : 2 * D ≤ 2 * N + 1 := by
    refine Nat.le_of_mul_le_mul_right ?_ hunit
    rw [Nat.add_mul, Nat.mul_assoc, Nat.mul_assoc]
    omega
  have hge : 2 * N ≤ 2 * D + 1 := by
    refine Nat.le_of_mul_le_mul_right ?_ hunit
    rw [Nat.add_mul, Nat.mul_assoc, Nat.mul_assoc]
    omega
  rw [show D = N by omega]

end Coarsest

/-! ## Shortest decimals of doubles -/

/-- A decimal is a shortest one of a positive double: it is rounded to the double, no decimal with
fewer digits is, and none with as many digits is closer to it. -/
structure ShortestDecimal (x : Binary64) (d : Decimal) : Prop where
  rounds : RoundsTo d.value x
  trimmed : d.coefficient % 10 ≠ 0
  fewest : ∀ d' : Decimal, RoundsTo d'.value x → d.digits.length ≤ d'.digits.length
  closest : ∀ d' : Decimal, RoundsTo d'.value x → d'.digits.length = d.digits.length →
    |d.value - x.value| ≤ |d'.value - x.value|

theorem Coarsest.shortestDecimal {x : Binary64} {d : Decimal} (h : Coarsest x.magnitudeBits d)
    (hpos : 0 < x.magnitudeBits) (hfinite : x.magnitudeBits < infinityBits)
    (hsign : x.isNegative = false) : ShortestDecimal x d where
  rounds := h.between.roundsTo (h.between.pos hpos) hfinite hsign
  trimmed := h.trimmed
  fewest d' hd' := h.length_le (hd'.between hfinite hsign) hpos
  closest d' hd' hlength := by
    have hclosest := h.closest_of_length (hd'.between hfinite hsign) hpos hlength
    rw [abs_sub_value _ hfinite.le, abs_sub_value _ hfinite.le, hsign]
    exact div_le_div_of_nonneg_right hclosest unit_pos.le

end Binary64

end TagTemplate
