import TagTemplate.Proofs.Number.Magnitude
import Mathlib.Tactic.FieldSimp

/-!
# Reading is rounding

The double that is read from a quotient or from a decimal is the nearest one. Main statements:
`between_roundedBits`, the quotient is between the points midway to the next magnitudes below and
above the one it is rounded to; `between_of_ofDecimal` and `ofDecimal_eq`, a decimal is read as a
finite number other than zero if and only if it is rounded to it and its power of ten is in reach.
-/

namespace TagTemplate.Binary64

/-- The quotient is rounded to a number next to it, at most half a unit away, and if it is half a
unit away, to the even one. -/
theorem roundQuotient_spec (num : Nat) {den : Nat} (hden : 0 < den) :
    (roundQuotient num den = num / den ∨ roundQuotient num den = num / den + 1) ∧
    (2 * num < 2 * (roundQuotient num den * den) + den ∨
      2 * num = 2 * (roundQuotient num den * den) + den ∧ roundQuotient num den % 2 = 0) ∧
    (2 * (roundQuotient num den * den) < 2 * num + den ∨
      2 * (roundQuotient num den * den) = 2 * num + den ∧ roundQuotient num den % 2 = 0) := by
  have hsplit : num / den * den + num % den = num := Nat.div_add_mod' num den
  have hmod := Nat.mod_lt num hden
  unfold roundQuotient
  dsimp only
  generalize num / den = floor at *
  generalize num % den = rest at *
  split
  · next hup =>
    rw [Nat.add_mul, Nat.one_mul]
    refine ⟨.inr rfl, .inl (by omega), ?_⟩
    rcases hup with hup | ⟨hup, hodd⟩
    · exact .inl (by omega)
    · exact .inr ⟨by omega, by omega⟩
  · next hdown =>
    obtain ⟨hle, htie⟩ := not_or.1 hdown
    refine ⟨.inl rfl, ?_, .inl (by omega)⟩
    rcases Nat.lt_or_eq_of_le (Nat.le_of_not_lt hle) with hlt | heq
    · exact .inl (by omega)
    · exact .inr ⟨by omega, by omega⟩

/-- The scale for a quotient in units. -/
def scaleFor (units den : Nat) : Nat := (units / den).log2 - fractionBits

/-- The bits that a quotient is rounded to, the exponent taken as unbounded. -/
def roundedBits (num den : Nat) : Nat :=
  let units := num * twoTo unitExponent
  let scale := scaleFor units den
  scale * twoTo fractionBits + roundQuotient units (den * twoTo scale)

theorem nearest_eq (negative : Bool) (num den : Nat) :
    nearest negative num den = ofMagnitudeBits negative (min (roundedBits num den) infinityBits) :=
  rfl

/-- In its scale a quotient has 53 binary digits, or less in the least scale. -/
theorem floor_bounds (units den : Nat) :
    units / (den * twoTo (scaleFor units den)) < 2 * twoTo fractionBits ∧
      (scaleFor units den = 0 ∨ twoTo fractionBits ≤ units / (den * twoTo (scaleFor units den))) := by
  rw [← Nat.div_div_eq_div_mul]
  unfold scaleFor
  generalize units / den = quotient
  have hpos := twoTo_pos (quotient.log2 - fractionBits)
  constructor
  · rw [Nat.div_lt_iff_lt_mul hpos]
    calc quotient < twoTo (quotient.log2 + 1) := Nat.lt_log2_self
      _ ≤ twoTo (1 + fractionBits + (quotient.log2 - fractionBits)) :=
        twoTo_mono (by omega)
      _ = 2 * twoTo fractionBits * twoTo (quotient.log2 - fractionBits) := by
        rw [twoTo_add, twoTo_add]
        rfl
  · rcases Nat.eq_zero_or_pos (quotient.log2 - fractionBits) with hzero | hscale
    · exact .inl hzero
    · have hne : quotient ≠ 0 := by
        rintro rfl
        exact absurd hscale (by decide)
      right
      rw [Nat.le_div_iff_mul_le hpos, ← twoTo_add,
        show fractionBits + (quotient.log2 - fractionBits) = quotient.log2 by omega]
      exact Nat.log2_self_le hne

section

variable {units den : Nat} (hden : 0 < den)
include hden

theorem lt_twice_quotient {a : Nat} : (a : ℚ) < 2 * (units / den) ↔ a * den < 2 * units := by
  rw [← mul_div_assoc, lt_div_iff₀ (Nat.cast_pos.2 hden)]
  exact_mod_cast Iff.rfl

theorem twice_quotient_lt {a : Nat} : (2 * (units / den) : ℚ) < a ↔ 2 * units < a * den := by
  rw [← mul_div_assoc, div_lt_iff₀ (Nat.cast_pos.2 hden)]
  exact_mod_cast Iff.rfl

theorem twice_quotient_eq {a : Nat} : (2 * (units / den) : ℚ) = a ↔ 2 * units = a * den := by
  rw [← mul_div_assoc, div_eq_iff (Nat.cast_ne_zero.2 hden.ne')]
  exact_mod_cast Iff.rfl

end

/-- So many units over `den` are rounded to a coefficient of a scale, at most half a step away. The
least coefficient of a scale is not above the quotient, and the greatest, which is the least of the
next scale, not below it. -/
structure RoundedTo (units den scale coefficient : Nat) : Prop where
  least : scale = 0 ∨ twoTo fractionBits ≤ coefficient
  most : coefficient ≤ 2 * twoTo fractionBits
  first : 0 < scale → coefficient = twoTo fractionBits → coefficient * (den * twoTo scale) ≤ units
  last : coefficient = 2 * twoTo fractionBits → units < coefficient * (den * twoTo scale)
  below : 2 * (coefficient * (den * twoTo scale)) < 2 * units + den * twoTo scale ∨
    2 * (coefficient * (den * twoTo scale)) = 2 * units + den * twoTo scale ∧ coefficient % 2 = 0
  above : 2 * units < 2 * (coefficient * (den * twoTo scale)) + den * twoTo scale ∨
    2 * units = 2 * (coefficient * (den * twoTo scale)) + den * twoTo scale ∧ coefficient % 2 = 0

theorem roundedTo_roundQuotient (units : Nat) {den : Nat} (hden : 0 < den) :
    RoundedTo units den (scaleFor units den)
      (roundQuotient units (den * twoTo (scaleFor units den))) := by
  obtain ⟨hmost, hleast⟩ := floor_bounds units den
  generalize scaleFor units den = scale at *
  have hstep : 0 < den * twoTo scale := Nat.mul_pos hden (twoTo_pos scale)
  obtain ⟨hfloor, habove, hbelow⟩ := roundQuotient_spec units hstep
  have hfloorLe := Nat.div_mul_le_self units (den * twoTo scale)
  have hfloorLt := Nat.lt_div_mul_add hstep (a := units)
  generalize roundQuotient units (den * twoTo scale) = rounded at *
  generalize units / (den * twoTo scale) = floor at *
  refine ⟨by omega, by omega, fun hscale hfirst => ?_, fun hlast => ?_, hbelow, habove⟩
  · have hsame : rounded = floor := by omega
    rwa [hsame]
  · have hsame : rounded = floor + 1 := by omega
    rwa [hsame, Nat.add_mul, Nat.one_mul]

namespace RoundedTo

variable {units den scale coefficient : Nat} (h : RoundedTo units den scale coefficient)
include h

theorem units_eq :
    unitsOf (scale * twoTo fractionBits + coefficient) = coefficient * twoTo scale :=
  unitsOf_pack h.least h.most

omit h in
theorem parity : (scale * twoTo fractionBits + coefficient) % 2 = coefficient % 2 := by
  rw [twoTo_fractionBits]
  omega

theorem lower (hden : 0 < den) (hbits : 0 < scale * twoTo fractionBits + coefficient) :
    (unitsOf (scale * twoTo fractionBits + coefficient - 1) + coefficient * twoTo scale) * den <
        2 * units ∨
      (unitsOf (scale * twoTo fractionBits + coefficient - 1) + coefficient * twoTo scale) * den =
        2 * units ∧ coefficient % 2 = 0 := by
  by_cases hfirst : 0 < scale ∧ coefficient = twoTo fractionBits
  · -- the bits below have a smaller scale, but the quotient is not below the number itself
    have hlower : unitsOf (scale * twoTo fractionBits + coefficient - 1) <
        coefficient * twoTo scale :=
      h.units_eq ▸ unitsOf_strictMono (Nat.sub_lt hbits Nat.one_pos)
    left
    calc (unitsOf (scale * twoTo fractionBits + coefficient - 1) + coefficient * twoTo scale) * den
        < (coefficient * twoTo scale + coefficient * twoTo scale) * den :=
          Nat.mul_lt_mul_of_pos_right (Nat.add_lt_add_right hlower _) hden
      _ = 2 * (coefficient * (den * twoTo scale)) := by ring
      _ ≤ 2 * units := Nat.mul_le_mul_left 2 (h.first hfirst.1 hfirst.2)
  · obtain ⟨less, rfl⟩ : ∃ less, coefficient = less + 1 := by
      refine ⟨coefficient - 1, ?_⟩
      rcases h.least with hzero | hleast
      · rw [hzero] at hbits
        omega
      · have hpos := twoTo_pos fractionBits
        omega
    have hleast := h.least
    have hmost := h.most
    have hlower : unitsOf (scale * twoTo fractionBits + (less + 1) - 1) = less * twoTo scale := by
      rw [← Nat.add_assoc, Nat.add_sub_cancel, unitsOf_pack (by omega) (by omega)]
    have hsum : (less * twoTo scale + (less + 1) * twoTo scale) * den + den * twoTo scale =
        2 * ((less + 1) * (den * twoTo scale)) := by ring
    rw [hlower]
    rcases h.below with hbelow | ⟨hbelow, heven⟩
    · exact .inl (by omega)
    · exact .inr ⟨by omega, heven⟩

theorem upper :
    2 * units <
        (coefficient * twoTo scale + unitsOf (scale * twoTo fractionBits + coefficient + 1)) * den ∨
      2 * units =
        (coefficient * twoTo scale + unitsOf (scale * twoTo fractionBits + coefficient + 1)) * den ∧
          coefficient % 2 = 0 := by
  by_cases hlast : coefficient = 2 * twoTo fractionBits
  · -- rounded up to the next scale, so the quotient is below the number itself
    have hupper : coefficient * twoTo scale <
        unitsOf (scale * twoTo fractionBits + coefficient + 1) :=
      h.units_eq ▸ unitsOf_strictMono (Nat.lt_succ_self _)
    left
    calc 2 * units < 2 * (coefficient * (den * twoTo scale)) :=
          Nat.mul_lt_mul_of_pos_left (h.last hlast) (by decide)
      _ = (coefficient * twoTo scale + coefficient * twoTo scale) * den := by ring
      _ ≤ (coefficient * twoTo scale +
          unitsOf (scale * twoTo fractionBits + coefficient + 1)) * den :=
        Nat.mul_le_mul_right den (Nat.add_le_add_left hupper.le _)
  · have hleast := h.least
    have hmost := h.most
    have hupper : unitsOf (scale * twoTo fractionBits + coefficient + 1) =
        (coefficient + 1) * twoTo scale := by
      rw [Nat.add_assoc, unitsOf_pack (by omega) (by omega)]
    have hsum : (coefficient * twoTo scale + (coefficient + 1) * twoTo scale) * den =
        2 * (coefficient * (den * twoTo scale)) + den * twoTo scale := by ring
    rw [hupper, hsum]
    exact h.above

end RoundedTo

/-- A quotient is between the bits midway below and midway above those it is rounded to. -/
theorem between_roundedBits (num : Nat) {den : Nat} (hden : 0 < den) :
    Between ((num / den : ℚ) * twoTo unitExponent) (roundedBits num den) := by
  have hunits : (num / den : ℚ) * twoTo unitExponent = (num * twoTo unitExponent : Nat) / den := by
    push_cast
    ring
  have hrounded := roundedTo_roundQuotient (num * twoTo unitExponent) hden
  rw [hunits]
  unfold roundedBits
  dsimp only
  generalize num * twoTo unitExponent = units at *
  constructor
  · intro hbits
    rw [← Nat.cast_add, lt_twice_quotient hden, eq_comm, twice_quotient_eq hden, RoundedTo.parity,
      hrounded.units_eq, eq_comm]
    exact hrounded.lower hden hbits
  · rw [← Nat.cast_add, twice_quotient_lt hden, twice_quotient_eq hden, RoundedTo.parity,
      hrounded.units_eq]
    exact hrounded.upper

/-! ## Reading finite numbers -/

section

variable {x : Binary64} (hfinite : x.magnitudeBits < infinityBits)
include hfinite

/-- A quotient is read as a finite number if it is rounded to it. -/
theorem nearest_eq_iff {negative : Bool} {num den : Nat} (hden : 0 < den) :
    nearest negative num den = x ↔ x.isNegative = negative ∧
      Between ((num / den : ℚ) * twoTo unitExponent) x.magnitudeBits := by
  have hbetween := between_roundedBits num hden
  have hlimit : min (roundedBits num den) infinityBits < signedLimit :=
    Nat.lt_of_le_of_lt (Nat.min_le_right ..) (by decide)
  rw [nearest_eq]
  constructor
  · rintro rfl
    rw [magnitudeBits_ofMagnitudeBits negative hlimit] at hfinite ⊢
    rw [isNegative_ofMagnitudeBits negative hlimit,
      Nat.min_eq_left (by omega : roundedBits num den ≤ infinityBits)]
    exact ⟨rfl, hbetween⟩
  · rintro ⟨rfl, h⟩
    rw [hbetween.unique h, Nat.min_eq_left (Nat.le_of_lt hfinite), ofMagnitudeBits_self]

/-- A decimal that is read as a finite number other than zero is rounded to it. -/
theorem between_of_ofDecimal (hpos : 0 < x.magnitudeBits) {negative : Bool} {digits count : Nat}
    {exponent : Int} (h : ofDecimal negative digits count exponent = x) :
    0 < digits ∧ x.isNegative = negative ∧
      Between ((digits * 10 ^ exponent : ℚ) * twoTo unitExponent) x.magnitudeBits := by
  have hzero : zero negative ≠ x := by
    rintro rfl
    rw [zero, magnitudeBits_ofMagnitudeBits negative (by decide)] at hpos
    exact absurd hpos (Nat.lt_irrefl 0)
  have hinfinity : infinity negative ≠ x := by
    rintro rfl
    rw [infinity, magnitudeBits_ofMagnitudeBits negative (by decide)] at hfinite
    exact absurd hfinite (Nat.lt_irrefl _)
  unfold ofDecimal at h
  split at h
  · exact absurd h hzero
  · next hdigits =>
    refine ⟨Nat.pos_of_ne_zero hdigits, ?_⟩
    cases exponent with
    | ofNat e =>
      dsimp only at h
      split at h
      · exact absurd h hinfinity
      · have hread := (nearest_eq_iff hfinite Nat.one_pos).1 h
        rw [Nat.cast_one, div_one, Nat.cast_mul, cast_tenTo, ← zpow_natCast] at hread
        exact hread
    | negSucc e =>
      dsimp only at h
      split at h
      · exact absurd h hzero
      · have hread := (nearest_eq_iff hfinite (tenTo_pos (e + 1))).1 h
        rwa [cast_tenTo, div_eq_mul_inv, ← zpow_negSucc] at hread

/-- A decimal that is rounded to a finite number is read as it, unless its power of ten is out of
reach. -/
theorem ofDecimal_eq {digits count : Nat} {exponent : Int} (hdigits : 0 < digits)
    (hupper : exponent ≤ decimalReach) (hlower : -exponent ≤ decimalReach + count)
    (h : Between ((digits * 10 ^ exponent : ℚ) * twoTo unitExponent) x.magnitudeBits) :
    ofDecimal x.isNegative digits count exponent = x := by
  unfold ofDecimal
  rw [if_neg hdigits.ne']
  cases exponent with
  | ofNat e =>
    dsimp only
    rw [if_neg (by have := Int.ofNat_le.1 hupper; omega)]
    refine (nearest_eq_iff hfinite Nat.one_pos).2 ⟨rfl, ?_⟩
    rw [Nat.cast_one, div_one, Nat.cast_mul, cast_tenTo, ← zpow_natCast]
    exact h
  | negSucc e =>
    dsimp only
    rw [if_neg (by omega)]
    refine (nearest_eq_iff hfinite (tenTo_pos (e + 1))).2 ⟨rfl, ?_⟩
    rwa [cast_tenTo, div_eq_mul_inv, ← zpow_negSucc]

end

end TagTemplate.Binary64
