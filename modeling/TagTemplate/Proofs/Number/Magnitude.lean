import TagTemplate.Number.Shortest
import Mathlib.Algebra.Order.Field.Basic
import Mathlib.Algebra.Order.Ring.Abs
import Mathlib.Data.Rat.Cast.Order
import Mathlib.Order.Monotone.Basic
import Mathlib.Tactic.Linarith
import Mathlib.Tactic.Positivity
import Mathlib.Tactic.Ring

/-!
# Doubles as numbers

The numbers that doubles stand for, counted in units, and which of them is nearest to a number.
Main statements: `unitsOf_strictMono`, more bits stand for more units; `Between.nearest` and
`Nearest.between`, a magnitude is nearest to what lies between the points midway to the next ones;
`Between.unique`, that is one magnitude only; `contains_iff`, the interval that a shortest decimal
is looked for in are these numbers.
-/

namespace TagTemplate.Binary64

theorem twoTo_fractionBits : twoTo fractionBits = 4503599627370496 := rfl

theorem twoTo_pos (n : Nat) : 0 < twoTo n := Nat.pow_pos (by decide)

theorem tenTo_pos (n : Nat) : 0 < tenTo n := Nat.pow_pos (by decide)

theorem twoTo_mono {m n : Nat} (h : m ≤ n) : twoTo m ≤ twoTo n :=
  Nat.pow_le_pow_right (by decide) h

theorem twoTo_succ (n : Nat) : twoTo (n + 1) = 2 * twoTo n := Nat.pow_succ'

/-- The coefficient of a number, from its bits without the sign. -/
def coefficientOf (m : Nat) : Nat :=
  if m / twoTo fractionBits = 0 then m % twoTo fractionBits
  else twoTo fractionBits + m % twoTo fractionBits

/-- The scale of a number, from its bits without the sign. -/
def scaleOf (m : Nat) : Nat := m / twoTo fractionBits - 1

/-- The number in units, from its bits without the sign. Beyond the largest finite number it goes
on as if exponents had no bound. -/
def unitsOf (m : Nat) : Nat := coefficientOf m * twoTo (scaleOf m)

theorem scaleOf_coefficientOf (m : Nat) :
    m = scaleOf m * twoTo fractionBits + coefficientOf m ∧
      coefficientOf m < 2 * twoTo fractionBits ∧
      (scaleOf m = 0 ∨ twoTo fractionBits ≤ coefficientOf m) := by
  unfold scaleOf coefficientOf
  rw [twoTo_fractionBits]
  split
  · omega
  · omega

/-- The bits of a coefficient and a scale. -/
theorem unitsOf_pack {scale coefficient : Nat}
    (hleast : scale = 0 ∨ twoTo fractionBits ≤ coefficient)
    (hmost : coefficient ≤ 2 * twoTo fractionBits) :
    unitsOf (scale * twoTo fractionBits + coefficient) = coefficient * twoTo scale := by
  obtain hlt | heq := Nat.lt_or_eq_of_le hmost
  · have hscale : scaleOf (scale * twoTo fractionBits + coefficient) = scale := by
      unfold scaleOf
      rw [twoTo_fractionBits] at hleast hlt ⊢
      omega
    have hcoefficient : coefficientOf (scale * twoTo fractionBits + coefficient) = coefficient := by
      unfold coefficientOf
      rw [twoTo_fractionBits] at hleast hlt ⊢
      split
      · omega
      · omega
    rw [unitsOf, hscale, hcoefficient]
  · -- the carry makes it the first number of the next scale
    subst heq
    have hscale : scaleOf (scale * twoTo fractionBits + 2 * twoTo fractionBits) = scale + 1 := by
      unfold scaleOf
      rw [twoTo_fractionBits]
      omega
    have hcoefficient : coefficientOf (scale * twoTo fractionBits + 2 * twoTo fractionBits) =
        twoTo fractionBits := by
      unfold coefficientOf
      rw [twoTo_fractionBits]
      split
      · omega
      · omega
    rw [unitsOf, hscale, hcoefficient, twoTo_succ, ← Nat.mul_assoc,
      Nat.mul_comm (twoTo fractionBits) 2]

theorem unitsOf_succ (m : Nat) : unitsOf (m + 1) = unitsOf m + twoTo (scaleOf m) := by
  obtain ⟨hsplit, hlt, hleast⟩ := scaleOf_coefficientOf m
  have hnext : m + 1 = scaleOf m * twoTo fractionBits + (coefficientOf m + 1) := by omega
  rw [hnext, unitsOf_pack (by omega) (by omega), Nat.add_mul, Nat.one_mul, unitsOf]

theorem scaleOf_mono {m n : Nat} (h : m ≤ n) : scaleOf m ≤ scaleOf n :=
  Nat.sub_le_sub_right (Nat.div_le_div_right h) 1

theorem scaleOf_le_of_lt {m scale : Nat}
    (h : unitsOf m < 2 * twoTo fractionBits * twoTo scale) : scaleOf m ≤ scale := by
  by_contra hlarge
  have hleast := (scaleOf_coefficientOf m).2.2.resolve_left (by omega)
  have hle : 2 * twoTo fractionBits * twoTo scale ≤ unitsOf m :=
    calc 2 * twoTo fractionBits * twoTo scale = twoTo fractionBits * twoTo (scale + 1) := by
          rw [twoTo_succ]
          ring
      _ ≤ unitsOf m := Nat.mul_le_mul hleast (twoTo_mono (by omega))
  omega

theorem le_scaleOf_of_le {m scale : Nat}
    (h : 2 * twoTo fractionBits * twoTo scale ≤ unitsOf m) : scale ≤ scaleOf m := by
  by_contra hsmall
  have hmost := (scaleOf_coefficientOf m).2.1
  have hlt : unitsOf m < 2 * twoTo fractionBits * twoTo scale :=
    calc unitsOf m < 2 * twoTo fractionBits * twoTo (scaleOf m) :=
          Nat.mul_lt_mul_of_pos_right hmost (twoTo_pos _)
      _ ≤ 2 * twoTo fractionBits * twoTo scale := Nat.mul_le_mul_left _ (twoTo_mono (by omega))
  omega

theorem unitsOf_strictMono : StrictMono unitsOf := by
  refine strictMono_nat_of_lt_succ fun m => ?_
  have hpos := twoTo_pos (scaleOf m)
  rw [unitsOf_succ]
  omega

theorem unitsOf_pos {m : Nat} (h : 0 < m) : 0 < unitsOf m :=
  Nat.lt_of_le_of_lt (Nat.zero_le _) (unitsOf_strictMono h)

/-! ## The nearest magnitude -/

/-- No other magnitude is nearer to so many units, and one that is as near is odd. -/
def Nearest (units : ℚ) (m : Nat) : Prop :=
  ∀ n, n ≠ m → |units - unitsOf m| < |units - unitsOf n| ∨
    |units - unitsOf m| = |units - unitsOf n| ∧ m % 2 = 0

/-- So many units are between the points midway to the magnitudes below and above; on these points
if the magnitude is even. -/
structure Between (units : ℚ) (m : Nat) : Prop where
  lower : 0 < m → (unitsOf (m - 1) + unitsOf m : ℚ) < 2 * units ∨
    (unitsOf (m - 1) + unitsOf m : ℚ) = 2 * units ∧ m % 2 = 0
  upper : 2 * units < (unitsOf m + unitsOf (m + 1) : ℚ) ∨
    2 * units = (unitsOf m + unitsOf (m + 1) : ℚ) ∧ m % 2 = 0

theorem unitsOf_lt_cast {m n : Nat} (h : m < n) : (unitsOf m : ℚ) < unitsOf n :=
  Nat.cast_lt.2 (unitsOf_strictMono h)

theorem unitsOf_le_cast {m n : Nat} (h : m ≤ n) : (unitsOf m : ℚ) ≤ unitsOf n :=
  Nat.cast_le.2 (unitsOf_strictMono.monotone h)

theorem between_unitsOf (m : Nat) : Between (unitsOf m) m where
  lower hm := .inl (by linarith [unitsOf_lt_cast (show m - 1 < m by omega)])
  upper := .inl (by linarith [unitsOf_lt_cast (show m < m + 1 by omega)])

theorem Between.nearest {units : ℚ} {m : Nat} (h : Between units m) : Nearest units m := by
  intro n hn
  rcases Nat.lt_or_gt_of_ne hn with hlt | hgt
  · -- a magnitude below is no nearer than the one directly below
    have hpos : 0 < m := by omega
    have hbelow := unitsOf_le_cast (show n ≤ m - 1 by omega)
    have hself := unitsOf_lt_cast (show n < m from hlt)
    have hlower := h.lower hpos
    have hdistance : |units - unitsOf n| = units - unitsOf n := abs_of_nonneg (by
      rcases hlower with hlower | ⟨hlower, -⟩ <;> linarith)
    rw [hdistance]
    rcases le_or_gt (unitsOf m : ℚ) units with hge | hlt
    · rw [abs_of_nonneg (by linarith)]
      exact .inl (by linarith)
    · rw [abs_of_neg (by linarith)]
      rcases hlower with hlower | ⟨hlower, heven⟩
      · exact .inl (by linarith)
      · rcases lt_or_eq_of_le hbelow with hfar | hnear
        · exact .inl (by linarith)
        · exact .inr ⟨by linarith, heven⟩
  · have habove := unitsOf_le_cast (show m + 1 ≤ n by omega)
    have hself := unitsOf_lt_cast (show m < n from hgt)
    have hupper := h.upper
    have hdistance : |units - unitsOf n| = unitsOf n - units := by
      rw [abs_of_nonpos (by rcases hupper with hupper | ⟨hupper, -⟩ <;> linarith)]
      ring
    rw [hdistance]
    rcases le_or_gt (unitsOf m : ℚ) units with hge | hlt
    · rw [abs_of_nonneg (by linarith)]
      rcases hupper with hupper | ⟨hupper, heven⟩
      · exact .inl (by linarith)
      · rcases lt_or_eq_of_le habove with hfar | hnear
        · exact .inl (by linarith)
        · exact .inr ⟨by linarith, heven⟩
    · rw [abs_of_neg (by linarith)]
      exact .inl (by linarith)

theorem Nearest.between {units : ℚ} {m : Nat} (h : Nearest units m) : Between units m where
  lower hpos := by
    have hlt := unitsOf_lt_cast (show m - 1 < m by omega)
    have hbelow := h (m - 1) (by omega)
    rcases le_or_gt (unitsOf m : ℚ) units with hge | hgt
    · exact .inl (by linarith)
    rw [abs_of_neg (by linarith)] at hbelow
    rcases le_or_gt (unitsOf (m - 1) : ℚ) units with hge | hgt
    · rw [abs_of_nonneg (by linarith)] at hbelow
      rcases hbelow with hbelow | ⟨hbelow, heven⟩
      · exact .inl (by linarith)
      · exact .inr ⟨by linarith, heven⟩
    · rw [abs_of_neg (by linarith)] at hbelow
      rcases hbelow with hbelow | ⟨hbelow, -⟩ <;> linarith
  upper := by
    have hlt := unitsOf_lt_cast (show m < m + 1 by omega)
    have habove := h (m + 1) (by omega)
    rcases le_or_gt units (unitsOf m : ℚ) with hge | hgt
    · exact .inl (by linarith)
    rw [abs_of_pos (by linarith)] at habove
    rcases le_or_gt units (unitsOf (m + 1) : ℚ) with hge | hgt
    · rw [abs_of_nonpos (by linarith)] at habove
      rcases habove with habove | ⟨habove, heven⟩
      · exact .inl (by linarith)
      · exact .inr ⟨by linarith, heven⟩
    · rw [abs_of_pos (by linarith)] at habove
      rcases habove with habove | ⟨habove, -⟩ <;> linarith

/-- What rounds to a larger magnitude is larger. -/
theorem Between.lt_of_lt {units units' : ℚ} {m m' : Nat} (h : Between units m)
    (h' : Between units' m') (hlt : m < m') : units < units' := by
  have hmiddle := unitsOf_le_cast (show m ≤ m' - 1 by omega)
  have hmiddle' := unitsOf_le_cast (show m + 1 ≤ m' by omega)
  have hupper := h.upper
  have hlower := h'.lower (by omega)
  rcases hupper with hupper | ⟨hupper, heven⟩
  · rcases hlower with hlower | ⟨hlower, -⟩ <;> linarith
  · rcases hlower with hlower | ⟨hlower, heven'⟩
    · linarith
    · -- both are on the same point, so the magnitudes are neighbours, and not both are even
      rcases lt_or_eq_of_le hmiddle with hfar | hnear
      · linarith
      · have hsucc : m = m' - 1 := unitsOf_strictMono.injective (Nat.cast_injective hnear)
        omega

theorem Between.unique {units : ℚ} {m m' : Nat} (h : Between units m) (h' : Between units m') :
    m = m' := by
  rcases Nat.lt_trichotomy m m' with hlt | heq | hgt
  · exact absurd (h.lt_of_lt h' hlt) (lt_irrefl units)
  · exact heq
  · exact absurd (h'.lt_of_lt h hgt) (lt_irrefl units)

/-! ## Doubles -/

/-- The bits of infinity, the first that stand for no finite number. -/
def infinityBits : Nat := topExponent * twoTo fractionBits

theorem infinityBits_eq : infinityBits = 9218868437227405312 := rfl

theorem signedLimit_eq : signedLimit = 9223372036854775808 := rfl

theorem twoTo_add (m n : Nat) : twoTo (m + n) = twoTo m * twoTo n := Nat.pow_add ..

theorem unitsOf_infinityBits : unitsOf infinityBits = twoTo 1024 * twoTo unitExponent := by
  have hsplit : infinityBits = 2046 * twoTo fractionBits + twoTo fractionBits := rfl
  rw [hsplit, unitsOf_pack (.inr (Nat.le_refl _)) (by rw [twoTo_fractionBits]; omega), ← twoTo_add,
    ← twoTo_add]
  rfl

theorem magnitudeBits_lt (x : Binary64) : x.magnitudeBits < signedLimit :=
  Nat.mod_lt _ (by decide)

theorem magnitudeBits_ofMagnitudeBits (negative : Bool) {m : Nat} (h : m < signedLimit) :
    (ofMagnitudeBits negative m).magnitudeBits = m := by
  unfold magnitudeBits ofMagnitudeBits
  rw [signedLimit_eq] at h ⊢
  cases negative
  · simp only [UInt64.toNat_ofNat', Bool.false_eq_true, if_false]
    omega
  · simp only [UInt64.toNat_ofNat', if_true]
    omega

theorem isNegative_ofMagnitudeBits (negative : Bool) {m : Nat} (h : m < signedLimit) :
    (ofMagnitudeBits negative m).isNegative = negative := by
  unfold isNegative ofMagnitudeBits
  rw [signedLimit_eq] at h ⊢
  cases negative
  · simp only [UInt64.toNat_ofNat', Bool.false_eq_true, if_false, decide_eq_false_iff_not]
    omega
  · simp only [UInt64.toNat_ofNat', if_true, decide_eq_true_eq]
    omega

/-- A double is its sign and the other bits. -/
theorem ofMagnitudeBits_self (x : Binary64) : ofMagnitudeBits x.isNegative x.magnitudeBits = x := by
  have hlt := x.bits.toNat_lt
  have hbits : x.magnitudeBits + (if x.isNegative then signedLimit else 0) = x.bits.toNat := by
    unfold magnitudeBits isNegative
    rw [signedLimit_eq]
    split
    · next hnegative =>
      have := of_decide_eq_true hnegative
      omega
    · next hpositive =>
      have := of_decide_eq_false (Bool.not_eq_true _ ▸ hpositive)
      omega
  obtain ⟨bits⟩ := x
  unfold ofMagnitudeBits
  rw [hbits, UInt64.ofNat_toNat]

theorem isNaN_eq_false_iff {x : Binary64} : x.isNaN = false ↔ x.magnitudeBits ≤ infinityBits := by
  rw [isNaN, decide_eq_false_iff_not, Nat.not_lt, infinityBits]

theorem classify_finite {x : Binary64} (h : x.magnitudeBits < infinityBits) :
    x.classify = .finite x.isNegative (coefficientOf x.magnitudeBits) (scaleOf x.magnitudeBits) := by
  have htop : x.magnitudeBits / twoTo fractionBits ≠ topExponent := by
    rw [infinityBits_eq] at h
    show x.magnitudeBits / 4503599627370496 ≠ 2047
    omega
  unfold classify coefficientOf scaleOf
  dsimp only
  rw [if_neg htop]
  split
  · next hzero => rw [hzero]
  · rfl

theorem classify_infinite {x : Binary64} (h : x.magnitudeBits = infinityBits) :
    x.classify = .infinite x.isNegative := by
  unfold classify
  rw [h]
  exact if_pos rfl

/-- A magnitude with a sign. -/
def withSign (negative : Bool) (q : ℚ) : ℚ := if negative then -q else q

/-- The number that a double stands for. The infinities count as the first power of two that is too
large, NaN stands for no number. -/
def value (x : Binary64) : ℚ :=
  match x.classify with
  | .nan => 0
  | .infinite negative => withSign negative (twoTo 1024)
  | .finite negative coefficient scale =>
    withSign negative (coefficient * twoTo scale / twoTo unitExponent)

theorem cast_twoTo (n : Nat) : (twoTo n : ℚ) = 2 ^ n := Nat.cast_pow 2 n

theorem cast_tenTo (n : Nat) : (tenTo n : ℚ) = 10 ^ n := Nat.cast_pow 10 n

theorem unit_pos : (0 : ℚ) < twoTo unitExponent := Nat.cast_pos.2 (twoTo_pos unitExponent)

theorem value_eq {x : Binary64} (h : x.magnitudeBits ≤ infinityBits) :
    x.value = withSign x.isNegative (unitsOf x.magnitudeBits / twoTo unitExponent) := by
  rcases Nat.lt_or_eq_of_le h with hlt | heq
  · unfold value unitsOf
    rw [classify_finite hlt, Nat.cast_mul]
  · unfold value
    rw [classify_infinite heq, heq, unitsOf_infinityBits, Nat.cast_mul,
      mul_div_cancel_right₀ _ unit_pos.ne']

theorem abs_withSign (negative : Bool) (q : ℚ) : |withSign negative q| = |q| := by
  unfold withSign
  split
  · exact abs_neg q
  · rfl

theorem abs_value {x : Binary64} (h : x.magnitudeBits ≤ infinityBits) :
    |x.value| = unitsOf x.magnitudeBits / twoTo unitExponent := by
  rw [value_eq h, abs_withSign, abs_of_nonneg (div_nonneg (Nat.cast_nonneg _) unit_pos.le)]

theorem magnitudeBits_abs (x : Binary64) : x.abs.magnitudeBits = x.magnitudeBits :=
  magnitudeBits_ofMagnitudeBits false x.magnitudeBits_lt

theorem isNegative_abs (x : Binary64) : x.abs.isNegative = false :=
  isNegative_ofMagnitudeBits false x.magnitudeBits_lt

/-- A number is rounded to a double: no other double is nearer, and one that is as near is odd. -/
def RoundsTo (q : ℚ) (x : Binary64) : Prop :=
  ∀ y : Binary64, y.isNaN = false → y.value ≠ x.value →
    |q - x.value| < |q - y.value| ∨ |q - x.value| = |q - y.value| ∧ x.magnitudeBits % 2 = 0

theorem value_ofMagnitudeBits (negative : Bool) {m : Nat} (h : m ≤ infinityBits) :
    (ofMagnitudeBits negative m).value = withSign negative (unitsOf m / twoTo unitExponent) := by
  have hlt : m < signedLimit := Nat.lt_of_le_of_lt h (by decide)
  have hbits := magnitudeBits_ofMagnitudeBits negative hlt
  rw [value_eq (hbits.symm ▸ h), hbits, isNegative_ofMagnitudeBits negative hlt]

/-- Distances of numbers are distances in units. -/
theorem abs_sub_value (q : ℚ) {x : Binary64} (h : x.magnitudeBits ≤ infinityBits) :
    |q - x.value| = |q * twoTo unitExponent - withSign x.isNegative (unitsOf x.magnitudeBits)| /
      twoTo unitExponent := by
  have hunit := unit_pos
  have hscaled : x.value * twoTo unitExponent =
      withSign x.isNegative (unitsOf x.magnitudeBits) := by
    rw [value_eq h]
    cases x.isNegative with
    | false => exact div_mul_cancel₀ _ hunit.ne'
    | true => exact (neg_mul ..).trans (congrArg Neg.neg (div_mul_cancel₀ _ hunit.ne'))
  rw [← hscaled, ← sub_mul, abs_mul, abs_of_pos hunit, mul_div_cancel_right₀ _ hunit.ne']

section

variable {q : ℚ} {x : Binary64}

/-- Only the magnitudes above infinity are no doubles, and nothing is rounded to these. -/
theorem RoundsTo.between (h : RoundsTo q x) (hfinite : x.magnitudeBits < infinityBits)
    (hsign : x.isNegative = false) : Between (q * twoTo unitExponent) x.magnitudeBits := by
  have hunit := unit_pos
  have hdoubles : ∀ n ≤ infinityBits, n ≠ x.magnitudeBits →
      |q * twoTo unitExponent - unitsOf x.magnitudeBits| < |q * twoTo unitExponent - unitsOf n| ∨
      |q * twoTo unitExponent - unitsOf x.magnitudeBits| = |q * twoTo unitExponent - unitsOf n| ∧
        x.magnitudeBits % 2 = 0 := by
    intro n hn hne
    have hlimit : n < signedLimit := Nat.lt_of_le_of_lt hn (by decide)
    have hbits := magnitudeBits_ofMagnitudeBits false hlimit
    have hpositive := isNegative_ofMagnitudeBits false hlimit
    have hdistinct : (ofMagnitudeBits false n).value ≠ x.value := by
      rw [value_ofMagnitudeBits false hn, value_eq (Nat.le_of_lt hfinite), hsign]
      show (unitsOf n / twoTo unitExponent : ℚ) ≠ unitsOf x.magnitudeBits / twoTo unitExponent
      rw [Ne, div_left_inj' hunit.ne', Nat.cast_inj]
      exact fun heq => hne (unitsOf_strictMono.injective heq)
    have hnear := h _ (isNaN_eq_false_iff.2 (hbits.symm ▸ hn)) hdistinct
    rw [abs_sub_value q (Nat.le_of_lt hfinite), abs_sub_value q (hbits.symm ▸ hn),
      div_lt_div_iff_of_pos_right hunit, div_left_inj' hunit.ne', hbits, hpositive, hsign] at hnear
    exact hnear
  refine Nearest.between fun n hne => ?_
  rcases Nat.lt_or_ge infinityBits n with hbeyond | hn
  · -- infinity is nearer than what is beyond it
    have hself := unitsOf_lt_cast hfinite
    have hfar := unitsOf_lt_cast hbeyond
    have hnear := hdoubles infinityBits (Nat.le_refl _) (Nat.ne_of_gt hfinite)
    have hle : |q * twoTo unitExponent - unitsOf x.magnitudeBits| ≤
        |q * twoTo unitExponent - unitsOf infinityBits| :=
      hnear.elim le_of_lt fun h => le_of_eq h.1
    have hbelow : q * twoTo unitExponent < unitsOf infinityBits := by
      by_contra hnot
      rw [abs_of_nonneg (by linarith), abs_of_nonneg (by linarith)] at hle
      linarith
    rw [abs_of_neg (show q * twoTo unitExponent - unitsOf infinityBits < 0 by linarith)] at hle
    rw [abs_of_neg (show q * twoTo unitExponent - unitsOf n < 0 by linarith)]
    exact .inl (by linarith)
  · exact hdoubles n hn hne

theorem Between.roundsTo (h : Between (q * twoTo unitExponent) x.magnitudeBits) (hq : 0 < q)
    (hfinite : x.magnitudeBits < infinityBits) (hsign : x.isNegative = false) : RoundsTo q x := by
  have hunit := unit_pos
  have hscaled : 0 < q * twoTo unitExponent := mul_pos hq hunit
  intro y hnan hdistinct
  have hy := isNaN_eq_false_iff.1 hnan
  rw [abs_sub_value q (Nat.le_of_lt hfinite), abs_sub_value q hy,
    div_lt_div_iff_of_pos_right hunit, div_left_inj' hunit.ne', hsign]
  rw [value_eq hy, value_eq (Nat.le_of_lt hfinite), hsign] at hdistinct
  show |q * twoTo unitExponent - unitsOf x.magnitudeBits| < _ ∨
    |q * twoTo unitExponent - unitsOf x.magnitudeBits| = _ ∧ _
  cases hnegative : y.isNegative with
  | false =>
    rw [hnegative] at hdistinct
    exact h.nearest y.magnitudeBits fun heq => hdistinct (by rw [heq])
  | true =>
    rw [hnegative] at hdistinct
    have hself : (0 : ℚ) ≤ unitsOf x.magnitudeBits := Nat.cast_nonneg _
    have hother : (0 : ℚ) ≤ unitsOf y.magnitudeBits := Nat.cast_nonneg _
    have hdistance : |q * twoTo unitExponent - withSign true (unitsOf y.magnitudeBits)| =
        q * twoTo unitExponent + unitsOf y.magnitudeBits := by
      show |q * twoTo unitExponent - -(unitsOf y.magnitudeBits : ℚ)| = _
      rw [sub_neg_eq_add, abs_of_pos (by linarith)]
    have hle : |q * twoTo unitExponent - unitsOf y.magnitudeBits| ≤
        q * twoTo unitExponent + unitsOf y.magnitudeBits :=
      abs_le.2 ⟨by linarith, by linarith⟩
    rw [hdistance]
    by_cases heq : y.magnitudeBits = x.magnitudeBits
    · -- the same magnitude on the other side of zero
      have hpos : (0 : ℚ) < unitsOf x.magnitudeBits := by
        refine lt_of_le_of_ne hself fun hzero => hdistinct ?_
        rw [heq, ← hzero, zero_div]
        exact neg_zero
      rw [heq]
      exact .inl (abs_lt.2 ⟨by linarith, by linarith⟩)
    · rcases h.nearest y.magnitudeBits heq with hnear | ⟨hnear, heven⟩
      · exact .inl (lt_of_lt_of_le hnear hle)
      · rcases lt_or_eq_of_le hle with hlt | hsame
        · exact .inl (hnear ▸ hlt)
        · exact .inr ⟨hnear.trans hsame, heven⟩

end

/-! ## Rounding intervals -/

/-- A number is in the interval; the ends count if it is closed. -/
def Neighbourhood.Contains (n : Neighbourhood) (q : ℚ) : Prop :=
  if n.closed then
    (n.lower : ℚ) ≤ q * twoTo (unitExponent + 2) ∧ q * twoTo (unitExponent + 2) ≤ n.upper
  else (n.lower : ℚ) < q * twoTo (unitExponent + 2) ∧ q * twoTo (unitExponent + 2) < n.upper

theorem scaleOf_pred {m : Nat} (h : 0 < m) :
    scaleOf (m - 1) =
      if coefficientOf m = twoTo fractionBits ∧ 0 < scaleOf m then scaleOf m - 1 else scaleOf m := by
  unfold coefficientOf scaleOf
  rw [twoTo_fractionBits]
  split <;> split <;> omega

theorem coefficientOf_parity (m : Nat) : coefficientOf m % 2 = m % 2 := by
  unfold coefficientOf
  rw [twoTo_fractionBits]
  split <;> omega

/-- The interval of a magnitude goes from midway below to midway above. -/
theorem neighbourhood_eq {m : Nat} (h : 0 < m) :
    neighbourhood (coefficientOf m) (scaleOf m) =
      { lower := 2 * (unitsOf (m - 1) + unitsOf m)
        value := 4 * unitsOf m
        upper := 2 * (unitsOf m + unitsOf (m + 1))
        closed := m % 2 = 0 } := by
  have hvalue : coefficientOf m * twoTo (scaleOf m + 2) = 4 * unitsOf m := by
    rw [unitsOf, twoTo_add]
    show coefficientOf m * (twoTo (scaleOf m) * 4) = _
    ring
  have hbelow : unitsOf m = unitsOf (m - 1) + twoTo (scaleOf (m - 1)) := by
    rw [← unitsOf_succ, Nat.sub_add_cancel h]
  have habove := unitsOf_succ m
  have hscale := scaleOf_pred h
  unfold neighbourhood
  rw [hvalue, coefficientOf_parity, Neighbourhood.mk.injEq]
  refine ⟨?_, rfl, ?_, rfl⟩
  · split
    · next hfirst =>
      rw [if_pos hfirst] at hscale
      have htwice : twoTo (scaleOf m) = 2 * twoTo (scaleOf (m - 1)) := by
        rw [← twoTo_succ, hscale, Nat.sub_add_cancel hfirst.2]
      omega
    · next hfirst =>
      rw [if_neg hfirst] at hscale
      rw [hscale] at hbelow
      rw [twoTo_succ]
      omega
  · rw [twoTo_succ]
    omega

/-- A number is in the interval of a magnitude if it is rounded to it. -/
theorem contains_iff {m : Nat} (h : 0 < m) {q : ℚ} :
    (neighbourhood (coefficientOf m) (scaleOf m)).Contains q ↔
      Between (q * twoTo unitExponent) m := by
  have hquarters : q * (twoTo (unitExponent + 2) : Nat) = 4 * (q * twoTo unitExponent) := by
    rw [twoTo_add, Nat.cast_mul]
    show q * (twoTo unitExponent * (4 : Nat)) = _
    push_cast
    ring
  rw [neighbourhood_eq h]
  unfold Neighbourhood.Contains
  dsimp only
  rw [hquarters]
  push_cast
  by_cases heven : m % 2 = 0
  · rw [if_pos (decide_eq_true heven)]
    constructor
    · rintro ⟨hlower, hupper⟩
      refine ⟨fun _ => ?_, ?_⟩
      · rcases lt_or_eq_of_le hlower with hlt | heq
        · exact .inl (by linarith)
        · exact .inr ⟨by linarith, heven⟩
      · rcases lt_or_eq_of_le hupper with hlt | heq
        · exact .inl (by linarith)
        · exact .inr ⟨by linarith, heven⟩
    · intro hbetween
      have hlower := hbetween.lower h
      have hupper := hbetween.upper
      constructor
      · rcases hlower with hlower | ⟨hlower, -⟩ <;> linarith
      · rcases hupper with hupper | ⟨hupper, -⟩ <;> linarith
  · rw [if_neg (by simpa using heven)]
    constructor
    · rintro ⟨hlower, hupper⟩
      exact ⟨fun _ => .inl (by linarith), .inl (by linarith)⟩
    · intro hbetween
      have hlower := (hbetween.lower h).resolve_right fun hnot => heven hnot.2
      have hupper := hbetween.upper.resolve_right fun hnot => heven hnot.2
      exact ⟨by linarith, by linarith⟩

end TagTemplate.Binary64
