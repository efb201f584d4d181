import TagTemplate.Proofs.Number.Layout
import TagTemplate.Value.Display

/-!
# The text of a number

Which text a finite number has, and that it is read back. Main statement: `float_display`, the text
has the digits of a shortest decimal, laid out by the place of the point, except that an integer
from `2 ^ 53` to below `10 ^ 21` has all its digits; in any case it is read as the number.
`integer_display_not_shortest` is an integer that has more digits than it needs.
-/

namespace TagTemplate

namespace Binary64

/-! ## Reading texts -/

section

variable {x : Binary64} (hpos : 0 < x.magnitudeBits) (hfinite : x.magnitudeBits < infinityBits)
include hpos hfinite

omit hpos in
/-- A numeral that spells a number which is rounded to a double is read as the double. -/
theorem Numeral.read {cs digits : List Char} {exponent : Int} (h : Numeral cs digits exponent)
    (hdigits : 0 < ofDigits digits) (hupper : exponent ≤ decimalReach)
    (hlower : -exponent ≤ decimalReach)
    (hbetween : Between ((ofDigits digits * 10 ^ exponent : ℚ) * twoTo unitExponent)
      x.magnitudeBits) :
    ofText? ((if x.isNegative then "-" else "") ++ String.ofList cs) = some x := by
  rw [h.ofText?_eq, ofDecimal_eq hfinite hdigits hupper (by omega) hbetween]

theorem Coarsest.read_numberText {d : Decimal} (h : Coarsest x.magnitudeBits d)
    (hlower : -(gridOffset : Int) ≤ d.exponent) (hupper : d.exponent < gridOffset) :
    ofText? ((if x.isNegative then "-" else "") ++ String.ofList (numberText d.digits d.point)) =
      some x := by
  obtain ⟨before, after, exponent, hexponent, hleast, hnumeral⟩ := numeral_numberText d
  have hreach : (gridOffset : Int) ≤ decimalReach := by decide
  have hdigits : ofDigits (List.replicate before '0' ++ d.digits ++ List.replicate after '0') =
      d.coefficient * 10 ^ after := by
    rw [ofDigits_append_zeros, ofDigits_zeros_append, Decimal.digits, ofDigits_toDigits]
  have hvalue : ((d.coefficient * 10 ^ after : Nat) : ℚ) * 10 ^ exponent = d.value := by
    rw [append_zeros_value, hexponent]
    rfl
  refine hnumeral.read hfinite ?_ (by omega) (by omega) ?_
  · rw [hdigits]
    exact Nat.mul_pos (Coarsest.coefficient_pos hpos h.between) (Nat.pow_pos (by decide))
  · rw [hdigits, hvalue]
    exact h.between

/-- No text with fewer significant digits is read as the double. -/
theorem Coarsest.length_le_significantDigits {d : Decimal} (h : Coarsest x.magnitudeBits d)
    {text : String} (hread : ofText? text = some x) : d.digits.length ≤ significantDigits text := by
  obtain ⟨hne, hdigits, negative, exponent, hx⟩ := read_mantissa hread hfinite
  obtain ⟨hcoefficient, -, hbetween⟩ := between_of_ofDecimal hfinite hpos hx
  obtain ⟨before, after, hsplit⟩ := exists_significant (mantissa text.toList)
  have hsignificant : ofDigits (mantissa text.toList) =
      ofDigits (significant (mantissa text.toList)) * 10 ^ after := by
    conv_lhs => rw [hsplit]
    rw [ofDigits_append_zeros, ofDigits_zeros_append]
  have hvalue : (⟨ofDigits (significant (mantissa text.toList)), exponent + after⟩ : Decimal).value =
      ofDigits (mantissa text.toList) * 10 ^ exponent := by
    rw [hsignificant, append_zeros_value]
    rfl
  have hnil : significant (mantissa text.toList) ≠ [] := by
    intro hnil
    rw [hsignificant, hnil] at hcoefficient
    exact absurd hcoefficient (by simp [ofDigits])
  have hmem : ∀ c ∈ significant (mantissa text.toList), c.isDigit = true := by
    intro c hc
    refine hdigits c ?_
    rw [hsplit]
    exact List.mem_append_left _ (List.mem_append_right _ hc)
  rw [← hvalue] at hbetween
  exact (h.length_le hbetween hpos).trans (length_toDigits_ofDigits_le hnil hmem)

end

/-! ## The text of a double -/

/-- The borders of the positional range: both are finite, the lower one is not negative and below
`2 ^ 53`, the upper one is exact. -/
theorem positional_borders :
    (nearest false 1 (tenTo 6)).magnitudeBits < infinityBits ∧
    (nearest false 1 (tenTo 6)).isNegative = false ∧
    unitsOf (nearest false 1 (tenTo 6)).magnitudeBits ≤ twoTo 53 * twoTo unitExponent ∧
    (ofNat (tenTo 21)).magnitudeBits < infinityBits ∧
    unitsOf (ofNat (tenTo 21)).magnitudeBits = tenTo 21 * twoTo unitExponent := by decide +kernel

theorem between_positionalFrom :
    Between ((10 ^ (-6 : Int) : ℚ) * twoTo unitExponent) numberFormat.positionalFrom.magnitudeBits := by
  obtain ⟨hfinite, -⟩ := positional_borders
  have hbetween := ((nearest_eq_iff hfinite (tenTo_pos 6)).1 rfl).2
  rw [Nat.cast_one, cast_tenTo, one_div] at hbetween
  rwa [zpow_neg]

theorem between_positionalBelow :
    Between ((10 ^ (21 : Int) : ℚ) * twoTo unitExponent)
      numberFormat.positionalBelow.magnitudeBits := by
  obtain ⟨-, -, -, hfinite, -⟩ := positional_borders
  have hbetween := ((nearest_eq_iff hfinite Nat.one_pos).1 rfl).2
  rwa [Nat.cast_one, cast_tenTo, div_one] at hbetween

section

variable {x : Binary64} (hpos : 0 < x.magnitudeBits) (hfinite : x.magnitudeBits < infinityBits)

include hpos hfinite in
theorem display_eq :
    x.display = (if x.isNegative then "-" else "") ++ String.ofList (x.displayPositive numberFormat
      (coefficientOf x.magnitudeBits) (scaleOf x.magnitudeBits)) := by
  have hne : coefficientOf x.magnitudeBits ≠ 0 := by
    intro hzero
    have hunits := unitsOf_pos hpos
    rw [unitsOf, hzero, Nat.zero_mul] at hunits
    exact Nat.lt_irrefl 0 hunits
  unfold display displayIn
  rw [classify_finite hfinite]
  exact if_neg hne

include hpos in
theorem Coarsest.positional_iff {d : Decimal} (h : Coarsest x.magnitudeBits d) :
    (x.magnitudeBits < numberFormat.positionalFrom.magnitudeBits ∨
      numberFormat.positionalBelow.magnitudeBits ≤ x.magnitudeBits) ↔
    ¬(-6 < d.point ∧ d.point ≤ 21) := by
  rw [← not_le, h.power_le_iff hpos between_positionalFrom,
    h.power_le_iff hpos between_positionalBelow]
  omega

/-- An integer in the positional range has all its digits. -/
theorem displayPositive_integer {coefficient scale N : Nat}
    (hrange : ¬(x.magnitudeBits < numberFormat.positionalFrom.magnitudeBits ∨
      numberFormat.positionalBelow.magnitudeBits ≤ x.magnitudeBits))
    (hN : coefficient * twoTo scale = N * twoTo unitExponent) :
    x.displayPositive numberFormat coefficient scale = Nat.toDigits 10 N := by
  unfold displayPositive
  dsimp only
  rw [if_neg hrange, hN, Nat.mul_mod_left, if_pos rfl, Nat.mul_div_cancel _ (twoTo_pos _)]

include hpos hfinite in
/-- Any other number has its shortest digits, and so has an integer if these are all its digits. -/
theorem displayPositive_shortest
    (h : ∀ N : Nat, unitsOf x.magnitudeBits = N * twoTo unitExponent →
      ¬(x.magnitudeBits < numberFormat.positionalFrom.magnitudeBits ∨
        numberFormat.positionalBelow.magnitudeBits ≤ x.magnitudeBits) →
      (shortestOf x.magnitudeBits).value = N) :
    x.displayPositive numberFormat (coefficientOf x.magnitudeBits) (scaleOf x.magnitudeBits) =
      numberText (shortestOf x.magnitudeBits).digits (shortestOf x.magnitudeBits).point := by
  obtain ⟨hcoarsest, -, -⟩ := shortestOf_coarsest hpos hfinite
  have hrange := hcoarsest.positional_iff hpos
  by_cases hfar : x.magnitudeBits < numberFormat.positionalFrom.magnitudeBits ∨
      numberFormat.positionalBelow.magnitudeBits ≤ x.magnitudeBits
  · rw [displayPositive, if_pos hfar, ← shortestOf, Decimal.scientific_eq (hrange.1 hfar)]
  · obtain ⟨hlower, hupper⟩ := not_not.1 (mt hrange.2 hfar)
    by_cases hinteger : unitsOf x.magnitudeBits % twoTo unitExponent = 0
    · have hN : unitsOf x.magnitudeBits =
          unitsOf x.magnitudeBits / twoTo unitExponent * twoTo unitExponent :=
        (Nat.div_mul_cancel (Nat.dvd_of_mod_eq_zero hinteger)).symm
      rw [displayPositive_integer hfar hN,
        Decimal.numberText_integer hcoarsest.trimmed (h _ hN hfar) hupper]
    · rw [displayPositive, if_neg hfar, ← unitsOf, ← shortestOf]
      dsimp only
      rw [if_neg hinteger, Decimal.positional_eq hlower hupper]

/-- A number of at least `2 ^ 53` is an integer. -/
theorem exists_integer {m : Nat} (h : twoTo 53 * twoTo unitExponent ≤ unitsOf m) :
    ∃ N, unitsOf m = N * twoTo unitExponent := by
  have hscale : unitExponent ≤ scaleOf m := by
    rw [show twoTo 53 = 2 * twoTo fractionBits from twoTo_succ fractionBits] at h
    exact le_scaleOf_of_le h
  refine ⟨coefficientOf m * twoTo (scaleOf m - unitExponent), ?_⟩
  rw [Nat.mul_assoc, ← twoTo_add, Nat.sub_add_cancel hscale]
  rfl

end

theorem abs_value_le_iff {x y : Binary64} (hx : x.magnitudeBits ≤ infinityBits)
    (hy : y.magnitudeBits ≤ infinityBits) :
    |x.value| ≤ |y.value| ↔ x.magnitudeBits ≤ y.magnitudeBits := by
  rw [abs_value hx, abs_value hy, div_le_div_iff_of_pos_right unit_pos, Nat.cast_le,
    unitsOf_strictMono.le_iff_le]

section

variable {x : Binary64} (hfinite : x.magnitudeBits < infinityBits)
include hfinite

theorem positionalFrom_le_iff :
    (nearest false 1 (tenTo 6)).value ≤ |x.value| ↔
      numberFormat.positionalFrom.magnitudeBits ≤ x.magnitudeBits := by
  obtain ⟨hfrom, hpositive, -⟩ := positional_borders
  have hleast : (nearest false 1 (tenTo 6)).value = |(nearest false 1 (tenTo 6)).value| := by
    rw [abs_value hfrom.le, value_eq hfrom.le, hpositive]
    rfl
  rw [hleast, abs_value_le_iff hfrom.le hfinite.le]
  rfl

theorem lt_positionalBelow_iff :
    |x.value| < 10 ^ 21 ↔ x.magnitudeBits < numberFormat.positionalBelow.magnitudeBits := by
  obtain ⟨-, -, -, hbelow, hunits⟩ := positional_borders
  have hlimit : (10 : ℚ) ^ 21 = |(ofNat (tenTo 21)).value| := by
    rw [abs_value hbelow.le, hunits, Nat.cast_mul, mul_div_cancel_right₀ _ unit_pos.ne',
      cast_tenTo]
  rw [hlimit, ← not_le, abs_value_le_iff hbelow.le hfinite.le, not_le]
  rfl

/-- The positional range begins with the double nearest to `10 ^ -6` and ends before `10 ^ 21`. -/
theorem positional_range :
    (nearest false 1 (tenTo 6)).value ≤ |x.value| ∧ |x.value| < 10 ^ 21 ↔
      ¬(x.magnitudeBits < numberFormat.positionalFrom.magnitudeBits ∨
        numberFormat.positionalBelow.magnitudeBits ≤ x.magnitudeBits) := by
  rw [positionalFrom_le_iff hfinite, lt_positionalBelow_iff hfinite, not_or, not_lt, not_le]

end

section

variable {x : Binary64} (hpos : 0 < x.magnitudeBits) (hfinite : x.magnitudeBits < infinityBits)
include hfinite

theorem abs_value_integer {N : Nat} (hN : unitsOf x.magnitudeBits = N * twoTo unitExponent) :
    |x.value| = N := by
  rw [abs_value hfinite.le, hN, Nat.cast_mul, mul_div_cancel_right₀ _ unit_pos.ne']

include hpos

theorem display_integer {N : Nat} (hN : unitsOf x.magnitudeBits = N * twoTo unitExponent)
    (hnear : ¬(x.magnitudeBits < numberFormat.positionalFrom.magnitudeBits ∨
      numberFormat.positionalBelow.magnitudeBits ≤ x.magnitudeBits)) :
    x.display = (if x.isNegative then "-" else "") ++ String.ofList (Nat.toDigits 10 N) := by
  rw [display_eq hpos hfinite, displayPositive_integer hnear hN]

theorem display_shortest
    (h : |x.value| < 2 ^ 53 ∨ 10 ^ 21 ≤ |x.value| ∨ (shortestOf x.magnitudeBits).value = |x.value|) :
    x.display = (if x.isNegative then "-" else "") ++ String.ofList
      (numberText (shortestOf x.magnitudeBits).digits (shortestOf x.magnitudeBits).point) := by
  obtain ⟨hcoarsest, -, -⟩ := shortestOf_coarsest hpos hfinite
  rw [display_eq hpos hfinite, displayPositive_shortest hpos hfinite fun N hN hnear => ?_]
  have hinteger := abs_value_integer hfinite hN
  rcases h with hsmall | hlarge | hexact
  · refine hcoarsest.value_eq_natCast hpos hN ?_
    rw [hinteger] at hsmall
    exact_mod_cast hsmall
  · exact absurd hlarge (not_le.2 ((positional_range hfinite).2 hnear).2)
  · exact hexact.trans hinteger

/-- The text of a number is read as the number. -/
theorem read_display : ofText? x.display = some x := by
  obtain ⟨hcoarsest, hlower, hupper⟩ := shortestOf_coarsest hpos hfinite
  by_cases hall : ∃ N, unitsOf x.magnitudeBits = N * twoTo unitExponent ∧
      ¬(x.magnitudeBits < numberFormat.positionalFrom.magnitudeBits ∨
        numberFormat.positionalBelow.magnitudeBits ≤ x.magnitudeBits)
  · obtain ⟨N, hN, hnear⟩ := hall
    have hnumeral := @Numeral.whole (Nat.toDigits 10 N) [] 0 Nat.toDigits_ne_nil
      (fun _ => isDigit_of_mem_toDigits) rfl
    have hNpos : 0 < N := by
      have hunits := unitsOf_pos hpos
      rw [hN] at hunits
      exact Nat.pos_of_mul_pos_right hunits
    have hself := between_unitsOf x.magnitudeBits
    rw [List.append_nil] at hnumeral
    rw [display_integer hpos hfinite hN hnear]
    refine hnumeral.read hfinite ?_ (by decide) (by decide) ?_
    · rwa [ofDigits_toDigits]
    · rw [ofDigits_toDigits, zpow_zero, mul_one, ← Nat.cast_mul, ← hN]
      exact hself
  · rw [display_eq hpos hfinite, displayPositive_shortest hpos hfinite fun N hN hnear =>
      absurd ⟨N, hN, hnear⟩ hall]
    exact hcoarsest.read_numberText hpos hfinite hlower hupper

/-- A number from `2 ^ 53` to below `10 ^ 21` is an integer, and its text has all the digits. -/
theorem display_large (hlarge : 2 ^ 53 ≤ |x.value|) (hsmall : |x.value| < 10 ^ 21) :
    ∃ N : Nat, |x.value| = N ∧
      x.display = (if x.isNegative then "-" else "") ++ toString N := by
  rw [abs_value hfinite.le, le_div_iff₀ unit_pos, ← cast_twoTo, ← Nat.cast_mul,
    Nat.cast_le] at hlarge
  obtain ⟨-, -, hfrom, -⟩ := positional_borders
  have hleast := unitsOf_strictMono.le_iff_le.1 (hfrom.trans hlarge)
  obtain ⟨N, hN⟩ := exists_integer hlarge
  refine ⟨N, abs_value_integer hfinite hN, ?_⟩
  rw [display_integer hpos hfinite hN ((positional_range hfinite).1
    ⟨(positionalFrom_le_iff hfinite).2 hleast, hsmall⟩),
    Nat.toString_eq_ofList_toDigits]

end

end Binary64

open Binary64

/-- The text of a finite number is read as the number. It has the digits of a shortest decimal, in
positional notation from the double nearest to `10 ^ -6` to below `10 ^ 21` and else with an
exponent, and no text with fewer significant digits is read as the number. An integer from `2 ^ 53`
to below `10 ^ 21` has all its digits instead. -/
theorem float_display (x : Binary64) (hnan : x.isNaN = false) (hinfinite : x.isInfinite = false) :
    (x.value = 0 →
      (Value.float x).display = "0" ∧ ofText? (Value.float x).display = some (zero false)) ∧
    (x.value ≠ 0 → ofText? (Value.float x).display = some x ∧
      ∃ d, ShortestDecimal x.abs d ∧
        (-6 < d.point ∧ d.point ≤ 21 ↔
          (nearest false 1 (tenTo 6)).value ≤ |x.value| ∧ |x.value| < 10 ^ 21) ∧
        (|x.value| < 2 ^ 53 ∨ 10 ^ 21 ≤ |x.value| ∨ d.value = |x.value| →
          (Value.float x).display = (if x.isNegative then "-" else "") ++
            String.ofList (numberText d.digits d.point) ∧
          ∀ text, ofText? text = some x →
            significantDigits (Value.float x).display ≤ significantDigits text) ∧
        (2 ^ 53 ≤ |x.value| → |x.value| < 10 ^ 21 → ∃ N : Nat, |x.value| = N ∧
          (Value.float x).display = (if x.isNegative then "-" else "") ++ toString N)) := by
  rw [Value.display]
  have hfinite : x.magnitudeBits < infinityBits :=
    Nat.lt_of_le_of_ne (isNaN_eq_false_iff.1 hnan) (of_decide_eq_false hinfinite)
  have hvalue := abs_value hfinite.le
  rcases Nat.eq_zero_or_pos x.magnitudeBits with hzero | hpos
  · have hnull : x.value = 0 := by
      rw [hzero] at hvalue
      exact abs_eq_zero.1 (hvalue.trans (zero_div _))
    have hdisplay : x.display = "0" := by
      unfold display displayIn
      rw [classify_finite hfinite, hzero]
      rfl
    refine ⟨fun _ => ⟨hdisplay, ?_⟩, fun h => absurd hnull h⟩
    rw [hdisplay]
    decide +kernel
  have hne : x.value ≠ 0 := by
    have hunits := unitsOf_pos hpos
    refine abs_pos.1 ?_
    rw [hvalue]
    exact div_pos (Nat.cast_pos.2 hunits) unit_pos
  obtain ⟨hcoarsest, -, -⟩ := shortestOf_coarsest hpos hfinite
  have hrange := (positional_range hfinite).trans (not_congr (hcoarsest.positional_iff hpos))
  have habs : Coarsest x.abs.magnitudeBits (shortestOf x.magnitudeBits) := by
    rwa [magnitudeBits_abs]
  rw [not_not] at hrange
  refine ⟨fun h => absurd h hne, fun _ => ⟨read_display hpos hfinite, shortestOf x.magnitudeBits,
    habs.shortestDecimal (by rwa [magnitudeBits_abs]) (by rwa [magnitudeBits_abs]) x.isNegative_abs,
    hrange.symm, fun h => ?_, display_large hpos hfinite⟩⟩
  have hdisplay := display_shortest hpos hfinite h
  refine ⟨hdisplay, fun text hread => ?_⟩
  calc significantDigits x.display ≤ (shortestOf x.magnitudeBits).digits.length := by
        rw [hdisplay]
        exact significantDigits_numberText _ _
    _ ≤ significantDigits text := hcoarsest.length_le_significantDigits hpos hfinite hread

/-- A tenth is written with its one digit. -/
theorem float_display_tenth :
    (ofDecimal false 1 1 (-1)).isNaN = false ∧ (ofDecimal false 1 1 (-1)).isInfinite = false ∧
      ofText? (Value.float (ofDecimal false 1 1 (-1))).display = some (ofDecimal false 1 1 (-1)) ∧
      ∃ d, ShortestDecimal (ofDecimal false 1 1 (-1)).abs d ∧
        (Value.float (ofDecimal false 1 1 (-1))).display =
          String.ofList (numberText d.digits d.point) := by
  have hnan : (ofDecimal false 1 1 (-1)).isNaN = false := by decide +kernel
  have hinfinite : (ofDecimal false 1 1 (-1)).isInfinite = false := by decide +kernel
  have hpositive : (ofDecimal false 1 1 (-1)).isNegative = false := by decide +kernel
  have hne : (ofDecimal false 1 1 (-1)).value ≠ 0 := by decide +kernel
  have hsmall : |(ofDecimal false 1 1 (-1)).value| < 2 ^ 53 := by decide +kernel
  obtain ⟨hread, d, hshortest, -, htext, -⟩ := (float_display _ hnan hinfinite).2 hne
  have hdisplay := (htext (.inl hsmall)).1
  rw [hpositive, if_neg Bool.false_ne_true, String.empty_append] at hdisplay
  exact ⟨hnan, hinfinite, hread, d, hshortest, hdisplay⟩

/-- The double `2 ^ 60` is written with 19 digits, but 16 are enough. -/
theorem integer_display_not_shortest :
    (Value.float (ofNat (2 ^ 60))).display = "1152921504606846976" ∧
    ofText? "1152921504606847000" = some (ofNat (2 ^ 60)) ∧
    significantDigits "1152921504606847000" <
      significantDigits (Value.float (ofNat (2 ^ 60))).display ∧
    ∀ d, ShortestDecimal (ofNat (2 ^ 60)) d →
      (Value.float (ofNat (2 ^ 60))).display ≠ String.ofList (numberText d.digits d.point) := by
  have hdisplay : (Value.float (ofNat (2 ^ 60))).display = "1152921504606846976" := by
    decide +kernel
  have hread : ofText? "1152921504606847000" = some (ofNat (2 ^ 60)) := by decide +kernel
  refine ⟨hdisplay, hread, by decide +kernel, fun d hd htext => ?_⟩
  have hmany : significantDigits (Value.float (ofNat (2 ^ 60))).display ≤ d.digits.length := by
    have hlength := significantDigits_numberText false d
    rwa [if_neg Bool.false_ne_true, String.empty_append, ← htext] at hlength
  have hfinite : (ofNat (2 ^ 60)).magnitudeBits < infinityBits := by decide +kernel
  have hpos : 0 < (ofNat (2 ^ 60)).magnitudeBits := by decide +kernel
  have hdecimal : ofDecimal false 1152921504606847 16 3 = ofNat (2 ^ 60) := by decide +kernel
  obtain ⟨-, -, hbetween⟩ := between_of_ofDecimal hfinite hpos hdecimal
  have hrounds : RoundsTo (⟨1152921504606847, 3⟩ : Decimal).value (ofNat (2 ^ 60)) :=
    hbetween.roundsTo (hbetween.pos hpos) hfinite (by decide +kernel)
  have hfew := hd.fewest _ hrounds
  rw [hdisplay] at hmany
  exact absurd (hmany.trans hfew) (by decide +kernel)

end TagTemplate
