import TagTemplate.Proofs.Number.Reading
import TagTemplate.Proofs.Number.Shortest

/-!
# The layout of a number

Where the digits of a decimal stand in its text, around the point or before an exponent. Main
statements: `positional_eq` and `scientific_eq`, the two notations are one layout, chosen by the
place of the point; `numberText_integer`, an integer is laid out with all its digits if its decimal
is exact; `numeral_numberText`, the text spells the decimal.
-/

namespace TagTemplate

/-- The text of a number from its digits and the place of the point, counted from their start: after
the digits and zeros up to 21 places, among the digits, before them and up to five zeros, or else
after the first digit, with a signed exponent. -/
def numberText (digits : List Char) (point : Int) : List Char :=
  if digits.length ≤ point ∧ point ≤ 21 then
    digits ++ List.replicate (point - digits.length).toNat '0'
  else if 0 < point ∧ point ≤ 21 then
    digits.take point.toNat ++ '.' :: digits.drop point.toNat
  else if -6 < point ∧ point ≤ 0 then
    '0' :: '.' :: (List.replicate (-point).toNat '0' ++ digits)
  else
    digits.take 1 ++ (if digits.length = 1 then [] else '.' :: digits.drop 1) ++
      'e' :: (if 0 < point then '+' else '-') :: Nat.toDigits 10 (point - 1).natAbs

/-! ## Layouts -/

namespace Decimal

theorem positional_eq {d : Decimal} (hlower : -6 < d.point) (hupper : d.point ≤ 21) :
    d.positional = numberText d.digits d.point := by
  have hlength := d.digits_length_pos
  have hpoint : d.point = d.digits.length + d.exponent := rfl
  unfold positional numberText
  cases hexponent : d.exponent with
  | ofNat e =>
    rw [hexponent] at hpoint
    have hzeros : (d.point - d.digits.length).toNat = e := by
      rw [hpoint]
      simp
    rw [if_pos ⟨by rw [hpoint]; simp, hupper⟩, hzeros]
  | negSucc e =>
    rw [hexponent, Int.negSucc_eq] at hpoint
    rw [if_neg (by omega)]
    dsimp only
    by_cases hpos : 0 < d.point
    · have hpadding : e + 1 + 1 - d.digits.length = 0 := by omega
      have htake : d.digits.length - (e + 1) = d.point.toNat := by omega
      rw [if_pos ⟨hpos, hupper⟩, hpadding, List.replicate_zero, List.nil_append, htake]
    · obtain ⟨zeros, hzeros⟩ : ∃ zeros, e + 1 + 1 - d.digits.length = zeros + 1 :=
        ⟨e + 1 - d.digits.length, by omega⟩
      have hcount : (-d.point).toNat = zeros := by omega
      have htake : (List.replicate (zeros + 1) '0' ++ d.digits).length - (e + 1) = 1 := by
        rw [List.length_append, List.length_replicate]
        omega
      rw [if_neg (fun h => hpos h.1), if_pos ⟨hlower, by omega⟩, hzeros, htake, hcount]
      rfl

theorem scientific_eq {d : Decimal} (h : ¬(-6 < d.point ∧ d.point ≤ 21)) :
    d.scientific numberFormat = numberText d.digits d.point := by
  have hlength := d.digits_length_pos
  have hpower : d.exponent + (d.digits.length - 1 : Nat) = d.point - 1 := by
    unfold point
    omega
  have htail : (d.digits.drop 1).isEmpty = true ↔ d.digits.length = 1 := by
    rw [List.isEmpty_iff, List.drop_eq_nil_iff]
    omega
  have hlayout : numberText d.digits d.point =
      d.digits.take 1 ++ (if d.digits.length = 1 then [] else '.' :: d.digits.drop 1) ++
        'e' :: (if 0 < d.point then '+' else '-') :: Nat.toDigits 10 (d.point - 1).natAbs := by
    unfold numberText
    rw [if_neg (by omega), if_neg (by omega), if_neg (by omega)]
  unfold scientific
  dsimp only
  rw [hlayout, hpower, if_congr htail rfl rfl, List.append_assoc (d.digits.take 1 ++ _)]
  congr 1
  cases hsign : d.point - 1 with
  | ofNat n =>
    have hpositive : 0 ≤ d.point - 1 := hsign ▸ Int.natCast_nonneg n
    rw [if_pos (by omega)]
    rfl
  | negSucc n =>
    have hnegative : d.point - 1 < 0 := hsign ▸ Int.negSucc_lt_zero n
    rw [if_neg (by omega)]
    rfl

/-- An integer has the digits of its shortest decimal and zeros behind them, if that is exact. -/
theorem numberText_integer {d : Decimal} {N : Nat} (htrimmed : d.coefficient % 10 ≠ 0)
    (hvalue : d.value = N) (hpoint : d.point ≤ 21) :
    numberText d.digits d.point = Nat.toDigits 10 N := by
  have hcoefficient : 0 < d.coefficient := by omega
  have hexponent : 0 ≤ d.exponent := by
    by_contra hnegative
    obtain ⟨k, hk⟩ : ∃ k : Nat, d.exponent = -((k : Int) + 1) := ⟨(-d.exponent - 1).toNat, by omega⟩
    have hsplit : d.coefficient = N * 10 ^ k * 10 := by
      have hscaled : (d.coefficient : ℚ) = N * 10 ^ k * 10 := by
        rw [← hvalue, mul_assoc, ← pow_succ, Decimal.value, hk, ← zpow_natCast, mul_assoc,
          ← zpow_add₀ (by norm_num)]
        norm_num
      exact_mod_cast hscaled
    rw [hsplit, Nat.mul_mod_left] at htrimmed
    exact htrimmed rfl
  obtain ⟨k, hk⟩ := Int.eq_ofNat_of_zero_le hexponent
  have hN : N = d.coefficient * 10 ^ k := by
    have hcast : (N : ℚ) = d.coefficient * 10 ^ k := by
      rw [← hvalue, Decimal.value, hk, zpow_natCast]
    exact_mod_cast hcast
  have hplace : d.point = d.digits.length + k := by
    rw [← hk]
    rfl
  have hzeros : (d.point - d.digits.length).toNat = k := by omega
  rw [numberText, if_pos ⟨by omega, hpoint⟩, hzeros, hN, toDigits_mul_pow hcoefficient]
  rfl

end Decimal

/-! ## Reading the layouts -/

namespace Binary64

theorem exponentOf?_mark {sign : Char} {digits : List Char} (hsign : sign = '+' ∨ sign = '-')
    (hne : digits ≠ []) (hdigits : ∀ c ∈ digits, c.isDigit = true) :
    exponentOf? ('e' :: sign :: digits) =
      some (if sign = '-' then -(ofDigits digits : Int) else ofDigits digits) := by
  have hall : (digits.isEmpty || !digits.all isDigit) = false := by
    rw [Bool.or_eq_false_iff, Bool.not_eq_false', List.isEmpty_eq_false_iff, List.all_eq_true]
    exact ⟨hne, fun c hc => isDigit_eq c ▸ hdigits c hc⟩
  rw [exponentOf?, if_pos (.inl rfl)]
  rcases hsign with rfl | rfl
  · show (if (digits.isEmpty || !digits.all isDigit) = true then none else _) = _
    rw [hall]
    rfl
  · show (if (digits.isEmpty || !digits.all isDigit) = true then none else _) = _
    rw [hall]
    rfl

theorem exponentOf?_power (power : Int) :
    exponentOf? ('e' :: (if 0 ≤ power then '+' else '-') :: Nat.toDigits 10 power.natAbs) =
      some power := by
  rw [exponentOf?_mark (by split <;> simp) Nat.toDigits_ne_nil fun _ => isDigit_of_mem_toDigits,
    ofDigits_toDigits]
  split
  · rw [if_neg (by decide)]
    exact congrArg some (Int.natAbs_of_nonneg ‹_›)
  · rw [if_pos rfl]
    exact congrArg some (by omega)

/-- The text spells the decimal, perhaps with zeros before and behind its digits. -/
theorem numeral_numberText (d : Decimal) :
    ∃ (before after : Nat) (exponent : Int), exponent + after = d.exponent ∧
      min d.exponent 0 ≤ exponent ∧
      Numeral (numberText d.digits d.point)
        (List.replicate before '0' ++ d.digits ++ List.replicate after '0') exponent := by
  have hlength := d.digits_length_pos
  have hne : d.digits ≠ [] := List.ne_nil_of_length_pos hlength
  have hdigits : ∀ c ∈ d.digits, c.isDigit = true := fun _ => isDigit_of_mem_toDigits
  have hzeros : ∀ n, ∀ c ∈ List.replicate n '0', c.isDigit = true := fun n c hc =>
    List.eq_of_mem_replicate hc ▸ rfl
  have htake : ∀ {k : Nat}, ∀ c ∈ d.digits.take k, c.isDigit = true := fun c hc =>
    hdigits c (List.mem_of_mem_take hc)
  have hdrop : ∀ {k : Nat}, ∀ c ∈ d.digits.drop k, c.isDigit = true := fun c hc =>
    hdigits c (List.mem_of_mem_drop hc)
  have hpoint : d.point = d.digits.length + d.exponent := rfl
  unfold numberText
  split
  · refine ⟨0, (d.point - d.digits.length).toNat, 0, by omega, by omega, ?_⟩
    have hnumeral := @Numeral.whole (d.digits ++ List.replicate (d.point - d.digits.length).toNat '0')
      [] 0 (List.append_ne_nil_of_left_ne_nil hne _)
      (List.forall_mem_append.2 ⟨hdigits, hzeros _⟩) rfl
    rwa [List.append_nil] at hnumeral
  split
  · refine ⟨0, 0, d.exponent, by omega, by omega, ?_⟩
    have hnumeral := @Numeral.pointed (d.digits.take d.point.toNat) (d.digits.drop d.point.toNat) [] 0
      (by rwa [List.take_append_drop]) htake hdrop rfl
    have hexponent : (0 : Int) - (d.digits.length - d.point.toNat : Nat) = d.exponent := by omega
    rw [List.append_nil, List.take_append_drop, List.length_drop, hexponent] at hnumeral
    rwa [List.replicate_zero, List.nil_append, List.append_nil]
  split
  · refine ⟨(-d.point).toNat + 1, 0, d.exponent, by omega, by omega, ?_⟩
    have hnumeral := @Numeral.pointed ['0'] (List.replicate (-d.point).toNat '0' ++ d.digits) [] 0
      (List.cons_ne_nil _ _) (hzeros 1) (List.forall_mem_append.2 ⟨hzeros _, hdigits⟩) rfl
    have hexponent : (0 : Int) - ((-d.point).toNat + d.digits.length : Nat) = d.exponent := by omega
    rw [List.append_nil, List.length_append, List.length_replicate, hexponent] at hnumeral
    rw [List.replicate_zero, List.append_nil]
    exact hnumeral
  · refine ⟨0, 0, d.exponent, by omega, by omega, ?_⟩
    have htail := exponentOf?_power (d.point - 1)
    rw [if_congr (show 0 ≤ d.point - 1 ↔ 0 < d.point by omega) rfl rfl] at htail
    rw [List.replicate_zero, List.nil_append, List.append_nil]
    split
    · next hone =>
      have hnumeral := Numeral.whole hne hdigits htail
      have hexponent : d.point - 1 = d.exponent := by omega
      rw [hexponent] at hnumeral ⊢
      rwa [List.append_nil, List.take_of_length_le hone.le]
    · have hnumeral := @Numeral.pointed (d.digits.take 1) (d.digits.drop 1) _ _
        (by rwa [List.take_append_drop]) htake hdrop htail
      have hexponent : d.point - 1 - (d.digits.length - 1 : Nat) = d.exponent := by omega
      rw [List.take_append_drop 1, List.length_drop, hexponent] at hnumeral
      rwa [List.append_assoc]

theorem significantDigits_numberText (negative : Bool) (d : Decimal) :
    significantDigits ((if negative then "-" else "") ++
      String.ofList (numberText d.digits d.point)) ≤ d.digits.length := by
  obtain ⟨before, after, exponent, -, -, hnumeral⟩ := numeral_numberText d
  have hmantissa : mantissa ((if negative then "-" else "") ++
      String.ofList (numberText d.digits d.point)).toList = mantissa (numberText d.digits d.point) := by
    cases negative with
    | false => simp
    | true =>
      rw [String.toList_append, String.toList_ofList]
      rfl
  unfold significantDigits
  rw [hmantissa, hnumeral.mantissa_eq]
  exact length_significant_le before after d.digits

end Binary64

end TagTemplate
