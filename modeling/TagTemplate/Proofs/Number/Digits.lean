import TagTemplate.Number.Text
import Mathlib.Algebra.Ring.Nat

/-!
# Decimal digits

Numerals, and what digits denote. Main statements: `exists_zeros_toDigits`, digits are zeros and
then the numeral of the number that they denote; `toDigits_mul_pow`, a power of ten appends zeros;
`lt_pow_length_toDigits` and `pow_le_of_toDigits`, the length of a numeral bounds its number.
-/

namespace TagTemplate

theorem isDigit_iff_between {c : Char} : c.isDigit = true ↔ '0' ≤ c ∧ c ≤ '9' := by
  simp only [Char.isDigit_iff_toNat, Char.le_def, UInt32.le_iff_toNat_le]
  exact Iff.rfl

/-- A digit is written as it is read. -/
theorem digitChar_of_isDigit {c : Char} (h : c.isDigit = true) :
    (c.toNat - '0'.toNat).digitChar = c ∧ c.toNat - '0'.toNat < 10 := by
  obtain ⟨hlow, hhigh⟩ := Char.isDigit_iff_toNat.mp h
  have hlow' : 48 ≤ c.toNat := hlow
  have hhigh' : c.toNat ≤ 57 := hhigh
  have hlt : c.toNat - 48 < 10 := by omega
  refine ⟨Char.toNat_inj.mp ?_, hlt⟩
  show (c.toNat - 48).digitChar.toNat = c.toNat
  rw [Nat.toNat_digitChar_of_lt_ten hlt]
  omega

/-- Digits behind a numeral lengthen it. -/
theorem toDigits_append {digits : List Char} (hdigits : ∀ c ∈ digits, c.isDigit = true) {n : Nat}
    (hn : 0 < n) :
    Nat.toDigits 10 n ++ digits = Nat.toDigits 10 (Nat.ofDigitChars 10 digits n) := by
  induction digits generalizing n with
  | nil => rw [List.append_nil, Nat.ofDigitChars_nil]
  | cons c digits ih =>
    obtain ⟨hchar, hlt⟩ := digitChar_of_isDigit (hdigits c List.mem_cons_self)
    have hstep : Nat.toDigits 10 n ++ [c] =
        Nat.toDigits 10 (10 * n + (c.toNat - '0'.toNat)) := by
      rw [← Nat.toDigits_append_toDigits (by decide) hn hlt, Nat.toDigits_of_lt_base hlt, hchar]
    calc Nat.toDigits 10 n ++ c :: digits
        = (Nat.toDigits 10 n ++ [c]) ++ digits := by rw [List.append_assoc, List.singleton_append]
      _ = Nat.toDigits 10 (10 * n + (c.toNat - '0'.toNat)) ++ digits := by rw [hstep]
      _ = Nat.toDigits 10 (Nat.ofDigitChars 10 (c :: digits) n) := by
          rw [ih (fun d hd => hdigits d (List.mem_cons_of_mem c hd)) (by omega),
            Nat.ofDigitChars_cons]

/-- Digits are zeros and then the numeral of the number that they denote. -/
theorem exists_zeros_toDigits {digits : List Char} (hne : digits ≠ [])
    (hdigits : ∀ c ∈ digits, c.isDigit = true) :
    ∃ zeros, digits =
      List.replicate zeros '0' ++ Nat.toDigits 10 (Nat.ofDigitChars 10 digits 0) := by
  induction digits with
  | nil => exact absurd rfl hne
  | cons c digits ih =>
    have hrest : ∀ d ∈ digits, d.isDigit = true := fun d hd => hdigits d (List.mem_cons_of_mem c hd)
    by_cases hzero : c = '0'
    · subst hzero
      by_cases hnil : digits = []
      · exact ⟨0, by subst hnil; decide⟩
      · obtain ⟨zeros, hsplit⟩ := ih hnil hrest
        exact ⟨zeros + 1, congrArg (List.cons '0') hsplit⟩
    · obtain ⟨hchar, hlt⟩ := digitChar_of_isDigit (hdigits c List.mem_cons_self)
      have hpos : 0 < c.toNat - '0'.toNat := by
        rcases Nat.eq_zero_or_pos (c.toNat - '0'.toNat) with hnull | hpos
        · rw [hnull] at hchar
          exact absurd hchar.symm hzero
        · exact hpos
      refine ⟨0, ?_⟩
      rw [List.replicate_zero, List.nil_append, Nat.ofDigitChars_cons, Nat.mul_zero, Nat.zero_add,
        ← toDigits_append hrest hpos, Nat.toDigits_of_lt_base hlt, hchar, List.singleton_append]

/-- Zeros in front do not change the number. -/
theorem ofDigitChars_zeros (zeros n : Nat) :
    Nat.ofDigitChars 10 (List.replicate zeros '0' ++ Nat.toDigits 10 n) 0 = n := by
  rw [Nat.ofDigitChars_append, Nat.ofDigitChars_replicate_zero, Nat.mul_zero,
    Nat.ofDigitChars_ten_toDigits]

theorem isDigit_of_mem_zeros {zeros n : Nat} {c : Char}
    (h : c ∈ List.replicate zeros '0' ++ Nat.toDigits 10 n) : c.isDigit = true := by
  rcases List.mem_append.mp h with hzero | hdigit
  · rw [List.eq_of_mem_replicate hzero]
    rfl
  · exact Nat.isDigit_of_mem_toDigits (by decide) (Nat.le_refl 10) hdigit

theorem isDigit_of_mem_toDigits {n : Nat} {c : Char} (h : c ∈ Nat.toDigits 10 n) :
    c.isDigit = true :=
  Nat.isDigit_of_mem_toDigits (by decide) (Nat.le_refl 10) h

/-- A power of ten appends zeros to a numeral. -/
theorem toDigits_mul_pow {n : Nat} (hn : 0 < n) (zeros : Nat) :
    Nat.toDigits 10 (n * 10 ^ zeros) = Nat.toDigits 10 n ++ List.replicate zeros '0' := by
  rw [toDigits_append (fun c hc => List.eq_of_mem_replicate hc ▸ rfl) hn,
    Nat.ofDigitChars_replicate_zero, Nat.mul_comm]

/-- A numeral of so many digits denotes a number below so large a power of ten. -/
theorem lt_pow_length_toDigits (n : Nat) : n < 10 ^ (Nat.toDigits 10 n).length :=
  (Nat.length_toDigits_le_iff (by decide) Nat.length_toDigits_pos).1 (Nat.le_refl _)

theorem pow_le_of_toDigits {n : Nat} (hn : 0 < n) : 10 ^ ((Nat.toDigits 10 n).length - 1) ≤ n := by
  rcases Nat.eq_zero_or_pos ((Nat.toDigits 10 n).length - 1) with hzero | hpos
  · rw [hzero]
    exact hn
  · refine Nat.le_of_not_lt fun hlt => ?_
    have hle := (Nat.length_toDigits_le_iff (by decide) hpos).2 hlt
    omega

namespace Binary64

theorem isDigit_eq (c : Char) : isDigit c = c.isDigit := by
  rw [Bool.eq_iff_iff, isDigit_iff_between]
  simp [isDigit]

theorem ofDigits_eq (digits : List Char) : ofDigits digits = Nat.ofDigitChars 10 digits 0 := rfl

theorem ofDigits_toDigits (n : Nat) : ofDigits (Nat.toDigits 10 n) = n :=
  Nat.ofDigitChars_ten_toDigits

theorem ofDigits_append_zeros (digits : List Char) (zeros : Nat) :
    ofDigits (digits ++ List.replicate zeros '0') = ofDigits digits * 10 ^ zeros := by
  rw [ofDigits_eq, Nat.ofDigitChars_append, Nat.ofDigitChars_replicate_zero, Nat.mul_comm]
  rfl

theorem ofDigits_zeros_append (digits : List Char) (zeros : Nat) :
    ofDigits (List.replicate zeros '0' ++ digits) = ofDigits digits := by
  rw [ofDigits_eq, Nat.ofDigitChars_append, Nat.ofDigitChars_replicate_zero, Nat.mul_zero]
  rfl

/-- The numeral of the number that digits denote has no more digits than they are. -/
theorem length_toDigits_ofDigits_le {digits : List Char} (hne : digits ≠ [])
    (hdigits : ∀ c ∈ digits, c.isDigit = true) :
    (Nat.toDigits 10 (ofDigits digits)).length ≤ digits.length := by
  obtain ⟨zeros, hsplit⟩ := exists_zeros_toDigits hne hdigits
  have hlength := congrArg List.length hsplit
  rw [List.length_append, List.length_replicate] at hlength
  rw [ofDigits_eq]
  omega

end Binary64

end TagTemplate
