import TagTemplate.Proofs.Number.Digits
import TagTemplate.Proofs.Number.Rounding
import Mathlib.Data.List.DropRight

/-!
# Numerals

Which texts are read as numbers, and by which digits. Main statements: `Numeral.ofText?_eq`, a
numeral is read as the decimal that it spells; `read_mantissa`, a text that is read as a finite
number is read by the digits before its exponent; `exists_significant`, these are the significant
digits between zeros.
-/

namespace TagTemplate.Binary64

/-- The text of a number without its sign, the digits without the point, and the power of ten that
the last of them counts. -/
inductive Numeral : List Char → List Char → Int → Prop
  | whole {digits tail : List Char} {power : Int} (hne : digits ≠ [])
      (hdigits : ∀ c ∈ digits, c.isDigit = true) (htail : exponentOf? tail = some power) :
      Numeral (digits ++ tail) digits power
  | pointed {whole fraction tail : List Char} {power : Int} (hne : whole ++ fraction ≠ [])
      (hwhole : ∀ c ∈ whole, c.isDigit = true) (hfraction : ∀ c ∈ fraction, c.isDigit = true)
      (htail : exponentOf? tail = some power) :
      Numeral (whole ++ '.' :: (fraction ++ tail)) (whole ++ fraction) (power - fraction.length)

/-! ## Reading -/

theorem eq_e_of_exponentOf? {c : Char} {rest : List Char} {power : Int}
    (h : exponentOf? (c :: rest) = some power) : c = 'e' ∨ c = 'E' := by
  by_contra hmark
  rw [exponentOf?, if_neg hmark] at h
  exact nomatch h

/-- The exponent part starts with no digit and no point. -/
theorem head_exponentOf? {tail : List Char} {power : Int} (h : exponentOf? tail = some power) :
    ∀ c ∈ tail.head?, isDigit c = false ∧ c ≠ '.' := by
  cases tail with
  | nil => exact fun c hc => nomatch hc
  | cons c rest =>
    rintro _ ⟨⟩
    rcases eq_e_of_exponentOf? h with rfl | rfl <;> decide

/-- Digits end where something else starts. -/
theorem span_digits {digits rest : List Char} (hdigits : ∀ c ∈ digits, c.isDigit = true)
    (hrest : ∀ c ∈ rest.head?, isDigit c = false) :
    (digits ++ rest).takeWhile isDigit = digits ∧ (digits ++ rest).dropWhile isDigit = rest := by
  have hdigits' : ∀ c ∈ digits, isDigit c = true := fun c hc => isDigit_eq c ▸ hdigits c hc
  rw [List.takeWhile_append_of_pos hdigits', List.dropWhile_append_of_pos hdigits']
  cases rest with
  | nil => exact ⟨List.append_nil _, rfl⟩
  | cons c rest =>
    have hc : ¬isDigit c = true := Bool.eq_false_iff.1 (hrest c rfl)
    rw [List.takeWhile_cons_of_neg hc, List.dropWhile_cons_of_neg hc, List.append_nil]
    exact ⟨rfl, rfl⟩

/-- The digits behind a point, if there is one, and the rest. -/
def splitPoint : List Char → List Char × List Char
  | '.' :: rest => (rest.takeWhile isDigit, rest.dropWhile isDigit)
  | rest => ([], rest)

theorem isDigit_of_mem_takeWhile {c : Char} {cs : List Char} (h : c ∈ cs.takeWhile isDigit) :
    c.isDigit = true :=
  isDigit_eq c ▸ List.mem_takeWhile_imp h

theorem splitPoint_cases (rest : List Char) :
    (∃ fraction tail, rest = '.' :: (fraction ++ tail) ∧ (∀ c ∈ fraction, c.isDigit = true) ∧
      splitPoint rest = (fraction, tail)) ∨ splitPoint rest = ([], rest) := by
  unfold splitPoint
  split
  · next rest =>
    exact .inl ⟨_, _, congrArg _ List.takeWhile_append_dropWhile.symm,
      fun _ => isDigit_of_mem_takeWhile, rfl⟩
  · exact .inr rfl

theorem unsigned?_eq (negative : Bool) (cs : List Char) :
    unsigned? negative cs =
      if (cs.takeWhile isDigit ++ (splitPoint (cs.dropWhile isDigit)).1).isEmpty then none
      else (exponentOf? (splitPoint (cs.dropWhile isDigit)).2).map fun power =>
        ofDecimal negative
          (ofDigits (cs.takeWhile isDigit ++ (splitPoint (cs.dropWhile isDigit)).1))
          (cs.takeWhile isDigit ++ (splitPoint (cs.dropWhile isDigit)).1).length
          (power - (splitPoint (cs.dropWhile isDigit)).1.length) := by
  unfold unsigned? splitPoint
  rfl

section

variable {cs digits : List Char} {exponent : Int} {negative : Bool}

theorem Numeral.unsigned?_eq (h : Numeral cs digits exponent) (negative : Bool) :
    unsigned? negative cs =
      some (ofDecimal negative (ofDigits digits) digits.length exponent) := by
  rw [Binary64.unsigned?_eq]
  cases h with
  | @whole _ tail power hne hdigits htail =>
    have hhead := head_exponentOf? htail
    obtain ⟨htake, hdrop⟩ := span_digits hdigits fun c hc => (hhead c hc).1
    have hsplit : splitPoint tail = ([], tail) := by
      unfold splitPoint
      split
      · next rest => exact absurd rfl (hhead '.' rfl).2
      · rfl
    rw [htake, hdrop, hsplit, List.append_nil, if_neg (mt List.isEmpty_iff.1 hne), htail,
      List.length_nil]
    exact congrArg (some <| ofDecimal negative _ _ ·) (sub_zero _)
  | @pointed whole fraction tail power hne hwhole hfraction htail =>
    have hpoint : ∀ c ∈ ('.' :: (fraction ++ tail)).head?, isDigit c = false := by
      rintro _ ⟨⟩
      decide
    obtain ⟨htake, hdrop⟩ := span_digits hwhole hpoint
    obtain ⟨htake', hdrop'⟩ := span_digits hfraction fun c hc => (head_exponentOf? htail c hc).1
    have hsplit : splitPoint ('.' :: (fraction ++ tail)) = (fraction, tail) := by
      rw [splitPoint, htake', hdrop']
    rw [htake, hdrop, hsplit, if_neg (mt List.isEmpty_iff.1 hne), htail]
    rfl

theorem numeral_of_unsigned? {x : Binary64} (h : unsigned? negative cs = some x) :
    ∃ digits exponent, Numeral cs digits exponent ∧
      ofDecimal negative (ofDigits digits) digits.length exponent = x := by
  rw [unsigned?_eq] at h
  split at h
  · exact nomatch h
  · next hne =>
    rw [List.isEmpty_iff] at hne
    obtain ⟨power, htail, hx⟩ := Option.map_eq_some_iff.1 h
    refine ⟨_, _, ?_, hx⟩
    have hcs := List.takeWhile_append_dropWhile (p := isDigit) (l := cs)
    have hwhole : ∀ c ∈ cs.takeWhile isDigit, c.isDigit = true := fun _ => isDigit_of_mem_takeWhile
    generalize cs.takeWhile isDigit = whole at *
    generalize cs.dropWhile isDigit = rest at *
    subst hcs
    rcases splitPoint_cases rest with ⟨fraction, tail, rfl, hfraction, hsplit⟩ | hsplit
    · rw [hsplit] at hne htail ⊢
      exact .pointed hne hwhole hfraction htail
    · rw [hsplit] at hne htail ⊢
      rw [List.append_nil] at hne ⊢
      rw [List.length_nil, Int.ofNat_zero, sub_zero]
      exact .whole hne hwhole htail

end

/-! ## Signs -/

section

variable {cs digits : List Char} {exponent : Int}

theorem Numeral.head (h : Numeral cs digits exponent) :
    ∃ c rest, cs = c :: rest ∧ (c.isDigit = true ∨ c = '.') := by
  cases h with
  | whole hne hdigits =>
    obtain ⟨c, rest, rfl⟩ := List.exists_cons_of_ne_nil hne
    exact ⟨c, _, rfl, .inl (hdigits c List.mem_cons_self)⟩
  | @pointed whole fraction tail power _ hwhole =>
    cases whole with
    | nil => exact ⟨'.', _, rfl, .inr rfl⟩
    | cons c whole => exact ⟨c, _, rfl, .inl (hwhole c List.mem_cons_self)⟩

/-- A digit or a point is no letter and no sign. -/
theorem not_letter_of_digit_or_point {c : Char} (h : c.isDigit = true ∨ c = '.') :
    c.toLower = c ∧ c ≠ 'i' ∧ c ≠ 'n' ∧ c ≠ '-' ∧ c ≠ '+' := by
  rcases h with h | rfl
  · have hne : ∀ d : Char, d.isDigit = false → c ≠ d := by
      rintro d hd rfl
      exact absurd h (Bool.eq_false_iff.1 hd)
    have hlower : c.toLower = c := by
      have hle : c.toNat ≤ 57 := (Char.isDigit_iff_toNat.1 h).2
      refine dif_neg fun hupper => ?_
      have hge : 65 ≤ c.toNat := UInt32.le_iff_toNat_le.1 hupper.1
      omega
    exact ⟨hlower, hne 'i' rfl, hne 'n' rfl, hne '-' rfl, hne '+' rfl⟩
  · decide

/-- A numeral with or without a minus sign is read as the decimal that it spells. -/
theorem Numeral.ofText?_eq (h : Numeral cs digits exponent) (negative : Bool) :
    ofText? ((if negative then "-" else "") ++ String.ofList cs) =
      some (ofDecimal negative (ofDigits digits) digits.length exponent) := by
  obtain ⟨c, rest, hcs, hc⟩ := h.head
  obtain ⟨hlower, hi, hn, hminus, hplus⟩ := not_letter_of_digit_or_point hc
  have htext : ((if negative then "-" else "") ++ String.ofList cs).toList =
      (if negative then ['-'] else []) ++ cs := by
    cases negative <;> simp
  have hsign : takeSign ((if negative then ['-'] else []) ++ cs) = (negative, cs) := by
    cases negative with
    | true => rfl
    | false =>
      subst hcs
      show takeSign (c :: rest) = _
      unfold takeSign
      split
      · next heq => exact absurd (List.cons.inj heq).1 hminus
      · next heq => exact absurd (List.cons.inj heq).1 hplus
      · rfl
  have hname : ∀ (d : Char) (name : List Char), c ≠ d →
      String.ofList (cs.map Char.toLower) ≠ String.ofList (d :: name) := by
    intro d name hne heq
    rw [hcs, List.map_cons, hlower] at heq
    exact hne (List.cons.inj (String.ofList_injective heq)).1
  unfold ofText?
  rw [htext, hsign]
  dsimp only
  rw [if_neg, if_neg (hname 'n' ['a', 'n'] hn), h.unsigned?_eq]
  rintro (hinf | hinfinity)
  · exact hname 'i' ['n', 'f'] hi hinf
  · exact hname 'i' ['n', 'f', 'i', 'n', 'i', 't', 'y'] hi hinfinity

end

/-! ## Significant digits -/

/-- The digits of a text that stand before its exponent. -/
def mantissa (cs : List Char) : List Char :=
  (cs.takeWhile fun c => c ≠ 'e' ∧ c ≠ 'E').filter isDigit

/-- Digits without the zeros at both ends. -/
def significant (digits : List Char) : List Char :=
  (digits.dropWhile (· = '0')).rdropWhile (· = '0')

/-- The number of significant digits of a text. -/
def significantDigits (text : String) : Nat := (significant (mantissa text.toList)).length

theorem mantissa_append {front rest : List Char} (h : ∀ c ∈ front, c ≠ 'e' ∧ c ≠ 'E') :
    mantissa (front ++ rest) = front.filter isDigit ++ mantissa rest := by
  unfold mantissa
  rw [List.takeWhile_append_of_pos (fun c hc => decide_eq_true (h c hc)), List.filter_append]

theorem mantissa_digits {digits rest : List Char} (h : ∀ c ∈ digits, c.isDigit = true) :
    mantissa (digits ++ rest) = digits ++ mantissa rest := by
  rw [mantissa_append, List.filter_eq_self.2 fun c hc => isDigit_eq c ▸ h c hc]
  intro c hc
  have hdigit := h c hc
  constructor
  · rintro rfl
    exact absurd hdigit (by decide)
  · rintro rfl
    exact absurd hdigit (by decide)

theorem mantissa_exponent {tail : List Char} {power : Int} (h : exponentOf? tail = some power) :
    mantissa tail = [] := by
  cases tail with
  | nil => rfl
  | cons c rest => rcases eq_e_of_exponentOf? h with rfl | rfl <;> rfl

theorem Numeral.mantissa_eq {cs digits : List Char} {exponent : Int}
    (h : Numeral cs digits exponent) : mantissa cs = digits := by
  cases h with
  | whole _ hdigits htail => rw [mantissa_digits hdigits, mantissa_exponent htail, List.append_nil]
  | @pointed whole fraction tail power _ hwhole hfraction htail =>
    have hpoint : mantissa ('.' :: (fraction ++ tail)) = mantissa (fraction ++ tail) := rfl
    rw [mantissa_digits hwhole, hpoint, mantissa_digits hfraction, mantissa_exponent htail,
      List.append_nil]

theorem Numeral.isDigit_of_mem {cs digits : List Char} {exponent : Int}
    (h : Numeral cs digits exponent) {c : Char} (hc : c ∈ digits) : c.isDigit = true := by
  cases h with
  | whole _ hdigits => exact hdigits c hc
  | pointed _ hwhole hfraction => exact (List.mem_append.1 hc).elim (hwhole c) (hfraction c)

theorem Numeral.digits_ne_nil {cs digits : List Char} {exponent : Int}
    (h : Numeral cs digits exponent) : digits ≠ [] := by
  cases h with
  | whole hne => exact hne
  | pointed hne => exact hne

theorem mantissa_takeSign (cs : List Char) : mantissa (takeSign cs).2 = mantissa cs := by
  unfold takeSign
  split <;> rfl

/-- A text that is read as a finite number is read by the digits before its exponent. -/
theorem read_mantissa {text : String} {x : Binary64} (h : ofText? text = some x)
    (hfinite : x.magnitudeBits < infinityBits) :
    mantissa text.toList ≠ [] ∧ (∀ c ∈ mantissa text.toList, c.isDigit = true) ∧
      ∃ negative exponent, ofDecimal negative (ofDigits (mantissa text.toList))
        (mantissa text.toList).length exponent = x := by
  have hinfinity : ∀ negative, infinity negative ≠ x := by
    rintro negative rfl
    rw [infinity, magnitudeBits_ofMagnitudeBits negative (by decide)] at hfinite
    exact absurd hfinite (Nat.lt_irrefl _)
  have hnan : nan ≠ x := by
    rintro rfl
    exact absurd hfinite (by decide)
  unfold ofText? at h
  dsimp only at h
  split at h
  · exact absurd (Option.some.inj h) (hinfinity _)
  · split at h
    · exact absurd (Option.some.inj h) hnan
    · obtain ⟨digits, exponent, hnumeral, hx⟩ := numeral_of_unsigned? h
      rw [← mantissa_takeSign, hnumeral.mantissa_eq]
      exact ⟨hnumeral.digits_ne_nil, fun _ => hnumeral.isDigit_of_mem, _, exponent, hx⟩

/-- Zeros at the ends are not significant. -/
theorem length_significant_le (before after : Nat) (digits : List Char) :
    (significant (List.replicate before '0' ++ digits ++ List.replicate after '0')).length ≤
      digits.length := by
  have hzero : ∀ n, ∀ c ∈ List.replicate n '0', decide (c = '0') = true := fun n c hc =>
    decide_eq_true (List.eq_of_mem_replicate hc)
  unfold significant
  rw [List.append_assoc, List.dropWhile_append_of_pos (hzero before), List.dropWhile_append]
  split
  · rw [List.dropWhile_eq_nil_iff.2 (hzero after)]
    exact Nat.zero_le _
  · rw [List.rdropWhile, List.reverse_append,
      List.dropWhile_append_of_pos fun c hc => hzero after c (List.mem_reverse.1 hc), ← List.rdropWhile]
    exact (List.rdropWhile_prefix _ _).length_le.trans (List.dropWhile_suffix _).length_le

/-- Digits are their significant digits between zeros. -/
theorem exists_significant (digits : List Char) :
    ∃ before after, digits =
      List.replicate before '0' ++ significant digits ++ List.replicate after '0' := by
  have hzeros : ∀ {zeros : List Char}, (∀ c ∈ zeros, decide (c = '0') = true) →
      zeros = List.replicate zeros.length '0' := fun h =>
    List.eq_replicate_iff.2 ⟨rfl, fun c hc => of_decide_eq_true (h c hc)⟩
  have hbefore : digits.takeWhile (· = '0') = _ := hzeros fun _ => List.mem_takeWhile_imp
  have hafter : (digits.dropWhile (· = '0')).rtakeWhile (· = '0') = _ :=
    hzeros fun _ => List.mem_rtakeWhile_imp
  refine ⟨(digits.takeWhile (· = '0')).length,
    ((digits.dropWhile (· = '0')).rtakeWhile (· = '0')).length, ?_⟩
  rw [← hbefore, ← hafter, List.append_assoc, significant, List.rdropWhile_append_rtakeWhile,
    List.takeWhile_append_dropWhile]

end TagTemplate.Binary64
