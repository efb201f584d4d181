import TagTemplate.Proofs.Number.Digits
import TagTemplate.Value.Access

/-!
# Keys that denote an element

Which keys denote an item of an array or a character of a string. Main statements:
`indexOfKey?_eq_some_iff`, a key is read as an index if it is the numeral of the index, or a plus
sign with the numeral behind it, perhaps behind zeros; `elements_by_key`, what the accessors find
under a key. Only with the sign do different keys denote one element: `signed_key_found`.
-/

namespace TagTemplate

/-! ## Numbers -/

/-- What is read as a number are digits, and the number is below the limit. -/
theorem natural?_eq_some_iff_digits {digits : List Char} {n : Nat} :
    natural? digits = some n ↔
      (digits ≠ [] ∧ ∀ c ∈ digits, c.isDigit = true) ∧
        Nat.ofDigitChars 10 digits 0 = n ∧ n < wordLimit := by
  have hguard : (digits.isEmpty || !digits.all fun c => '0' ≤ c && c ≤ '9') = true ↔
      ¬(digits ≠ [] ∧ ∀ c ∈ digits, c.isDigit = true) := by
    simp only [isDigit_iff_between]
    simp [Classical.or_iff_not_imp_left]
  rw [natural?]
  by_cases hdigits : digits ≠ [] ∧ ∀ c ∈ digits, c.isDigit = true
  · rw [if_neg (fun h => hguard.mp h hdigits), ← Nat.ofDigitChars]
    simp only [Option.ite_none_right_eq_some, Option.some.injEq]
    grind
  · rw [if_pos (hguard.mpr hdigits)]
    simp only [hdigits, false_and, reduceCtorEq]

theorem natural?_eq_some_iff {digits : List Char} {n : Nat} :
    natural? digits = some n ↔
      (∃ zeros, digits = List.replicate zeros '0' ++ Nat.toDigits 10 n) ∧ n < wordLimit := by
  rw [natural?_eq_some_iff_digits]
  constructor
  · rintro ⟨⟨hne, hdigits⟩, rfl, hlimit⟩
    exact ⟨exists_zeros_toDigits hne hdigits, hlimit⟩
  · rintro ⟨⟨zeros, rfl⟩, hlimit⟩
    have hne : List.replicate zeros '0' ++ Nat.toDigits 10 n ≠ [] :=
      List.append_ne_nil_of_right_ne_nil _ Nat.toDigits_ne_nil
    exact ⟨⟨hne, fun _ => isDigit_of_mem_zeros⟩, ofDigitChars_zeros zeros n, hlimit⟩

/-! ## Keys -/

/-- A key denotes the element at an index: it is the numeral of the index, or a plus sign and then
zeros, or none, and the numeral. -/
inductive IndexKey (i : Nat) : String → Prop
  | numeral : IndexKey i (toString i)
  | signed (zeros : Nat) :
      IndexKey i ("+" ++ String.ofList (List.replicate zeros '0') ++ toString i)

theorem indexKey_iff {i : Nat} {key : String} :
    IndexKey i key ↔
      key.toList = Nat.toDigits 10 i ∨
        ∃ zeros, key.toList = '+' :: (List.replicate zeros '0' ++ Nat.toDigits 10 i) := by
  have hnumeral : (toString i).toList = Nat.toDigits 10 i := Nat.toList_repr
  have hsigned : ∀ zeros, ("+" ++ String.ofList (List.replicate zeros '0') ++ toString i).toList =
      '+' :: (List.replicate zeros '0' ++ Nat.toDigits 10 i) := by
    intro zeros
    simp only [String.toList_append, String.toList_ofList, hnumeral, List.append_assoc]
    rfl
  constructor
  · rintro (_ | zeros)
    · exact .inl hnumeral
    · exact .inr ⟨zeros, hsigned zeros⟩
  · rintro (h | ⟨zeros, h⟩)
    · rw [← hnumeral] at h
      exact String.toList_inj.mp h ▸ .numeral
    · rw [← hsigned zeros] at h
      exact String.toList_inj.mp h ▸ .signed zeros

/-- A numeral has no sign. -/
theorem toDigits_ne_plus_cons {n : Nat} {rest : List Char} : Nat.toDigits 10 n ≠ '+' :: rest := by
  intro h
  have hdigit : '+'.isDigit = true :=
    Nat.isDigit_of_mem_toDigits (by decide) (Nat.le_refl 10) (h ▸ List.mem_cons_self)
  exact absurd hdigit (by decide)

/-- A numeral of several digits does not begin with a zero. -/
theorem toDigits_ne_zero_cons {n : Nat} {digit : Char} {rest : List Char} :
    Nat.toDigits 10 n ≠ '0' :: digit :: rest := by
  intro h
  have hdigits : ∀ c ∈ digit :: rest, c.isDigit = true := fun c hc =>
    Nat.isDigit_of_mem_toDigits (by decide) (Nat.le_refl 10) (h ▸ List.mem_cons_of_mem _ hc)
  -- Without the zero the same number remains, so its numeral would be longer than itself.
  have hvalue : Nat.ofDigitChars 10 (digit :: rest) 0 = n := by
    rw [← @Nat.ofDigitChars_ten_toDigits n, h]
    rfl
  obtain ⟨zeros, hsplit⟩ := exists_zeros_toDigits (List.cons_ne_nil digit rest) hdigits
  rw [hvalue, h] at hsplit
  have hlength := congrArg List.length hsplit
  simp at hlength
  omega

/-- A key denotes at most one index. -/
theorem IndexKey.unique {i j : Nat} {key : String} (hi : IndexKey i key) (hj : IndexKey j key) :
    i = j := by
  rcases indexKey_iff.mp hi with hi | ⟨zeros, hi⟩ <;>
    rcases indexKey_iff.mp hj with hj | ⟨zeros', hj⟩ <;> rw [hi] at hj
  · exact (Nat.ofDigitChars_ten_toDigits.symm.trans (hj ▸ Nat.ofDigitChars_ten_toDigits))
  · exact absurd hj toDigits_ne_plus_cons
  · exact absurd hj.symm toDigits_ne_plus_cons
  · rw [← ofDigitChars_zeros zeros i, (List.cons.inj hj).2, ofDigitChars_zeros]

/-- A key without a sign denotes an index only as its numeral. -/
theorem IndexKey.eq_toString {i : Nat} {key : String} (h : IndexKey i key)
    (hsign : key.toList.head? ≠ some '+') : key = toString i := by
  cases h with
  | numeral => rfl
  | signed zeros =>
    rw [String.toList_append, String.toList_append] at hsign
    exact absurd rfl hsign

theorem indexOfKey?_eq_some_iff {key : String} {i : Nat} :
    indexOfKey? key = some i ↔ IndexKey i key ∧ i < wordLimit := by
  rw [indexKey_iff, indexOfKey?]
  split
  · rename_i digit rest hkey
    rw [hkey]
    simp only [reduceCtorEq, false_iff, not_and]
    rintro (h | ⟨zeros, h⟩)
    · exact absurd h.symm toDigits_ne_zero_cons
    · exact absurd (List.cons.inj h).1 (by decide)
  · rename_i digits hkey
    rw [hkey, natural?_eq_some_iff]
    simp [toDigits_ne_plus_cons.symm]
  · rename_i hzero hplus
    rw [natural?_eq_some_iff]
    refine and_congr_left fun _ => ⟨?_, ?_⟩
    · rintro ⟨_ | zeros, hkey⟩
      · exact .inl hkey
      · have hne : List.replicate zeros '0' ++ Nat.toDigits 10 i ≠ [] :=
          List.append_ne_nil_of_right_ne_nil _ Nat.toDigits_ne_nil
        obtain ⟨digit, rest, hdigits⟩ := List.exists_cons_of_ne_nil hne
        exact absurd (hkey.trans (congrArg (List.cons '0') hdigits)) (hzero digit rest)
    · rintro (h | ⟨zeros, h⟩)
      · exact ⟨0, h⟩
      · exact absurd h (hplus _)

/-! ## Elements -/

section Elements

variable {α : Type} {elements : List α} {key : String}

theorem any_indexOfKey?_iff {n : Nat} (hn : n ≤ wordLimit) :
    (indexOfKey? key).any (· < n) = true ↔ ∃ i < n, IndexKey i key := by
  simp only [Option.any_eq_true, indexOfKey?_eq_some_iff, decide_eq_true_eq]
  exact ⟨fun ⟨i, ⟨hkey, _⟩, hi⟩ => ⟨i, hi, hkey⟩, fun ⟨i, hi, hkey⟩ => ⟨i, ⟨hkey, by omega⟩, hi⟩⟩

theorem bind_indexOfKey?_iff (hn : elements.length ≤ wordLimit) {x : α} :
    ((indexOfKey? key).bind fun i => elements[i]?) = some x ↔
      ∃ i, IndexKey i key ∧ elements[i]? = some x := by
  simp only [Option.bind_eq_some_iff, indexOfKey?_eq_some_iff]
  refine ⟨fun ⟨i, ⟨hkey, _⟩, hx⟩ => ⟨i, hkey, hx⟩, fun ⟨i, hkey, hx⟩ => ⟨i, ⟨hkey, ?_⟩, hx⟩⟩
  have hi := (List.getElem?_eq_some_iff.mp hx).1
  omega

/-- The key of the length denotes no element. -/
theorem not_indexKey_lengthKey {i : Nat} : ¬IndexKey i lengthKey := by
  intro h
  cases indexKey_iff.mp h with
  | inl hdigits =>
    have hdigit : 'l'.isDigit = true :=
      Nat.isDigit_of_mem_toDigits (by decide) (Nat.le_refl 10)
        (hdigits ▸ (by decide : 'l' ∈ lengthKey.toList))
    exact absurd hdigit (by decide)
  | inr hsigned =>
    obtain ⟨zeros, hsigned⟩ := hsigned
    exact absurd (List.cons.inj hsigned).1 (by decide)

end Elements

/-- Under a key stand the length, and the element at the index that the key denotes, of an array
and of a string that fit into memory; there is a property exactly if one is found. A key denotes at
most one index, and without a sign only the numeral of an index denotes it. -/
theorem elements_by_key {items : List Value} {s : String} (hitems : items.length ≤ wordLimit)
    (hs : s.length ≤ wordLimit) (key : String) :
    ((Value.array items).hasProperty key = true ↔
      key = lengthKey ∨ ∃ i < items.length, IndexKey i key) ∧
    ((Value.string s).hasStringProperty key = true ↔
      key = lengthKey ∨ ∃ i < s.length, IndexKey i key) ∧
    (∀ v, (Value.array items).child? key = some v ↔
      ∃ i, IndexKey i key ∧ items[i]? = some v) ∧
    (∀ v, (Value.array items).property? key = some v ↔
      key = lengthKey ∧ v = .ofCount items.length ∨ ∃ i, IndexKey i key ∧ items[i]? = some v) ∧
    (∀ v, (Value.string s).property? key = some v ↔
      key = lengthKey ∧ v = .ofCount s.length ∨
        ∃ i c, IndexKey i key ∧ s.toList[i]? = some c ∧ v = .string (String.singleton c)) ∧
    (∀ i j, IndexKey i key → IndexKey j key → i = j) ∧
    (key.toList.head? ≠ some '+' → ∀ i, IndexKey i key ↔ key = toString i) := by
  have hchild : ∀ v, (Value.array items).child? key = some v ↔
      ∃ i, IndexKey i key ∧ items[i]? = some v := fun v => bind_indexOfKey?_iff hitems
  have hcharacter : ∀ c, ((indexOfKey? key).bind fun i => s.toList[i]?) = some c ↔
      ∃ i, IndexKey i key ∧ s.toList[i]? = some c := fun c => bind_indexOfKey?_iff hs
  refine ⟨?_, ?_, hchild, fun v => ?_, fun v => ?_, fun i j => IndexKey.unique,
    fun hsign i => ⟨fun h => h.eq_toString hsign, fun h => h ▸ .numeral⟩⟩
  · simp only [Value.hasProperty, Bool.or_eq_true, beq_iff_eq, any_indexOfKey?_iff hitems]
  · simp only [Value.hasStringProperty, Bool.or_eq_true, beq_iff_eq, any_indexOfKey?_iff hs]
  · rw [Value.property?]
    split
    · rename_i hkey
      subst hkey
      simp [not_indexKey_lengthKey, eq_comm]
    · rename_i hkey
      simp only [hkey, false_and, false_or, hchild]
  · rw [Value.property?]
    split
    · rename_i hkey
      subst hkey
      simp [not_indexKey_lengthKey, eq_comm]
    · rename_i hkey
      have hfound : ((indexOfKey? key).bind fun i =>
          s.toList[i]?.map fun c => Value.string (String.singleton c)) =
          ((indexOfKey? key).bind fun i => s.toList[i]?).map
            fun c => Value.string (String.singleton c) := Option.map_bind.symm
      simp only [hkey, false_and, false_or, hfound, Option.map_eq_some_iff, hcharacter]
      constructor
      · rintro ⟨c, ⟨i, hi, hc⟩, hv⟩
        exact ⟨i, c, hi, hc, hv.symm⟩
      · rintro ⟨i, c, hi, hc, hv⟩
        exact ⟨c, ⟨i, hi, hc⟩, hv.symm⟩

theorem elements_by_key_zero :
    ([Value.null].length ≤ wordLimit ∧ "ab".length ≤ wordLimit) ∧
      (Value.array [.null]).child? "0" = some .null ∧
      (Value.string "ab").property? "1" = some (.string "b") ∧
      (Value.string "ab").hasStringProperty "01" = false := by
  have hitems : [Value.null].length ≤ wordLimit := by decide
  have hs : "ab".length ≤ wordLimit := by decide
  obtain ⟨-, -, hchild, -, -, -, -⟩ := elements_by_key hitems hs "0"
  obtain ⟨-, -, -, -, hproperty, -, -⟩ := elements_by_key hitems hs "1"
  obtain ⟨-, hhas, -, -, -, -, hunsigned⟩ := elements_by_key hitems hs "01"
  refine ⟨⟨hitems, hs⟩, (hchild _).mpr ⟨0, .numeral, rfl⟩,
    (hproperty _).mpr (.inr ⟨1, 'b', .numeral, rfl, rfl⟩), Bool.eq_false_iff.mpr fun h => ?_⟩
  rcases hhas.mp h with hlength | ⟨i, -, hkey⟩
  · exact absurd hlength (by decide)
  · have hnumeral := congrArg String.toList ((hunsigned (by decide) i).mp hkey)
    exact toDigits_ne_zero_cons (Nat.toList_repr.symm.trans hnumeral.symm)

/-- An item is found under a key with a sign as well, which is no numeral. -/
theorem signed_key_found :
    (Value.array [.string "x"]).hasProperty "+0" = true ∧
      (Value.array [.string "x"]).property? "+0" = (Value.array [.string "x"]).property? "0" ∧
      "+0" ≠ lengthKey ∧ ∀ i : Nat, "+0" ≠ toString i := by
  refine ⟨by decide, rfl, by decide, fun i h => ?_⟩
  have hdigits : Nat.toDigits 10 i = '+' :: ['0'] :=
    Nat.toList_repr.symm.trans (congrArg String.toList h.symm)
  exact toDigits_ne_plus_cons hdigits

end TagTemplate
