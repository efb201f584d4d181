import TagTemplate.Proofs.Scope

/-!
# Accessors that agree

What a value has, and what is read from it under a key. Main statements: `property?_eq_some_iff`,
what is read under a key is what a path may end at; `exists_hasEnd_iff`, the two tests for a
property find out whether there is anything to read; `accessors_agree`, with both of them, and what
becomes of the tests when a name is sought in one view.
-/

namespace TagTemplate

namespace Value

variable {key : String} {v w part : Value}

/-! ## One key -/

/-- What is read under a key is what a path may end at. -/
theorem property?_eq_some_iff : v.property? key = some w ↔ HasEnd key v w := by
  constructor
  · intro h
    cases v with
    | array items =>
      rw [property?] at h
      split at h
      · next hkey => exact Option.some.inj h ▸ .property (.length hkey)
      · exact .property (.part (child?_iff.1 h))
    | string s =>
      rw [property?] at h
      split at h
      · next hkey => exact Option.some.inj h ▸ .length hkey
      · obtain ⟨i, hi, h⟩ := Option.bind_eq_some_iff.1 h
        obtain ⟨c, hc, rfl⟩ := Option.map_eq_some_iff.1 h
        obtain ⟨hkey, hlimit⟩ := indexOfKey?_eq_some_iff.1 hi
        exact .character hkey hlimit hc
    | _ => exact .property (.part (child?_iff.1 h))
  · exact fun h => (end?_iff.2 h).2

/-- A key under which there is a length or an element. -/
theorem key_cases {n : Nat} (h : (key == lengthKey || (indexOfKey? key).any (· < n)) = true) :
    key = lengthKey ∨ ∃ i, (IndexKey i key ∧ i < wordLimit) ∧ i < n := by
  rw [Bool.or_eq_true, beq_iff_eq, Option.any_eq_true] at h
  simpa [indexOfKey?_eq_some_iff] using h

/-- Either test finds something to read, and finds all of it. -/
theorem exists_hasEnd_iff :
    (∃ w, HasEnd key v w) ↔ v.hasProperty key = true ∨ v.hasStringProperty key = true := by
  constructor
  · rintro ⟨w, h⟩
    exact Bool.or_eq_true_iff.1 (end?_iff.2 h).1
  · rintro (h | h)
    · cases v with
      | object fields =>
        obtain ⟨w, hw⟩ := Option.isSome_iff_exists.1 h
        exact ⟨w, .property (.part (.field hw))⟩
      | array items =>
        obtain hkey | ⟨i, ⟨hkey, hlimit⟩, hlt⟩ := key_cases h
        · exact ⟨_, .property (.length hkey)⟩
        · exact ⟨items[i], .property (.part (.item hkey hlimit (List.getElem?_eq_getElem hlt)))⟩
      | _ => cases h
    · cases v with
      | string s =>
        obtain hkey | ⟨i, ⟨hkey, hlimit⟩, hlt⟩ := key_cases h
        · exact ⟨_, .length hkey⟩
        · rw [← String.length_toList] at hlt
          exact ⟨_, .character hkey hlimit (List.getElem?_eq_getElem hlt)⟩
      | _ => cases h

theorem property?_isSome_iff : (v.property? key).isSome = true ↔
    v.hasProperty key = true ∨ v.hasStringProperty key = true := by
  simp only [Option.isSome_iff_exists, property?_eq_some_iff, exists_hasEnd_iff]

/-- No value passes both tests. -/
theorem not_hasProperty_and_hasStringProperty :
    ¬(v.hasProperty key = true ∧ v.hasStringProperty key = true) := by
  rintro ⟨hproperty, hstring⟩
  cases v with
  | string s => cases hproperty
  | _ => cases hstring

/-- What is read without being a part is the length of an array, or belongs to a string. -/
theorem child?_eq_none_iff (h : HasEnd key v w) : v.child? key = none ↔
    (∃ items, v = .array items ∧ key = lengthKey) ∨ ∃ s, v = .string s := by
  constructor
  · intro hchild
    cases h with
    | property hproperty =>
      cases hproperty with
      | part hpart =>
        rw [child?_iff.2 hpart] at hchild
        cases hchild
      | length hkey => exact .inl ⟨_, rfl, hkey⟩
    | length | character => exact .inr ⟨_, rfl⟩
  · rintro (⟨items, rfl, rfl⟩ | ⟨s, rfl⟩)
    · cases hchild : (Value.array items).child? lengthKey with
      | none => rfl
      | some part =>
        cases child?_iff.1 hchild with
        | item hkey => exact absurd hkey not_indexKey_lengthKey
    · rfl

/-! ## Names -/

/-- The part to which keys lead, one after the other. -/
def descend? (v : Value) (keys : List String) : Option Value :=
  keys.foldlM (fun v key => v.child? key) v

/-- A path is followed to its last key, under which the property is read: what passes the tests is
always there to be read. -/
theorem follow?_eq (v : Value) (keys : List String) (last : String) :
    v.follow? (keys ++ [last]) = (v.descend? keys).bind (·.property? last) := by
  induction keys generalizing v with
  | nil =>
    have htest : (v.hasProperty last || v.hasStringProperty last) = (v.property? last).isSome := by
      rw [Bool.eq_iff_iff, Bool.or_eq_true, property?_isSome_iff]
    change (if (v.hasProperty last || v.hasStringProperty last) = true then v.property? last
      else none) = v.property? last
    rw [htest]
    cases v.property? last <;> rfl
  | cons key keys ih =>
    rw [List.cons_append, follow?_cons v key (List.append_ne_nil_of_right_ne_nil keys (by simp)),
      descend?, List.foldlM_cons]
    cases v.child? key with
    | none => rfl
    | some part => exact ih part

theorem resolve?_path (v : Value) {name : String} (hname : Dotted name.toList) :
    ∃ keys last, (pathSegments name.toList).map String.ofList = keys ++ [last] ∧
      v.resolve? name = (v.descend? keys).bind (·.property? last) := by
  obtain ⟨keys, last, hsegments⟩ : ∃ keys last,
      (pathSegments name.toList).map String.ofList = keys ++ [last] :=
    ⟨_, _, (List.dropLast_concat_getLast (segments_ne_nil name.toList)).symm⟩
  refine ⟨keys, last, hsegments, ?_⟩
  rw [resolve?, if_pos (isPath_iff.2 hname), hsegments, follow?_eq]

theorem resolve?_plain (v : Value) {name : String} (hname : ¬Dotted name.toList) :
    v.resolve? name = if v.hasProperty name = true then v.property? name else none := by
  rw [resolve?, if_neg (mt isPath_iff.1 hname)]

end Value

/-- The accessors of a value agree: under a key something is read exactly if one of the two tests
for a property is passed, and never are both; a part passes the test for properties and is what is
read; and what is read without being a part is the length of an array, or belongs to a string. So a
name that is no path is found in a view exactly if it passes its test, and what a path leads to is
what is read under its last key, whatever the tests say there. -/
theorem accessors_agree (v : Value) :
    (∀ key,
      ((v.property? key).isSome = true ↔
        v.hasProperty key = true ∨ v.hasStringProperty key = true) ∧
      ¬(v.hasProperty key = true ∧ v.hasStringProperty key = true) ∧
      (∀ part, v.child? key = some part →
        v.hasProperty key = true ∧ v.property? key = some part) ∧
      (v.child? key = none → (v.property? key).isSome = true →
        (∃ items, v = .array items ∧ key = lengthKey) ∨ ∃ s, v = .string s)) ∧
    (∀ name : String, ¬Dotted name.toList →
      ((v.resolve? name).isSome = true ↔ v.hasProperty name = true) ∧
      (v.hasProperty name = true → v.resolve? name = v.property? name)) ∧
    ∀ name : String, Dotted name.toList →
      ∃ keys last, (pathSegments name.toList).map String.ofList = keys ++ [last] ∧
        v.resolve? name = (v.descend? keys).bind (·.property? last) ∧
        ((v.resolve? name).isSome = true ↔ ∃ inner, v.descend? keys = some inner ∧
          (inner.hasProperty last = true ∨ inner.hasStringProperty last = true)) := by
  refine ⟨fun key => ⟨Value.property?_isSome_iff, Value.not_hasProperty_and_hasStringProperty,
    fun part hpart => (Value.child?_iff.1 hpart).hasProperty, fun hchild hproperty => ?_⟩,
    fun name hname => ?_, fun name hname => ?_⟩
  · obtain ⟨w, hw⟩ := Option.isSome_iff_exists.1 hproperty
    exact (Value.child?_eq_none_iff (Value.property?_eq_some_iff.1 hw)).1 hchild
  · rw [v.resolve?_plain hname]
    by_cases htest : v.hasProperty name = true
    · simp [htest, Value.property?_isSome_iff]
    · simp [htest]
  · obtain ⟨keys, last, hsegments, hresolve⟩ := v.resolve?_path hname
    refine ⟨keys, last, hsegments, hresolve, ?_⟩
    rw [hresolve, Option.isSome_bind]
    cases v.descend? keys with
    | none => simp
    | some inner => simp [Value.property?_isSome_iff]

end TagTemplate
