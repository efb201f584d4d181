/-!
# Parts between separators

A text cut at each occurrence of a character, and put together again. Cutting loses nothing:
`joinOn_splitOn`.
-/

namespace TagTemplate

/-- What stands between the separators of a text, empty parts included. -/
def splitOn (separator : Char) : List Char → List (List Char)
  | [] => [[]]
  | c :: cs =>
    if c = separator then [] :: splitOn separator cs
    else match splitOn separator cs with
      | part :: more => (c :: part) :: more
      | [] => [[c]]

/-- Parts put together with separators between them. -/
def joinOn (separator : Char) : List (List Char) → List Char
  | [] => []
  | [part] => part
  | part :: more => part ++ separator :: joinOn separator more

theorem splitOn_ne_nil (separator : Char) (cs : List Char) : splitOn separator cs ≠ [] := by
  cases cs with
  | nil => simp [splitOn]
  | cons c cs =>
    simp only [splitOn]
    split
    · simp
    · split <;> simp

/-- There is one part more than there are separators. -/
theorem length_splitOn (separator : Char) (cs : List Char) :
    (splitOn separator cs).length = cs.count separator + 1 := by
  induction cs with
  | nil => rfl
  | cons c cs ih =>
    rw [splitOn]
    split
    · next hc => rw [hc, List.length_cons, ih, List.count_cons_self]
    · next hc =>
      rw [List.count_cons_of_ne hc, ← ih]
      cases h : splitOn separator cs with
      | nil => exact absurd h (splitOn_ne_nil separator cs)
      | cons => rfl

/-- If the first of several parts is empty, the text starts with a separator. -/
theorem head?_of_splitOn_nil {separator : Char} {cs next : List Char} {more : List (List Char)}
    (h : splitOn separator cs = [] :: next :: more) : cs.head? = some separator := by
  cases cs with
  | nil => cases h
  | cons c cs =>
    rw [splitOn] at h
    split at h
    · next hc => rw [hc, List.head?_cons]
    · split at h
      · cases h
      · cases h

theorem joinOn_cons (separator : Char) (part : List Char) {more : List (List Char)}
    (h : more ≠ []) :
    joinOn separator (part :: more) = part ++ separator :: joinOn separator more := by
  cases more with
  | nil => exact absurd rfl h
  | cons => rfl

/-- Nothing is lost by cutting. -/
theorem joinOn_splitOn (separator : Char) (cs : List Char) :
    joinOn separator (splitOn separator cs) = cs := by
  induction cs with
  | nil => rfl
  | cons c cs ih =>
    simp only [splitOn]
    split
    · next h => rw [joinOn_cons _ _ (splitOn_ne_nil _ _), ih, h, List.nil_append]
    · cases h : splitOn separator cs with
      | nil => exact absurd h (splitOn_ne_nil _ _)
      | cons part more =>
        rw [h] at ih
        cases more with
        | nil => simpa [joinOn] using ih
        | cons => simpa [joinOn] using ih

theorem splitOn_of_not_mem {separator : Char} {cs : List Char} (h : separator ∉ cs) :
    splitOn separator cs = [cs] := by
  induction cs with
  | nil => rfl
  | cons c cs ih =>
    obtain ⟨hc, hcs⟩ := List.ne_and_not_mem_of_not_mem_cons h
    rw [splitOn, if_neg (Ne.symm hc), ih hcs]

theorem splitOn_append {separator : Char} {part : List Char} (h : separator ∉ part)
    (rest : List Char) :
    splitOn separator (part ++ separator :: rest) = part :: splitOn separator rest := by
  induction part with
  | nil => rw [List.nil_append, splitOn, if_pos rfl]
  | cons c part ih =>
    obtain ⟨hc, hpart⟩ := List.ne_and_not_mem_of_not_mem_cons h
    rw [List.cons_append, splitOn, if_neg (Ne.symm hc), ih hpart]

/-- A separator between two texts parts them. -/
theorem splitOn_append_separator (separator : Char) (cs rest : List Char) :
    splitOn separator (cs ++ separator :: rest) =
      splitOn separator cs ++ splitOn separator rest := by
  induction cs with
  | nil => simp [splitOn]
  | cons c cs ih =>
    rw [List.cons_append, splitOn, splitOn, ih]
    split
    · rfl
    · cases h : splitOn separator cs with
      | nil => exact absurd h (splitOn_ne_nil separator cs)
      | cons part more => rfl

/-- Parts without separators are found again. -/
theorem splitOn_joinOn {separator : Char} {parts : List (List Char)} (hne : parts ≠ [])
    (h : ∀ part ∈ parts, separator ∉ part) : splitOn separator (joinOn separator parts) = parts := by
  induction parts with
  | nil => exact absurd rfl hne
  | cons part more ih =>
    obtain ⟨hpart, hmore⟩ := List.forall_mem_cons.1 h
    cases more with
    | nil => exact splitOn_of_not_mem hpart
    | cons next more =>
      have hnext := List.cons_ne_nil next more
      rw [joinOn_cons separator part hnext, splitOn_append hpart, ih hnext hmore]

theorem not_mem_of_mem_splitOn {separator : Char} {cs part : List Char}
    (h : part ∈ splitOn separator cs) : separator ∉ part := by
  induction cs generalizing part with
  | nil =>
    rw [splitOn, List.mem_singleton] at h
    subst h
    exact List.not_mem_nil
  | cons c cs ih =>
    rw [splitOn] at h
    split at h
    · rcases List.mem_cons.1 h with rfl | h
      · exact List.not_mem_nil
      · exact ih h
    · next hc =>
      cases hparts : splitOn separator cs with
      | nil => exact absurd hparts (splitOn_ne_nil separator cs)
      | cons first more =>
        rw [hparts] at h ih
        rcases List.mem_cons.1 h with rfl | h
        · exact List.not_mem_cons_of_ne_of_not_mem (Ne.symm hc) (ih List.mem_cons_self)
        · exact ih (List.mem_cons_of_mem first h)

/-- What has no separator and stands behind a text goes on with its last part. -/
theorem splitOn_append_part {separator : Char} {part : List Char} (h : separator ∉ part)
    (cs : List Char) : ∃ front last, splitOn separator cs = front ++ [last] ∧
      splitOn separator (cs ++ part) = front ++ [last ++ part] := by
  induction cs with
  | nil => exact ⟨[], [], rfl, splitOn_of_not_mem h⟩
  | cons c cs ih =>
    obtain ⟨front, last, hcs, happend⟩ := ih
    by_cases hc : c = separator
    · refine ⟨[] :: front, last, ?_, ?_⟩
      · rw [splitOn, if_pos hc, hcs, List.cons_append]
      · rw [List.cons_append, splitOn, if_pos hc, happend, List.cons_append]
    · cases front with
      | nil =>
        refine ⟨[], c :: last, ?_, ?_⟩
        · rw [splitOn, if_neg hc, hcs]
          rfl
        · rw [List.cons_append, splitOn, if_neg hc, happend]
          rfl
      | cons first front =>
        refine ⟨(c :: first) :: front, last, ?_, ?_⟩
        · rw [splitOn, if_neg hc, hcs]
          rfl
        · rw [List.cons_append, splitOn, if_neg hc, happend]
          rfl

/-- Every character of a text is a separator or stands in a part. -/
theorem mem_splitOn {separator c : Char} {cs : List Char} (h : c ∈ cs) :
    c = separator ∨ ∃ part ∈ splitOn separator cs, c ∈ part := by
  rw [← joinOn_splitOn separator cs] at h
  generalize splitOn separator cs = parts at h ⊢
  induction parts with
  | nil => cases h
  | cons part more ih =>
    cases more with
    | nil => exact .inr ⟨part, List.mem_singleton_self part, h⟩
    | cons next more =>
      rw [joinOn_cons _ _ (List.cons_ne_nil next more), List.mem_append, List.mem_cons] at h
      rcases h with h | h | h
      · exact .inr ⟨part, List.mem_cons_self, h⟩
      · exact .inl h
      · rcases ih h with hc | ⟨part', hpart', hc⟩
        · exact .inl hc
        · exact .inr ⟨part', List.mem_cons_of_mem part hpart', hc⟩

theorem joinOn_head (separator : Char) (front part : List Char) (more : List (List Char)) :
    joinOn separator ((front ++ part) :: more) = front ++ joinOn separator (part :: more) := by
  cases more with
  | nil => rfl
  | cons => exact List.append_assoc ..

/-- Parts put together in two rows. -/
theorem joinOn_append (separator : Char) {a b : List (List Char)} (ha : a ≠ []) (hb : b ≠ []) :
    joinOn separator (a ++ b) = joinOn separator a ++ separator :: joinOn separator b := by
  induction a with
  | nil => exact absurd rfl ha
  | cons part a ih =>
    cases a with
    | nil => exact joinOn_cons separator part hb
    | cons next a =>
      rw [List.cons_append, joinOn_cons _ _ (by simp), ih (List.cons_ne_nil next a),
        joinOn_cons _ _ (List.cons_ne_nil next a), List.append_assoc, List.cons_append]

end TagTemplate
