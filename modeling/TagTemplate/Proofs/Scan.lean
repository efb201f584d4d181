import TagTemplate.Scan

/-!
# What a scan finds

Main statements: `find?_eq_some_iff` and `find?_eq_none_iff`, a search gives the leftmost place
where the pattern matches; `matchLength?_padded`, a match of a pattern with white space before it
is white space and a match of its core.
-/

namespace TagTemplate

namespace Pattern

variable {p : Pattern} {cs : List Char}

/-! ## One match -/

/-- A match with white space before it is that white space and a match of the core. -/
theorem paddedLength?_eq_some {n : Nat} (h : p.paddedLength? cs = some n) :
    ∃ blanks rest k, cs = blanks ++ rest ∧ (∀ c ∈ blanks, isBlank c = true) ∧
      p.coreLength? rest = some k ∧ n = blanks.length + k := by
  induction cs generalizing n with
  | nil => exact ⟨[], [], n, rfl, by simp, h, by simp⟩
  | cons c cs ih =>
    -- a blank is passed over only if the pattern matches behind it
    have plain (h : p.coreLength? (c :: cs) = some n) : ∃ blanks rest k, c :: cs = blanks ++ rest ∧
        (∀ c ∈ blanks, isBlank c = true) ∧ p.coreLength? rest = some k ∧ n = blanks.length + k :=
      ⟨[], c :: cs, n, rfl, by simp, h, by simp⟩
    rw [paddedLength?] at h
    split at h
    · next hc =>
      split at h
      · next m hm =>
        obtain ⟨blanks, rest, k, rfl, hblanks, hcore, rfl⟩ := ih hm
        cases h
        exact ⟨c :: blanks, rest, k, rfl, by simpa [hc] using hblanks, hcore, by simp; omega⟩
      · exact plain h
    · exact plain h

theorem matchLength?_padded {n : Nat} (hpad : p.blankBefore = true)
    (h : p.matchLength? cs = some n) :
    ∃ blanks rest k, cs = blanks ++ rest ∧ (∀ c ∈ blanks, isBlank c = true) ∧
      p.coreLength? rest = some k ∧ n = blanks.length + k := by
  rw [matchLength?, if_pos hpad] at h
  exact paddedLength?_eq_some h

/-- White space in front does not spoil a match that allows for it. -/
theorem matchLength?_blank_cons {c : Char} (hpad : p.blankBefore = true) (hc : isBlank c = true)
    (h : (p.matchLength? cs).isSome) : (p.matchLength? (c :: cs)).isSome := by
  rw [matchLength?, if_pos hpad] at h ⊢
  obtain ⟨n, hn⟩ := Option.isSome_iff_exists.1 h
  simp [paddedLength?, hc, hn]

/-! ## The leftmost match -/

theorem find?_of_matches (here : (p.matchLength? cs).isSome) : p.find? cs = some 0 := by
  obtain ⟨n, hn⟩ := Option.isSome_iff_exists.1 here
  cases cs <;> simp [find?, hn]

theorem find?_cons_of_none {c : Char} (hfree : p.anchored = false)
    (here : p.matchLength? (c :: cs) = none) : p.find? (c :: cs) = (p.find? cs).map (· + 1) := by
  simp [find?, hfree, here]

/-- A search ends at the first place that has a match. -/
theorem find?_eq_some_iff (hfree : p.anchored = false) {n : Nat} :
    p.find? cs = some n ↔ n ≤ cs.length ∧ (p.matchLength? (cs.drop n)).isSome ∧
      ∀ k < n, p.matchLength? (cs.drop k) = none := by
  induction cs generalizing n with
  | nil =>
    rw [find?]
    constructor
    · intro h
      obtain ⟨m, hm, rfl⟩ := Option.map_eq_some_iff.1 h
      simp [hm]
    · rintro ⟨hn, hmatch, -⟩
      obtain rfl : n = 0 := by simpa using hn
      obtain ⟨m, hm⟩ := Option.isSome_iff_exists.1 hmatch
      simp at hm
      simp [hm]
  | cons c cs ih =>
    cases here : p.matchLength? (c :: cs) with
    | some m =>
      rw [find?_of_matches (by simp [here])]
      constructor
      · intro h
        cases h
        exact ⟨by simp, by simp [here], by simp⟩
      · rintro ⟨-, -, hbefore⟩
        cases n with
        | zero => rfl
        | succ n => exact absurd (hbefore 0 (by omega)) (by simp [here])
    | none =>
      rw [find?_cons_of_none hfree here, Option.map_eq_some_iff]
      constructor
      · rintro ⟨m, hm, rfl⟩
        obtain ⟨hle, hmatch, hbefore⟩ := ih.1 hm
        refine ⟨by simpa using hle, by simpa using hmatch, ?_⟩
        intro k hk
        cases k with
        | zero => exact here
        | succ k => simpa using hbefore k (by omega)
      · rintro ⟨hle, hmatch, hbefore⟩
        cases n with
        | zero => exact absurd hmatch (by simp [here])
        | succ n =>
          refine ⟨n, ih.2 ⟨by simpa using hle, by simpa using hmatch, ?_⟩, rfl⟩
          intro k hk
          simpa using hbefore (k + 1) (by omega)

/-- A search fails when the pattern matches nowhere. -/
theorem find?_eq_none_iff (hfree : p.anchored = false) :
    p.find? cs = none ↔ ∀ k ≤ cs.length, p.matchLength? (cs.drop k) = none := by
  induction cs with
  | nil => simp [find?]
  | cons c cs ih =>
    cases here : p.matchLength? (c :: cs) with
    | some m =>
      rw [find?_of_matches (by simp [here])]
      refine iff_of_false (by simp) fun h => ?_
      exact absurd (h 0 (by omega)) (by simp [here])
    | none =>
      rw [find?_cons_of_none hfree here, Option.map_eq_none_iff, ih]
      constructor
      · intro h k hk
        cases k with
        | zero => exact here
        | succ k => simpa using h k (by simpa using hk)
      · intro h k hk
        simpa using h (k + 1) (by simpa using hk)

end Pattern

/-! ## Moves of a cursor -/

namespace Cursor

variable {p : Pattern} {c : Cursor}

/-- A scan and a search split what remains of the text. -/
theorem scan_append (p : Pattern) (c : Cursor) : (c.scan p).1 ++ (c.scan p).2.rest = c.rest :=
  advance_rest ..

theorem scanUntil_append (p : Pattern) (c : Cursor) :
    (c.scanUntil p).1 ++ (c.scanUntil p).2.rest = c.rest := advance_rest ..

/-- Where the text ends, which no move changes. -/
def stop (c : Cursor) : Nat := c.pos + byteLength c.rest

@[simp] theorem advance_stop (c : Cursor) (n : Nat) : (c.advance n).2.stop = c.stop := by
  have happ := congrArg byteLength (advance_rest c n)
  rw [byteLength_append] at happ
  simp only [stop, advance_pos]
  omega

@[simp] theorem scan_stop (p : Pattern) (c : Cursor) : (c.scan p).2.stop = c.stop :=
  advance_stop ..

@[simp] theorem scanUntil_stop (p : Pattern) (c : Cursor) : (c.scanUntil p).2.stop = c.stop :=
  advance_stop ..

/-- A search stops where the pattern matches, or at the end. -/
theorem scanUntil_stops (hfree : p.anchored = false) :
    (c.scanUntil p).2.rest = [] ∨ (p.matchLength? (c.scanUntil p).2.rest).isSome := by
  simp only [scanUntil, advance]
  cases h : p.find? c.rest with
  | none => simp
  | some n => exact .inr ((Pattern.find?_eq_some_iff hfree).1 h).2.1

/-- Nothing that a search skips starts a match. -/
theorem scanUntil_skips (hfree : p.anchored = false) {a b : List Char}
    (h : (c.scanUntil p).1 = a ++ b) (hb : b ≠ []) :
    p.matchLength? (b ++ (c.scanUntil p).2.rest) = none := by
  -- `b` starts before the place where the search ends, so nothing matches there
  have hlt : a.length < (c.scanUntil p).1.length := by
    rw [h, List.length_append]
    have := List.length_pos_iff.2 hb
    omega
  have hdrop : b ++ (c.scanUntil p).2.rest = c.rest.drop a.length := by
    rw [← scanUntil_append p c, h, List.append_assoc, List.drop_left]
  rw [hdrop]
  simp only [scanUntil, advance, List.length_take] at hlt
  cases hfind : p.find? c.rest with
  | none =>
    refine (Pattern.find?_eq_none_iff hfree).1 hfind _ ?_
    rw [hfind] at hlt
    simp at hlt
    omega
  | some n =>
    refine ((Pattern.find?_eq_some_iff hfree).1 hfind).2.2 _ ?_
    rw [hfind] at hlt
    simp only [Option.getD_some] at hlt
    omega

end Cursor

end TagTemplate
