/-!
# Byte offsets

A position in a text counts the UTF-8 bytes before it. A position is a boundary when no
character lies across it; only boundaries cut a text.
-/

namespace TagTemplate

/-- The length of a text in bytes. -/
def byteLength : List Char → Nat
  | [] => 0
  | c :: cs => c.utf8Size + byteLength cs

@[simp] theorem byteLength_nil : byteLength [] = 0 := rfl

@[simp] theorem byteLength_cons (c : Char) (cs : List Char) :
    byteLength (c :: cs) = c.utf8Size + byteLength cs := rfl

@[simp] theorem byteLength_append (a b : List Char) :
    byteLength (a ++ b) = byteLength a + byteLength b := by
  induction a with
  | nil => simp
  | cons c a ih => simp [ih, Nat.add_assoc]

/-- The characters that end at or before byte `n`: what precedes the last boundary that is
not after `n`. -/
def beforeByte : List Char → Nat → List Char
  | [], _ => []
  | c :: cs, n => if c.utf8Size ≤ n then c :: beforeByte cs (n - c.utf8Size) else []

/-- The two parts of a text around byte `n`, if `n` is a boundary within it. -/
def splitAtByte? : List Char → Nat → Option (List Char × List Char)
  | cs, 0 => some ([], cs)
  | [], _ + 1 => none
  | c :: cs, n + 1 =>
    if c.utf8Size ≤ n + 1 then
      (splitAtByte? cs (n + 1 - c.utf8Size)).map fun (a, b) => (c :: a, b)
    else none

/-- The text between two positions, if both are boundaries within it and in order. -/
def slice? (cs : List Char) (start stop : Nat) : Option (List Char) :=
  if start ≤ stop then
    (splitAtByte? cs start).bind fun (_, rest) =>
      (splitAtByte? rest (stop - start)).map (·.1)
  else none

theorem splitAtByte?_eq_some {cs a b : List Char} {n : Nat}
    (h : splitAtByte? cs n = some (a, b)) : cs = a ++ b ∧ byteLength a = n := by
  induction cs generalizing n a with
  | nil =>
    cases n with
    | zero => simp [splitAtByte?] at h; simp [h]
    | succ n => simp [splitAtByte?] at h
  | cons c cs ih =>
    cases n with
    | zero => simp [splitAtByte?] at h; simp [h.1, h.2]
    | succ n =>
      simp only [splitAtByte?] at h
      split at h
      · rename_i hle
        obtain ⟨⟨a', b'⟩, h', heq⟩ := Option.map_eq_some_iff.1 h
        obtain ⟨rfl, rfl⟩ := Prod.mk.inj heq
        obtain ⟨rfl, hlen⟩ := ih h'
        exact ⟨rfl, by simp; omega⟩
      · simp at h

theorem splitAtByte?_append (a b : List Char) :
    splitAtByte? (a ++ b) (byteLength a) = some (a, b) := by
  induction a with
  | nil => cases b <;> rfl
  | cons c a ih =>
    have hpos := c.utf8Size_pos
    obtain ⟨n, hn⟩ : ∃ n, c.utf8Size + byteLength a = n + 1 :=
      ⟨c.utf8Size + byteLength a - 1, by omega⟩
    have hsub : n + 1 - c.utf8Size = byteLength a := by omega
    have hle : c.utf8Size ≤ n + 1 := by omega
    simp only [List.cons_append, byteLength_cons, hn, splitAtByte?, hle, if_true, hsub, ih,
      Option.map_some]

end TagTemplate
