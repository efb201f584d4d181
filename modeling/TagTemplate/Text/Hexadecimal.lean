/-!
# Hexadecimal numbers

Digits to the base sixteen, and the characters whose numbers they give.
-/

namespace TagTemplate

/-- The value of a hexadecimal digit, in either case. -/
def hexDigit? (c : Char) : Option Nat :=
  if '0' ≤ c ∧ c ≤ '9' then some (c.toNat - '0'.toNat)
  else if 'a' ≤ c ∧ c ≤ 'f' then some (c.toNat - 'a'.toNat + 10)
  else if 'A' ≤ c ∧ c ≤ 'F' then some (c.toNat - 'A'.toNat + 10)
  else none

def hexNumber? (digits : List Char) : Option Nat :=
  digits.foldlM (fun n c => (hexDigit? c).map (16 * n + ·)) 0

/-- The character of a number, unless it is no Unicode scalar value. -/
def scalar? (n : Nat) : Option Char :=
  if n.isValidChar then some (Char.ofNat n) else none

example : hexNumber? "1f".toList = some 31 := by decide
example : hexNumber? "1g".toList = none := by decide
example : scalar? 0xD800 = none := by decide

end TagTemplate
