import TagTemplate.Number.Shortest

/-!
# The text of a double

Positional from `10 ^ -6` up to, not including, `10 ^ 21`, otherwise with a signed exponent. An
integral number in the positional range has all its digits, any other number its shortest ones.
-/

namespace TagTemplate

/-- How doubles are written. -/
structure NumberFormat where
  /-- The least magnitude written positionally. -/
  positionalFrom : Binary64
  /-- The first magnitude above these. -/
  positionalBelow : Binary64
  nanText : String
  infinityText : String
  exponentMark : String
  positiveExponentSign : String

/-- The format of numbers in rendered text. -/
def numberFormat : NumberFormat where
  positionalFrom := .nearest false 1 (tenTo 6)
  positionalBelow := .ofNat (tenTo 21)
  nanText := "NaN"
  infinityText := "Infinity"
  exponentMark := "e"
  positiveExponentSign := "+"

namespace Decimal

def digits (d : Decimal) : List Char := Nat.toDigits 10 d.coefficient

/-- The decimal in positional notation, without exponent. -/
def positional (d : Decimal) : List Char :=
  match d.exponent with
  | .ofNat e => d.digits ++ List.replicate e '0'
  | .negSucc e =>
    let places := e + 1
    let padded := List.replicate (places + 1 - d.digits.length) '0' ++ d.digits
    padded.take (padded.length - places) ++ '.' :: padded.drop (padded.length - places)

/-- One digit before the point, the others behind it, and the power of ten. -/
def scientific (f : NumberFormat) (d : Decimal) : List Char :=
  let power := d.exponent + (d.digits.length - 1 : Nat)
  let tail := d.digits.drop 1
  d.digits.take 1 ++ (if tail.isEmpty then [] else '.' :: tail) ++ f.exponentMark.toList ++
    match power with
    | .ofNat n => f.positiveExponentSign.toList ++ Nat.toDigits 10 n
    | .negSucc n => '-' :: Nat.toDigits 10 (n + 1)

end Decimal

namespace Binary64

def displayPositive (f : NumberFormat) (x : Binary64) (coefficient scale : Nat) : List Char :=
  if x.magnitudeBits < f.positionalFrom.magnitudeBits ∨
      f.positionalBelow.magnitudeBits ≤ x.magnitudeBits then
    (shortest coefficient scale).scientific f
  else
    let units := coefficient * twoTo scale
    if units % twoTo unitExponent = 0 then Nat.toDigits 10 (units / twoTo unitExponent)
    else (shortest coefficient scale).positional

/-- The text of a number in a format. Zero has no sign. -/
def displayIn (f : NumberFormat) (x : Binary64) : String :=
  match x.classify with
  | .nan => f.nanText
  | .infinite negative => (if negative then "-" else "") ++ f.infinityText
  | .finite negative coefficient scale =>
    if coefficient = 0 then "0"
    else (if negative then "-" else "") ++ String.ofList (x.displayPositive f coefficient scale)

def display (x : Binary64) : String := x.displayIn numberFormat

example : (ofDecimal false 15 2 (-1)).display = "1.5" := by decide +kernel
example : (ofDecimal false 1 1 21).display = "1e+21" := by decide +kernel
example : (ofDecimal true 25 2 (-9)).display = "-2.5e-8" := by decide +kernel
example : (ofDecimal false 1 1 (-6)).display = "0.000001" := by decide +kernel
example : (zero true).display = "0" := by decide +kernel

end Binary64

end TagTemplate
