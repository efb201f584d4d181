import TagTemplate.Number.Power

/-!
# Double-precision numbers

The numbers of the binary64 format, kept as their 64 bits and computed with exactly: a finite
number is `coefficient * 2 ^ scale` units, a unit being `2 ^ -1074`, the smallest positive
number. Every result that is no such number is rounded to the nearest, a tie to the even one.
-/

namespace TagTemplate

/-- A number of the binary64 format. -/
structure Binary64 where
  bits : UInt64
  deriving DecidableEq, Repr

namespace Binary64

/-- The unit is `2 ^ -unitExponent`. -/
def unitExponent : Nat := 1074

/-- The number of fraction bits. -/
def fractionBits : Nat := 52

/-- The exponent field of numbers that are not finite. -/
def topExponent : Nat := 2047

/-- What a bit pattern stands for. -/
inductive Class where
  | nan
  | infinite (negative : Bool)
  /-- `coefficient * 2 ^ scale` units. -/
  | finite (negative : Bool) (coefficient scale : Nat)
  deriving DecidableEq, Repr

/-- The bits without the sign. -/
def magnitudeBits (x : Binary64) : Nat := x.bits.toNat % signedLimit

def isNegative (x : Binary64) : Bool := signedLimit ≤ x.bits.toNat

def classify (x : Binary64) : Class :=
  let exponent := x.magnitudeBits / twoTo fractionBits
  let fraction := x.magnitudeBits % twoTo fractionBits
  if exponent = topExponent then
    if fraction = 0 then .infinite x.isNegative else .nan
  else if exponent = 0 then .finite x.isNegative fraction 0
  else .finite x.isNegative (twoTo fractionBits + fraction) (exponent - 1)

/-- A number from its sign and the bits without the sign. -/
def ofMagnitudeBits (negative : Bool) (magnitude : Nat) : Binary64 :=
  ⟨UInt64.ofNat (magnitude + if negative then signedLimit else 0)⟩

def infinity (negative : Bool) : Binary64 :=
  ofMagnitudeBits negative (topExponent * twoTo fractionBits)

def nan : Binary64 :=
  ofMagnitudeBits false (topExponent * twoTo fractionBits + twoTo (fractionBits - 1))

def zero (negative : Bool) : Binary64 := ofMagnitudeBits negative 0

/-- The quotient rounded to the nearest natural number, a tie to the even one. -/
def roundQuotient (num den : Nat) : Nat :=
  let floor := num / den
  let twice := 2 * (num % den)
  if den < twice ∨ twice = den ∧ floor % 2 = 1 then floor + 1 else floor

/-- The number nearest to `num / den`; beyond the largest one, infinity. A coefficient that
rounds up to `2 ^ 53` carries into the exponent by the addition. -/
def nearest (negative : Bool) (num den : Nat) : Binary64 :=
  let units := num * twoTo unitExponent
  let scale := (units / den).log2 - fractionBits
  let coefficient := roundQuotient units (den * twoTo scale)
  ofMagnitudeBits negative
    (min (scale * twoTo fractionBits + coefficient) (topExponent * twoTo fractionBits))

def ofNat (n : Nat) : Binary64 := nearest false n 1

def ofInt (n : Int) : Binary64 := nearest (n < 0) n.natAbs 1

/-- Powers of ten beyond this one leave the range in either direction, whatever the digits. -/
def decimalReach : Nat := 400

/-- The number nearest to `digits * 10 ^ exponent`, `digits` having `count` decimal digits. -/
def ofDecimal (negative : Bool) (digits count : Nat) (exponent : Int) : Binary64 :=
  if digits = 0 then zero negative
  else match exponent with
    | .ofNat e => if decimalReach < e then infinity negative else nearest negative (digits * tenTo e) 1
    | .negSucc e =>
      if decimalReach + count < e + 1 then zero negative else nearest negative digits (tenTo (e + 1))

def isZero (x : Binary64) : Bool := x.magnitudeBits = 0

def isNaN (x : Binary64) : Bool := topExponent * twoTo fractionBits < x.magnitudeBits

def isInfinite (x : Binary64) : Bool := x.magnitudeBits = topExponent * twoTo fractionBits

/-- Equality of numbers: the zeros are equal, and no NaN equals anything. -/
def eq (x y : Binary64) : Bool :=
  if x.isNaN || y.isNaN then false
  else if x.isZero then y.isZero
  else x.bits = y.bits

def abs (x : Binary64) : Binary64 := ofMagnitudeBits false x.magnitudeBits

/-- The rounded product of a finite number and a positive finite number. -/
def times (x y : Binary64) : Binary64 :=
  match x.classify, y.classify with
  | .finite s a i, .finite t b j =>
    nearest (s != t) (a * twoTo i * (b * twoTo j)) (twoTo (2 * unitExponent))
  | _, _ => nan

/-- The rounded quotient of a finite number and a finite number other than zero. -/
def dividedBy (x y : Binary64) : Binary64 :=
  match x.classify, y.classify with
  | .finite s a i, .finite t b j => nearest (s != t) (a * twoTo i) (b * twoTo j)
  | _, _ => nan

example : (ofDecimal false 1 1 (-1)).bits = 0x3FB999999999999A := by decide +kernel
example : (ofDecimal false 17976931348623157 17 292).bits = 0x7FEFFFFFFFFFFFFF := by decide +kernel
example : (ofDecimal false 5 1 (-324)).bits = 1 := by decide +kernel

end Binary64

end TagTemplate
