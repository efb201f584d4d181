import TagTemplate.Number.Binary64

/-!
# Reading a double

A sign, digits with or without a point, an exponent; or the name of an infinity or of NaN, in any
case of letters. The result is the double nearest to the number written.
-/

namespace TagTemplate.Binary64

def isDigit (c : Char) : Bool := '0' ≤ c && c ≤ '9'

/-- The number that decimal digits denote. -/
def ofDigits (digits : List Char) : Nat :=
  digits.foldl (fun n c => 10 * n + (c.toNat - '0'.toNat)) 0

/-- A sign, if there is one, and the rest; minus is `true`. -/
def takeSign : List Char → Bool × List Char
  | '-' :: rest => (true, rest)
  | '+' :: rest => (false, rest)
  | rest => (false, rest)

/-- The power of ten of an exponent part; none if it is malformed. -/
def exponentOf? : List Char → Option Int
  | [] => some 0
  | c :: rest =>
    if c = 'e' ∨ c = 'E' then
      let (negative, digits) := takeSign rest
      if digits.isEmpty || !digits.all isDigit then none
      else some (if negative then -(ofDigits digits : Int) else ofDigits digits)
    else none

def unsigned? (negative : Bool) (cs : List Char) : Option Binary64 :=
  let whole := cs.takeWhile isDigit
  let rest := cs.dropWhile isDigit
  let (fraction, rest) := match rest with
    | '.' :: rest => (rest.takeWhile isDigit, rest.dropWhile isDigit)
    | rest => ([], rest)
  let digits := whole ++ fraction
  if digits.isEmpty then none
  else (exponentOf? rest).map fun power =>
    ofDecimal negative (ofDigits digits) digits.length (power - fraction.length)

def ofText? (text : String) : Option Binary64 :=
  let (negative, rest) := takeSign text.toList
  let name := String.ofList (rest.map Char.toLower)
  if name = "inf" ∨ name = "infinity" then some (infinity negative)
  else if name = "nan" then some nan
  else unsigned? negative rest

example : ofText? "-2.5e-1" = some (nearest true 1 4) := by decide +kernel
example : ofText? "1e400" = some (infinity false) := by decide +kernel
example : ofText? "." = none := by decide +kernel

end TagTemplate.Binary64
