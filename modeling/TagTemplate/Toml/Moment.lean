import TagTemplate.Toml.Lexeme

/-!
# Dates and times of TOML

A date, a time, or both with or without an offset. Each is kept as its text in one spelling: a
`T` between date and time, at most nine places of a second without zeros at the end.
-/

namespace TagTemplate.Toml

/-- A number of exactly `count` digits. -/
def fixedDigits? (count : Nat) (cs : List Char) : Option (Nat × List Char) :=
  let digits := cs.take count
  if digits.length = count ∧ digits.all isDigit then some (ofDigits 10 digits, cs.drop count)
  else none

/-- A number with zeros before it up to a width. -/
def zeroPadded (width n : Nat) : String :=
  let digits := Nat.toDigits 10 n
  String.ofList (List.replicate (width - digits.length) '0' ++ digits)

/-- The character, and the rest. -/
def char? (c : Char) : List Char → Option (List Char)
  | d :: rest => if d = c then some rest else none
  | [] => none

def isLeapYear (year : Nat) : Bool := year % 4 = 0 && (year % 100 ≠ 0 || year % 400 = 0)

def daysOf (year month : Nat) : Nat :=
  if month = 2 then if isLeapYear year then 29 else 28
  else if month = 4 ∨ month = 6 ∨ month = 9 ∨ month = 11 then 30
  else 31

def date? (cs : List Char) : Option (String × List Char) := do
  let (year, cs) ← fixedDigits? 4 cs
  let cs ← char? '-' cs
  let (month, cs) ← fixedDigits? 2 cs
  let cs ← char? '-' cs
  let (day, cs) ← fixedDigits? 2 cs
  if 1 ≤ month ∧ month ≤ 12 ∧ 1 ≤ day ∧ day ≤ daysOf year month then
    some (zeroPadded 4 year ++ "-" ++ zeroPadded 2 month ++ "-" ++ zeroPadded 2 day, cs)
  else none

/-- The places of a second, nine at most and without zeros at the end. -/
def places (digits : List Char) : String :=
  let kept := ((digits.take 9).reverse.dropWhile (· = '0')).reverse
  if kept.isEmpty then "" else String.ofList ('.' :: kept)

def time? (cs : List Char) : Option (String × List Char) := do
  let (hour, cs) ← fixedDigits? 2 cs
  let cs ← char? ':' cs
  let (minute, cs) ← fixedDigits? 2 cs
  let cs ← char? ':' cs
  let (second, cs) ← fixedDigits? 2 cs
  if hour ≤ 23 ∧ minute ≤ 59 ∧ second ≤ 60 then
    let text := zeroPadded 2 hour ++ ":" ++ zeroPadded 2 minute ++ ":" ++ zeroPadded 2 second
    match cs with
    | '.' :: more =>
      let digits := more.takeWhile isDigit
      if digits.isEmpty then some (text, cs) else some (text ++ places digits, more.dropWhile isDigit)
    | cs => some (text, cs)
  else none

/-- An offset from universal time. An offset of nothing is written with a plus sign. -/
def offset? : List Char → Option (String × List Char)
  | 'Z' :: rest => some ("Z", rest)
  | 'z' :: rest => some ("Z", rest)
  | c :: rest => do
    if c ≠ '+' ∧ c ≠ '-' then none
    else
      let (hour, rest) ← fixedDigits? 2 rest
      let rest ← char? ':' rest
      let (minute, rest) ← fixedDigits? 2 rest
      if hour ≤ 23 ∧ minute ≤ 59 then
        let sign := if c = '-' ∧ 0 < hour + minute then "-" else "+"
        some (sign ++ zeroPadded 2 hour ++ ":" ++ zeroPadded 2 minute, rest)
      else none
  | [] => none

/-- A time that may follow a date. -/
def timeAfterDate? : List Char → Option (String × List Char)
  | c :: rest => do
    if c ≠ 'T' ∧ c ≠ 't' ∧ c ≠ ' ' then none
    else
      let (time, rest) ← time? rest
      match offset? rest with
      | some (offset, rest) => some ("T" ++ time ++ offset, rest)
      | none => some ("T" ++ time, rest)
  | [] => none

def moment? (cs : List Char) : Read Toml :=
  match date? cs with
  | some (date, rest) =>
    match timeAfterDate? rest with
    | some (time, rest) => some (moment (date ++ time), rest)
    | none => some (moment date, rest)
  | none => (time? cs).map fun (time, rest) => (moment time, rest)

end TagTemplate.Toml
