import TagTemplate.Json.Document
import TagTemplate.Text.Hexadecimal

/-!
# Reading JSON

Strict RFC 8259, with a ceiling on nesting. A number without point and exponent that fits in 64
bits is an integer. Any other number is read from its first digits, as many as fit in 64 bits,
by one rounded multiplication or division by a power of ten; one that is too large is refused.
-/

namespace TagTemplate.Json

/-- What reading yields: a value and the rest of the text. -/
abbrev Read (α : Type) := Option (α × List Char)

def isSpace (c : Char) : Bool := c = ' ' || c = '\n' || c = '\r' || c = '\t'

def skipSpace (cs : List Char) : List Char := cs.dropWhile isSpace

/-! ## Strings -/

/-- The character of a one-letter escape. -/
def simpleEscape? : Char → Option Char
  | '"' => some '"'
  | '\\' => some '\\'
  | '/' => some '/'
  | 'b' => some '\x08'
  | 'f' => some '\x0c'
  | 'n' => some '\n'
  | 'r' => some '\r'
  | 't' => some '\t'
  | _ => none

/-- The character of a pair of surrogates. -/
def surrogates? (high low : Nat) : Option Char :=
  if 0xD800 ≤ high ∧ high < 0xDC00 ∧ 0xDC00 ≤ low ∧ low < 0xE000 then
    scalar? (0x10000 + (high - 0xD800) * 0x400 + (low - 0xDC00))
  else none

/-- Puts a character in front of what is read. -/
def push (c : Char) (r : Read (List Char)) : Read (List Char) := r.map fun (cs, rest) => (c :: cs, rest)

/-- A string behind its opening quote. -/
def stringBody : List Char → Read (List Char)
  | [] => none
  | '"' :: rest => some ([], rest)
  | '\\' :: 'u' :: a :: b :: c :: d :: rest =>
    (hexNumber? [a, b, c, d]).bind fun first =>
      match scalar? first, rest with
      | some char, rest => push char (stringBody rest)
      | none, '\\' :: 'u' :: e :: f :: g :: h :: rest =>
        ((hexNumber? [e, f, g, h]).bind (surrogates? first)).bind fun char =>
          push char (stringBody rest)
      | none, _ => none
  | '\\' :: c :: rest => (simpleEscape? c).bind fun char => push char (stringBody rest)
  | c :: rest => if c.toNat < 0x20 || c = '\\' then none else push c (stringBody rest)

/-! ## Numbers -/

def isDigit (c : Char) : Bool := '0' ≤ c && c ≤ '9'

def digitValue (c : Char) : Nat := c.toNat - '0'.toNat

/-- Appends digits to a number as long as it fits in 64 bits; the number, how many digits were
taken, and the digits left over. -/
def takeDigits (n : Nat) (taken : Nat) : List Char → Nat × Nat × List Char
  | [] => (n, taken, [])
  | c :: cs =>
    if isDigit c ∧ 10 * n + digitValue c < wordLimit then
      takeDigits (10 * n + digitValue c) (taken + 1) cs
    else (n, taken, c :: cs)

/-- The largest power of ten with a double. -/
def powerReach : Nat := 308

/-- The double of `n`, once multiplied or divided by `10 ^ exponent`; a division by more than
the largest power of ten is done in two steps. None if the product is too large. -/
def scaled? (n : Nat) (exponent : Int) : Option Binary64 :=
  let x := Binary64.ofNat n
  if x.isZero then some x
  else match exponent with
    | .ofNat e =>
      if powerReach < e then none
      else
        let y := x.times (.ofNat (tenTo e))
        if y.isInfinite then none else some y
    | .negSucc e =>
      let e := e + 1
      if e ≤ powerReach then some (x.dividedBy (.ofNat (tenTo e)))
      else if e ≤ 2 * powerReach then
        some ((x.dividedBy (.ofNat (tenTo powerReach))).dividedBy (.ofNat (tenTo (e - powerReach))))
      else some (.zero false)

/-- The sign put on a number. -/
def signed (negative : Bool) (x : Binary64) : Binary64 :=
  .ofMagnitudeBits negative x.magnitudeBits

/-- The end of a number whose digits give `n * 10 ^ exponent`: an exponent part, or nothing. -/
def exponentPart (negative : Bool) (n : Nat) (exponent : Int) : List Char → Read Json
  | [] => (scaled? n exponent).map fun x => (float (signed negative x), [])
  | c :: cs =>
    if c = 'e' ∨ c = 'E' then
      let (minus, cs) := match cs with
        | '+' :: cs => (false, cs)
        | '-' :: cs => (true, cs)
        | cs => (false, cs)
      let digits := cs.takeWhile isDigit
      let power := digits.foldl (fun n c => 10 * n + digitValue c) 0
      if digits.isEmpty then none
      else (scaled? n (if minus then exponent - power else exponent + power)).map fun x =>
        (float (signed negative x), cs.dropWhile isDigit)
    else (scaled? n exponent).map fun x => (float (signed negative x), c :: cs)

/-- The rest of a number behind its point. -/
def fractionPart (negative : Bool) (n : Nat) (exponent : Int) (cs : List Char) : Read Json :=
  if (cs.head?.map isDigit).getD false then
    let (n, taken, rest) := takeDigits n 0 cs
    exponentPart negative n (exponent - taken) (rest.dropWhile isDigit)
  else none

/-- What follows the integral digits `n * 10 ^ dropped` of a number. -/
def numberTail (negative : Bool) (n dropped : Nat) : List Char → Read Json
  | '.' :: cs => fractionPart negative n dropped cs
  | cs =>
    if (cs.head?.map fun c => c == 'e' || c == 'E').getD false ∨ 0 < dropped then
      exponentPart negative n dropped cs
    else if negative then
      if n = 0 ∨ signedLimit < n then some (float (signed true (.ofNat n)), cs)
      else some (int (-n), cs)
    else some (int n, cs)

/-- A number behind its sign. -/
def unsignedNumber (negative : Bool) : List Char → Read Json
  | '0' :: cs =>
    if (cs.head?.map isDigit).getD false then none else numberTail negative 0 0 cs
  | cs =>
    if (cs.head?.map isDigit).getD false then
      let (n, _, rest) := takeDigits 0 0 cs
      numberTail negative n (rest.takeWhile isDigit).length (rest.dropWhile isDigit)
    else none

/-! ## Documents -/

def word? (word : String) (value : Json) (cs : List Char) : Read Json :=
  if word.toList.isPrefixOf cs then some (value, cs.drop word.length) else none

mutual

/-- A value, with white space before it; `depth` levels of nesting are left. `fuel` bounds the
number of nested calls and never runs out when it exceeds twice the length of the text. -/
def readValue (fuel depth : Nat) (cs : List Char) : Read Json :=
  match fuel with
  | 0 => none
  | fuel + 1 =>
    match skipSpace cs with
    | 'n' :: rest => word? "ull" null rest
    | 't' :: rest => word? "rue" (bool true) rest
    | 'f' :: rest => word? "alse" (bool false) rest
    | '"' :: rest => (stringBody rest).map fun (s, rest) => (string (String.ofList s), rest)
    | '-' :: rest => unsignedNumber true rest
    | '[' :: rest =>
      if depth ≤ 1 then none
      else match skipSpace rest with
        | ']' :: rest => some (array [], rest)
        | rest => (readItems fuel (depth - 1) rest).map fun (xs, rest) => (array xs, rest)
    | '{' :: rest =>
      if depth ≤ 1 then none
      else match skipSpace rest with
        | '}' :: rest => some (object [], rest)
        | rest => (readMembers fuel (depth - 1) rest).map fun (ms, rest) => (object ms, rest)
    | rest => unsignedNumber false rest

/-- The items of a list that is not empty, and its end. -/
def readItems (fuel depth : Nat) (cs : List Char) : Read (List Json) :=
  match fuel with
  | 0 => none
  | fuel + 1 =>
    match readValue fuel depth cs with
    | none => none
    | some (x, rest) =>
      match skipSpace rest with
      | ']' :: rest => some ([x], rest)
      | ',' :: rest => (readItems fuel depth rest).map fun (xs, rest) => (x :: xs, rest)
      | _ => none

/-- The members of an object that is not empty, and its end. -/
def readMembers (fuel depth : Nat) (cs : List Char) : Read (List (String × Json)) :=
  match fuel with
  | 0 => none
  | fuel + 1 =>
    match skipSpace cs with
    | '"' :: rest =>
      match stringBody rest with
      | none => none
      | some (key, rest) =>
        match skipSpace rest with
        | ':' :: rest =>
          match readValue fuel depth rest with
          | none => none
          | some (x, rest) =>
            match skipSpace rest with
            | '}' :: rest => some ([(String.ofList key, x)], rest)
            | ',' :: rest =>
              (readMembers fuel depth rest).map fun (ms, rest) => ((String.ofList key, x) :: ms, rest)
            | _ => none
        | _ => none
    | _ => none

end

/-- The nesting at which views are refused. -/
def depthLimit : Nat := 128

/-- The document of a text with fewer than `depth` levels of nesting. -/
def parseWithin? (depth : Nat) (text : String) : Option Json :=
  let cs := text.toList
  match readValue (2 * cs.length + 2) depth cs with
  | some (doc, rest) => if (skipSpace rest).isEmpty then some doc else none
  | none => none

def parse? (text : String) : Option Json := parseWithin? depthLimit text

end TagTemplate.Json
