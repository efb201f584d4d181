import TagTemplate.Text.Hexadecimal
import TagTemplate.Toml.Document

/-!
# Words of TOML

Strings, numbers, dates and times, keys, comments. Each reader takes the start of a text and gives
what it read and the rest.
-/

namespace TagTemplate.Toml

/-- What reading yields: something read and the rest of the text. -/
abbrev Read (α : Type) := Option (α × List Char)

/-- Puts a character in front of what is read. -/
def push (c : Char) (r : Read (List Char)) : Read (List Char) :=
  r.map fun (cs, rest) => (c :: cs, rest)

/-! ## Space -/

def isSpace (c : Char) : Bool := c = ' ' || c = '\t'

def skipSpace (cs : List Char) : List Char := cs.dropWhile isSpace

/-- A character that may stand in a comment or a string: no control but the tab. -/
def isPlain (c : Char) : Bool := c = '\t' || (0x20 ≤ c.toNat && c.toNat ≠ 0x7F)

/-- The rest behind a line ending, if there is one here. -/
def lineEnding? : List Char → Option (List Char)
  | '\n' :: rest => some rest
  | '\r' :: '\n' :: rest => some rest
  | _ => none

/-- The rest behind a comment, if there is one here. -/
def skipComment : List Char → List Char
  | '#' :: rest => rest.dropWhile isPlain
  | cs => cs

/-- The rest of a line that holds nothing more but perhaps a comment. -/
def endOfLine? (cs : List Char) : Option (List Char) :=
  match skipComment (skipSpace cs) with
  | [] => some []
  | rest => lineEnding? rest

/-- Skips space, line endings and comments; `inComment` tells whether a comment is open. -/
def skipFiller (inComment : Bool) : List Char → List Char
  | [] => []
  | '\n' :: rest => skipFiller false rest
  | '\r' :: '\n' :: rest => skipFiller false rest
  | c :: rest =>
    if inComment then if isPlain c then skipFiller true rest else c :: rest
    else if c = '#' then skipFiller true rest
    else if isSpace c then skipFiller false rest
    else c :: rest

/-! ## Strings -/

def charOfDigits? (digits : List Char) : Option Char := (hexNumber? digits).bind scalar?

def simpleEscape? : Char → Option Char
  | 'b' => some '\x08'
  | 't' => some '\t'
  | 'n' => some '\n'
  | 'f' => some '\x0c'
  | 'r' => some '\r'
  | '"' => some '"'
  | '\\' => some '\\'
  | _ => none

/-- A string behind its opening quote, up to the closing one. -/
def basicBody : List Char → Read (List Char)
  | [] => none
  | '"' :: rest => some ([], rest)
  | '\\' :: 'u' :: a :: b :: c :: d :: rest =>
    (charOfDigits? [a, b, c, d]).bind fun char => push char (basicBody rest)
  | '\\' :: 'U' :: a :: b :: c :: d :: e :: f :: g :: h :: rest =>
    (charOfDigits? [a, b, c, d, e, f, g, h]).bind fun char => push char (basicBody rest)
  | '\\' :: c :: rest => (simpleEscape? c).bind fun char => push char (basicBody rest)
  | c :: rest => if isPlain c && c ≠ '\\' then push c (basicBody rest) else none

/-- A string without escapes behind its opening quote. -/
def literalBody : List Char → Read (List Char)
  | [] => none
  | '\'' :: rest => some ([], rest)
  | c :: rest => if isPlain c then push c (literalBody rest) else none

/-- What ends a string of several lines: three quotes, before which up to two more belong to
the string. -/
def closingQuotes (quote : Char) (rest : List Char) : List Char × List Char :=
  match rest with
  | a :: b :: more =>
    if a = quote ∧ b = quote then ([quote, quote], more)
    else if a = quote then ([quote], b :: more)
    else ([], rest)
  | [a] => if a = quote then ([quote], []) else ([], rest)
  | [] => ([], [])

/-- A backslash here stands at the end of its line. -/
def endsLine (rest : List Char) : Bool := (lineEnding? (skipSpace rest)).isSome

/-- A string of several lines behind its opening quotes. While `trimming`, white space is passed
over, as it is behind a backslash at the end of a line. -/
def longBasicBody (trimming : Bool) : List Char → Read (List Char)
  | [] => none
  | '"' :: '"' :: '"' :: rest => some (closingQuotes '"' rest)
  | '\r' :: '\n' :: rest =>
    if trimming then longBasicBody true rest else push '\n' (longBasicBody false rest)
  | '\n' :: rest =>
    if trimming then longBasicBody true rest else push '\n' (longBasicBody false rest)
  | '\\' :: 'u' :: a :: b :: c :: d :: rest =>
    (charOfDigits? [a, b, c, d]).bind fun char => push char (longBasicBody false rest)
  | '\\' :: 'U' :: a :: b :: c :: d :: e :: f :: g :: h :: rest =>
    (charOfDigits? [a, b, c, d, e, f, g, h]).bind fun char => push char (longBasicBody false rest)
  | '\\' :: c :: rest =>
    if endsLine (c :: rest) then longBasicBody true (c :: rest)
    else (simpleEscape? c).bind fun char => push char (longBasicBody false rest)
  | c :: rest =>
    if trimming && isSpace c then longBasicBody true rest
    else if isPlain c && c ≠ '\\' then push c (longBasicBody false rest)
    else none

/-- A string of several lines without escapes behind its opening quotes. -/
def longLiteralBody : List Char → Read (List Char)
  | [] => none
  | '\'' :: '\'' :: '\'' :: rest => some (closingQuotes '\'' rest)
  | '\r' :: '\n' :: rest => push '\n' (longLiteralBody rest)
  | '\n' :: rest => push '\n' (longLiteralBody rest)
  | c :: rest => if isPlain c then push c (longLiteralBody rest) else none

/-- The text without a line ending at its start. -/
def dropLineEnding (cs : List Char) : List Char := (lineEnding? cs).getD cs

/-- A string of any of the four forms. -/
def string? : List Char → Read (List Char)
  | '"' :: '"' :: '"' :: rest => longBasicBody false (dropLineEnding rest)
  | '\'' :: '\'' :: '\'' :: rest => longLiteralBody (dropLineEnding rest)
  | '"' :: rest => basicBody rest
  | '\'' :: rest => literalBody rest
  | _ => none

/-! ## Keys -/

/-- A character of a key without quotes. -/
def isBare (c : Char) : Bool :=
  ('a' ≤ c && c ≤ 'z') || ('A' ≤ c && c ≤ 'Z') || ('0' ≤ c && c ≤ '9') || c = '_' || c = '-'

/-- One segment of a key. -/
def segment? : List Char → Read (List Char)
  | '"' :: rest => basicBody rest
  | '\'' :: rest => literalBody rest
  | cs =>
    let word := cs.takeWhile isBare
    if word.isEmpty then none else some (word, cs.dropWhile isBare)

/-- The segments of a key, dots between them; `fuel` bounds their number. -/
def segments? (fuel : Nat) (cs : List Char) : Read (List String) :=
  match fuel with
  | 0 => none
  | fuel + 1 =>
    (segment? (skipSpace cs)).bind fun (name, rest) =>
      match skipSpace rest with
      | '.' :: rest =>
        (segments? fuel rest).map fun (names, rest) => (String.ofList name :: names, rest)
      | rest => some ([String.ofList name], rest)

/-- The nesting at which a document is refused. -/
def depthLimit : Nat := 80

/-- A key: fewer segments than the limit on nesting. -/
def key? (cs : List Char) : Read (List String) := segments? (depthLimit - 1) cs

/-! ## Numbers -/

def isDigit (c : Char) : Bool := '0' ≤ c && c ≤ '9'

/-- The number that digits of a base denote. -/
def ofDigits (base : Nat) (digits : List Char) : Nat :=
  digits.foldl (fun n c => base * n + (hexDigit? c).getD 0) 0

/-- More digits of a number; an underscore must stand between two of them. -/
def moreDigits (accepts : Char → Bool) : List Char → Read (List Char)
  | [] => some ([], [])
  | '_' :: rest =>
    match rest with
    | c :: rest => if accepts c then push c (moreDigits accepts rest) else none
    | [] => none
  | c :: rest => if accepts c then push c (moreDigits accepts rest) else some ([], c :: rest)

def digits? (accepts : Char → Bool) : List Char → Read (List Char)
  | c :: rest => if accepts c then push c (moreDigits accepts rest) else none
  | [] => none

/-- A sign, minus being `true`, and the rest. -/
def takeSign : List Char → Bool × List Char
  | '-' :: rest => (true, rest)
  | '+' :: rest => (false, rest)
  | rest => (false, rest)

/-- The digits of a decimal integer behind its sign: no zero before another digit. -/
def wholeDigits? : List Char → Read (List Char)
  | '0' :: rest => some (['0'], rest)
  | cs => digits? isDigit cs

/-- An integer of 64 bits with sign. -/
def boundedInt? (n : Int) : Option Toml :=
  if fitsSigned n then some (int n) else none

/-- An integer of a base other than ten, behind its mark. -/
def basedInt? (base : Nat) (cs : List Char) : Read Toml :=
  (digits? (fun c => (hexDigit? c).any (· < base)) cs).bind fun (digits, rest) =>
    (boundedInt? (ofDigits base digits)).map (·, rest)

/-- A float from its parts. The largest numbers round to infinity, which is refused unless it is
negative. -/
def float? (negative : Bool) (whole fraction : List Char) (power : Int) : Option Toml :=
  let digits := whole ++ fraction
  let x := Binary64.ofDecimal negative (ofDigits 10 digits) digits.length (power - fraction.length)
  if x.isInfinite && !negative then none else some (float x)

/-- An exponent part, if there is one here. -/
def exponent? : List Char → Read (Option Int)
  | [] => some (none, [])
  | c :: rest =>
    if c = 'e' ∨ c = 'E' then
      let (negative, rest) := takeSign rest
      (digits? isDigit rest).map fun (digits, rest) =>
        let n : Int := ofDigits 10 digits
        (some (if negative then -n else n), rest)
    else some (none, c :: rest)

/-- A decimal number: with a point or an exponent a float, otherwise an integer. -/
def decimal? (cs : List Char) : Read Toml :=
  let (negative, cs) := takeSign cs
  (wholeDigits? cs).bind fun (whole, rest) =>
    match rest with
    | '.' :: rest =>
      (digits? isDigit rest).bind fun (fraction, rest) =>
        (exponent? rest).bind fun (power, rest) =>
          (float? negative whole fraction (power.getD 0)).map (·, rest)
    | rest =>
      (exponent? rest).bind fun (power, rest) =>
        match power with
        | some power => (float? negative whole [] power).map (·, rest)
        | none =>
          let n : Int := ofDigits 10 whole
          (boundedInt? (if negative then -n else n)).map (·, rest)

/-- The float a word stands for, behind its sign. -/
def specialFloat? (cs : List Char) : Read Toml :=
  let (negative, rest) := takeSign cs
  match rest with
  | 'i' :: 'n' :: 'f' :: rest => some (float (.infinity negative), rest)
  | 'n' :: 'a' :: 'n' :: rest => some (float .nan, rest)
  | _ => none

def number? (cs : List Char) : Read Toml :=
  match specialFloat? cs with
  | some r => some r
  | none =>
    match cs with
    | '0' :: 'x' :: rest => basedInt? 16 rest
    | '0' :: 'o' :: rest => basedInt? 8 rest
    | '0' :: 'b' :: rest => basedInt? 2 rest
    | cs => decimal? cs

end TagTemplate.Toml
