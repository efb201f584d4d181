/-!
# Log records
-/

namespace TagTemplate

/-- How grave a record is, the gravest first. -/
inductive LogLevel where
  | error
  | warning
  | info
  | debug
  | trace
  deriving DecidableEq, Repr

namespace LogLevel

/-- The place of the level, counted from 1; 0 stands for no level at all. -/
def rank : LogLevel → Nat
  | error => 1
  | warning => 2
  | info => 3
  | debug => 4
  | trace => 5

def label : LogLevel → String
  | error => "ERROR"
  | warning => "WARN"
  | info => "INFO"
  | debug => "DEBUG"
  | trace => "TRACE"

end LogLevel

/-- Something that is told to who watches. -/
structure LogRecord where
  level : LogLevel
  /-- The part of the program that tells it. -/
  target : String
  message : String
  deriving DecidableEq, Repr

namespace LogRecord

def hexadecimal (n : Nat) : List Char := Nat.toDigits 16 n

/-- A character that could steer a terminal is spelled out; the ends of lines stay. -/
def spellControl (c : Char) : List Char :=
  let n := c.toNat
  if n = 0x07 ∨ n = 0x08 ∨ n = 0x0C ∨ n = 0x1B ∨ n = 0x7F then
    ['\\', 'x'] ++ (if n < 0x10 then ['0'] else []) ++ hexadecimal n
  else if 0x80 ≤ n ∧ n ≤ 0x9F then ['\\', 'u', '{'] ++ hexadecimal n ++ ['}']
  else [c]

/-- The record as a line without its time; a message of several lines takes as many. -/
def line (r : LogRecord) : String :=
  r.level.label ++ " " ++ r.target ++ ": " ++
  String.ofList (r.message.toList.flatMap spellControl)

end LogRecord

end TagTemplate
