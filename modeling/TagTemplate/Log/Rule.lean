import TagTemplate.Log.Record
import TagTemplate.Number.Text
import TagTemplate.Text.Expression
import TagTemplate.Text.Offset
import TagTemplate.Text.Split

/-!
# Rules of a filter

A rule says how much is shown of some records: `level`, `target=level`, a bare target, of which
everything is shown, or `target[span{field=value}]=level`, in which all but a bracket or the
target may be missing. A rule that names a span or a value is about spans, of which there are
none here; one that names a field alone is about the records that have it.
-/

namespace TagTemplate

/-- How much is shown of the records whose target begins with a text. -/
structure LogRule where
  /-- Empty for all records. -/
  target : String := ""
  /-- The field that the records have. -/
  field : Option String := none
  /-- The rank of the last level that is shown. -/
  bound : Nat := LogLevel.trace.rank
  deriving DecidableEq, Repr

/-- Why a text is no rule. -/
inductive RuleFault where
  | form
  | level
  /-- The value of a field is neither a number nor a regular expression that can be matched. -/
  | value (fault : Expression.Fault)
  deriving DecidableEq, Repr

def RuleFault.message : RuleFault → String
  | .form => "invalid filter directive"
  | .level => "error parsing level filter: expected one of \"off\", \"error\", \"warn\", " ++
      "\"info\", \"debug\", \"trace\", or a number 0-5"
  | .value .malformed => "invalid field filter: error building NFA"
  | .value .boundary => "invalid field filter: unsupported regex feature for DFAs: cannot build " ++
      "DFAs for regexes with Unicode word boundaries; switch to ASCII word boundaries, or " ++
      "heuristically enable Unicode word boundaries or use a different regex engine"

namespace LogRule

/-- The one field of each record. -/
def messageField : String := "message"

def covers (rule : LogRule) (target : String) : Bool :=
  rule.target.toList.isPrefixOf target.toList && rule.field.all (· == messageField)

/-- Of two rules the one with the longer target decides, of equal ones one about a field. -/
def weight (rule : LogRule) : Nat :=
  2 * rule.target.length + if rule.field.isSome then 1 else 0

/-! ## Levels -/

/-- The names of levels, and of showing nothing. -/
def levelNames : List (String × Nat) :=
  [("off", 0), ("error", 1), ("warn", 2), ("info", 3), ("debug", 4), ("trace", 5)]

/-- The rank of a level written as a number, a plus sign in front allowed. -/
def rankOfNumber? (cs : List Char) : Option Nat :=
  let digits := if cs.head? = some '+' then cs.tail else cs
  if digits ≠ [] ∧ digits.all Char.isDigit ∧ Binary64.ofDigits digits ≤ LogLevel.trace.rank then
    some (Binary64.ofDigits digits)
  else none

/-- The rank of a level, given by name in any case or by number. -/
def rank? (cs : List Char) : Option Nat :=
  match rankOfNumber? cs with
  | some rank => some rank
  | none => levelNames.lookup (String.ofList (cs.map Char.toLower))

/-- The rank after an equals sign; nothing there means everything. -/
def boundOf (cs : List Char) : Except RuleFault Nat :=
  if cs = [] then .ok LogLevel.trace.rank
  else match rank? cs with
    | some rank => .ok rank
    | none => .error .level

/-! ## Reading

The signs of a rule are looked for in a text without the white space at its ends, and its parts
are then cut out of the whole text at the same byte positions. So white space behind belongs to
the last part, and white space in front shifts them all. -/

/-- The part of a text between two positions. A part that would begin or end inside a character
is refused. -/
def part (text : List Char) (start stop : Nat) : Except RuleFault (List Char) :=
  match slice? text start stop with
  | some cs => .ok cs
  | none => .error .form

def partFrom (text : List Char) (start : Nat) : Except RuleFault (List Char) :=
  part text start (byteLength text)

/-- What can stand first in a rule about a target. -/
def canStart (c : Char) : Bool := c == '-' || c == ':' || c == '_' || isAlphanumeric c

/-- The level at the end of a rule, from a position on, where `rest` is left. -/
def readEnd (text : List Char) (position : Nat) (rest : List Char) : Except RuleFault Nat :=
  match rest with
  | [] => .ok LogLevel.trace.rank
  | '=' :: _ => do boundOf (← partFrom text (position + 1))
  | _ => .error .form

/-- The name and the value of a field; the value is a number or a regular expression. -/
def readField (cs : List Char) : Except RuleFault (String × Bool) :=
  match splitOn '=' cs with
  | name :: value :: _ =>
    match Binary64.ofText? (String.ofList value), Expression.fault? value with
    | none, some fault => .error (.value fault)
    | _, _ => .ok (String.ofList name, true)
  | _ => .ok (String.ofList cs, false)

/-- What a rule says in brackets, from a position on, where `rest` is left: the field, unless it
names a span or a value, and the level. -/
def readBrackets (text : List Char) (position : Nat) (rest : List Char) :
    Except RuleFault (Option String × Nat) := do
  let span := rest.takeWhile fun c => c ≠ ']' ∧ c ≠ '{'
  let spanEnd := position + byteLength span
  match rest.drop span.length with
  | ']' :: rest =>
    let _ ← part text position spanEnd
    return (none, ← readEnd text (spanEnd + 1) rest)
  | '{' :: rest =>
    let _ ← part text position spanEnd
    let field := rest.takeWhile (· ≠ '}')
    let fieldEnd := spanEnd + 1 + byteLength field
    if field = [] then throw .form
    match rest.drop field.length with
    | '}' :: rest =>
      let (name, hasValue) ← readField (← part text (spanEnd + 1) fieldEnd)
      match rest with
      | ']' :: rest =>
        let bound ← readEnd text (fieldEnd + 2) rest
        return (if span = [] && !hasValue then some name else none, bound)
      | _ => throw .form
    | _ => throw .form
  | _ => throw .form

/-- The rule about a target and a field, if it is about records. -/
def ofBrackets (target : List Char) : Option String × Nat → Option LogRule
  | (some field, bound) => some { target := String.ofList target, field := some field, bound }
  | (none, _) => none

/-- The rule that a text denotes; none if it is about spans. -/
def ofText (text : List Char) : Except RuleFault (Option LogRule) := do
  match trimBlanks text with
  | [] => throw .form
  | '[' :: rest => return ofBrackets [] (← readBrackets text 1 rest)
  | c :: cs =>
    if !canStart c then throw .form
    let target := (c :: cs).takeWhile fun c => c ≠ '=' ∧ c ≠ '['
    let targetEnd := byteLength target
    match (c :: cs).drop target.length with
    | [] =>
      match rank? text with
      | some bound => return some { bound }
      | none => return some { target := String.ofList text }
    | '[' :: rest =>
      let target ← part text 0 targetEnd
      return ofBrackets target (← readBrackets text (targetEnd + 1) rest)
    | _ :: _ =>
      let target ← part text 0 targetEnd
      return some { target := String.ofList target,
                    bound := ← boundOf (← partFrom text (targetEnd + 1)) }

end LogRule

end TagTemplate
