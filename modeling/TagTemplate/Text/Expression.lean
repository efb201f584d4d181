import TagTemplate.Text.Alphanumeric
import TagTemplate.Text.Blank
import TagTemplate.Text.Hexadecimal

/-!
# Regular expressions

Which texts are regular expressions, and which of those ask for boundaries of words in all
scripts. Nothing is matched here. The texts hold no closing brace, so that nothing that needs one
is well formed: neither a count of repetitions nor a name or a number in braces.
-/

namespace TagTemplate.Expression

/-- What the flags in force say about the text that follows. -/
structure Mode where
  /-- Classes are about the characters of all scripts, and not about bytes. -/
  wide : Bool := true
  /-- White space and comments between the parts do not count. -/
  spaced : Bool := false
  deriving DecidableEq, Repr

/-- What is left after white space and comments, each from a number sign to the end of its
line. -/
def skipSpace (inComment : Bool) : List Char → List Char
  | [] => []
  | c :: cs =>
    if inComment then skipSpace (c ≠ '\n') cs
    else if isBlank c then skipSpace false cs
    else if c = '#' then skipSpace true cs
    else c :: cs

/-- What is left after all that does not count. -/
def Mode.skip (m : Mode) (cs : List Char) : List Char :=
  if m.spaced then skipSpace false cs else cs

/-! ## Escapes -/

/-- What a backslash stands for together with the characters after it. -/
inductive Escape where
  | character (c : Char)
  | characters
  /-- A place in a text, such as its end. -/
  | place
  /-- A place where a word of any script begins, ends, or does not. -/
  | boundary
  deriving DecidableEq, Repr

/-- The number that the next hexadecimal digits give, as many as are asked for. -/
def hexNumberOf (m : Mode) : Nat → Nat → List Char → Option (Nat × List Char)
  | 0, n, cs => some (n, cs)
  | count + 1, n, cs =>
    match m.skip cs with
    | [] => none
    | c :: rest => (hexDigit? c).bind fun digit => hexNumberOf m count (16 * n + digit) rest

/-- An escape by number. A number of two digits is a byte unless classes are about characters. -/
def hexEscape (m : Mode) (count : Nat) (cs : List Char) : Option (Escape × List Char) := do
  let (n, rest) ← hexNumberOf m count 0 cs
  if !m.wide && count = 2 && 0x80 ≤ n then none
  let c ← scalar? n
  return (.character c, rest)

def categoryInitials : List Char := ['c', 'l', 'm', 'n', 'p', 's', 'z']

/-- A class of characters by the initial of its category. -/
def categoryEscape (m : Mode) (cs : List Char) : Option (Escape × List Char) :=
  match m.skip cs with
  | c :: rest =>
    if m.wide && categoryInitials.contains c.toLower then some (.characters, rest) else none
  | [] => none

/-- What follows a backslash. -/
def readEscape (m : Mode) : List Char → Option (Escape × List Char)
  | [] => none
  | 'x' :: rest => hexEscape m 2 rest
  | 'u' :: rest => hexEscape m 4 rest
  | 'U' :: rest => hexEscape m 8 rest
  | c :: rest =>
    if c = 'p' ∨ c = 'P' then categoryEscape m rest
    else if ['d', 's', 'w'].contains c then some (.characters, rest)
    else if ['D', 'S', 'W'].contains c then if m.wide then some (.characters, rest) else none
    else if c = 'A' ∨ c = 'z' then some (.place, rest)
    else if ['b', 'B', '<', '>'].contains c then
      some (if m.wide then .boundary else .place, rest)
    else match controls.lookup c with
      | some control => some (.character control, rest)
      | none => if c.toNat < 0x80 && !c.isAlphanum then some (.character c, rest) else none
where
  controls : List (Char × Char) :=
    [('a', '\x07'), ('f', '\x0c'), ('t', '\t'), ('n', '\n'), ('r', '\r'), ('v', '\x0b')]

/-! ## Classes in brackets -/

def asciiClasses : List String :=
  ["alnum", "alpha", "ascii", "blank", "cntrl", "digit", "graph", "lower", "print", "punct",
   "space", "upper", "word", "xdigit"]

/-- A named class, such as `[:alpha:]`, after its bracket: whether it is negated, and the rest. -/
def namedClass? : List Char → Option (Bool × List Char)
  | ':' :: cs =>
    let negated := cs.head? = some '^'
    let cs := if negated then cs.tail else cs
    match cs.dropWhile (· ≠ ':') with
    | ':' :: ']' :: rest =>
      if asciiClasses.contains (String.ofList (cs.takeWhile (· ≠ ':'))) then some (negated, rest)
      else none
    | _ => none
  | _ => none

/-- The start of a class after its bracket: whether hyphens can lead here, and what is left. A
closing bracket right at the start is a member. -/
def openClass (m : Mode) (cs : List Char) : Option (Bool × List Char) := do
  let cs ← match m.skip cs with
    | '^' :: rest => if m.wide then some (m.skip rest) else none
    | cs => some cs
  match cs with
  | ']' :: rest => return (false, rest)
  | cs => return (true, cs)

/-- A member of a class: a character, or several that cannot bound a range. -/
def readMember (m : Mode) : List Char → Option (Option Char × List Char)
  | [] => none
  | '\\' :: rest =>
    match readEscape m rest with
    | some (.character c, rest) => if m.wide || c.toNat < 0x80 then some (some c, rest) else none
    | some (.characters, rest) => some (none, rest)
    | _ => none
  | c :: rest => if m.wide || c.toNat < 0x80 then some (some c, rest) else none

/-- A member, or the range between two: what is left after it. -/
def readRange (m : Mode) (cs : List Char) : Option (List Char) := do
  let (first, rest) ← readMember m cs
  match m.skip rest with
  | '-' :: more =>
    match m.skip more with
    | ']' :: _ | '-' :: _ => return '-' :: more
    | more =>
      match first, ← readMember m more with
      | some first, (some last, rest) => if first ≤ last then return rest else none
      | _, _ => none
  | rest => return rest

/-- Reads on inside so many brackets, up to the end of the outermost: what is left there. Hyphens
that lead a class are members; others can join two classes, as a double ampersand or tilde does.
The steps are as many as the first number. -/
def readClass (m : Mode) : Nat → Nat → Bool → List Char → Option (List Char)
  | 0, _, _, _ => none
  | steps + 1, depth, leading, cs =>
    match m.skip cs with
    | '[' :: rest =>
      match namedClass? rest with
      | some (negated, rest) =>
        if negated && !m.wide then none else readClass m steps depth false rest
      | none =>
        (openClass m rest).bind fun (leading, rest) => readClass m steps (depth + 1) leading rest
    | ']' :: rest => if depth ≤ 1 then some rest else readClass m steps (depth - 1) false rest
    | '&' :: '&' :: rest | '~' :: '~' :: rest => readClass m steps depth false rest
    | cs =>
      match leading, cs with
      | true, '-' :: rest => readClass m steps depth true rest
      | false, '-' :: '-' :: rest => readClass m steps depth false rest
      | _, cs => (readRange m cs).bind (readClass m steps depth false)

/-! ## The parts of an expression -/

/-- Where a reader of an expression stands. -/
structure Reading where
  mode : Mode := {}
  /-- The modes that come back at the ends of the open groups, the innermost first. -/
  outer : List Mode := []
  /-- What precedes can be repeated. -/
  repeatable : Bool := false
  names : List (List Char) := []
  /-- A boundary of words of any script was asked for. -/
  bounded : Bool := false
  deriving DecidableEq, Repr

namespace Reading

/-- Inside one group more. -/
def enter (r : Reading) : Reading := { r with outer := r.mode :: r.outer, repeatable := false }

/-- A name for a group. -/
def isName : List Char → Bool
  | [] => false
  | c :: cs =>
    (c == '_' || isLetter c) &&
    cs.all fun c => ['_', '.', '[', ']'].contains c || isAlphanumeric c

/-- A group that is named, from its name on. -/
def openNamed (r : Reading) (cs : List Char) : Option (Reading × List Char) :=
  let name := cs.takeWhile (· ≠ '>')
  match cs.dropWhile (· ≠ '>') with
  | _ :: rest =>
    if isName name && !r.names.contains name then
      some ({ r with names := name :: r.names }.enter, rest)
    else none
  | [] => none

/-- The flags, and the hyphen before those that are switched off. -/
def flagMarks : List Char := ['i', 'm', 's', 'U', 'u', 'R', 'x', '-']

/-- Flags are well formed: known, none twice, and some after the hyphen. -/
def areFlags (flags : List Char) : Bool :=
  flags.all flagMarks.contains && flags.eraseDups == flags && flags.getLast? ≠ some '-'

/-- A setting after flags. -/
def switched (flags : List Char) (flag : Char) (before : Bool) : Bool :=
  if (flags.takeWhile (· ≠ '-')).contains flag then true
  else if flags.contains flag then false
  else before

/-- A group with flags, or flags for what follows, from the flags on. -/
def openFlagged (r : Reading) (cs : List Char) : Option (Reading × List Char) :=
  let isEnd (c : Char) : Bool := c == ':' || c == ')'
  let flags := cs.takeWhile (!isEnd ·)
  let mode : Mode :=
    ⟨switched flags 'u' r.mode.wide, switched flags 'x' r.mode.spaced⟩
  match areFlags flags, cs.dropWhile (!isEnd ·) with
  | true, ':' :: rest => some ({ r.enter with mode }, rest)
  | true, _ :: rest => if flags = [] then none else some ({ r with mode, repeatable := false }, rest)
  | _, _ => none

/-- A group, after its parenthesis. -/
def openGroup (r : Reading) (cs : List Char) : Option (Reading × List Char) :=
  match r.mode.skip cs with
  | '?' :: 'P' :: '<' :: rest | '?' :: '<' :: rest => r.openNamed rest
  | '?' :: rest => r.openFlagged rest
  | cs => some (r.enter, cs)

/-- One part further. -/
def next (r : Reading) (cs : List Char) : Option (Reading × List Char) :=
  let part := { r with repeatable := true }
  match cs with
  | [] => none
  | '(' :: rest => r.openGroup rest
  | ')' :: rest =>
    match r.outer with
    | mode :: outer => some ({ part with mode, outer }, rest)
    | [] => none
  | '|' :: rest => some ({ r with repeatable := false }, rest)
  | '[' :: rest =>
    (openClass r.mode rest).bind fun (leading, rest) =>
      (readClass r.mode (rest.length + 1) 1 leading rest).map (part, ·)
  | '\\' :: rest =>
    (readEscape r.mode rest).map fun (escape, rest) =>
      ({ part with bounded := r.bounded || escape == .boundary }, rest)
  | c :: rest =>
    if c = '?' ∨ c = '*' ∨ c = '+' then if r.repeatable then some (r, rest) else none
    else if c = '{' then none
    else if c = '.' ∧ !r.mode.wide then none
    else some (part, rest)

/-- Reads to the end in at most so many steps. -/
def finish : Nat → Reading → List Char → Option Reading
  | 0, _, _ => none
  | steps + 1, r, cs =>
    match r.mode.skip cs with
    | [] => if r.outer.isEmpty then some r else none
    | cs => (r.next cs).bind fun (r, rest) => finish steps r rest

end Reading

/-- Why a text cannot be matched as a regular expression. -/
inductive Fault where
  | malformed
  /-- It asks for boundaries of words of any script. -/
  | boundary
  deriving DecidableEq, Repr

def fault? (cs : List Char) : Option Fault :=
  match Reading.finish (cs.length + 1) {} cs with
  | none => some .malformed
  | some r => if r.bounded then some .boundary else none

example : ["", "a|b*", "(?i)x+?", "[]a-f[:^digit:]&&[^-]]", "\\x41\\u00e9\\pL",
    "(?P<n>a)(?x: b # c\n)", "(?-u:\\b)"].all (fun t => (fault? t.toList).isNone) = true := by
  decide +kernel
example : ["(", ")", "*", "a|*", "(?i)*", "[", "[z-a]", "[\\d-z]", "\\", "\\8", "\\xg0",
    "(?<n>a)(?<n>b)", "(?i-i)a", "(?-u:.)"].all (fun t => fault? t.toList = some .malformed) = true :=
  by decide +kernel
example : fault? "\\bword\\b".toList = some .boundary := by decide +kernel

end TagTemplate.Expression
