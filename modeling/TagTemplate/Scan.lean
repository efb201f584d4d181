import TagTemplate.Text.Blank
import TagTemplate.Text.Offset

/-!
# Scanning

A pattern is a choice of literal texts, optionally padded with white space. A cursor stands in
a text and moves over it: `scan` over a match right here, `scanUntil` up to the next match.

The match found is the leftmost one. White space before the literal is taken as far as the
literal still follows, white space after it as far as it goes, and of several literals the first
that fits is taken.
-/

namespace TagTemplate

/-- A choice of literal texts with optional white space around it. -/
structure Pattern where
  /-- The literals, the preferred ones first. -/
  choices : List (List Char)
  blankBefore : Bool := false
  blankAfter : Bool := false
  /-- A match is sought only where the search starts. -/
  anchored : Bool := false
  deriving DecidableEq, Repr

namespace Pattern

def literal (text : List Char) : Pattern := { choices := [text] }

/-- Any amount of white space. -/
def blanks : Pattern := { choices := [[]], blankAfter := true }

/-- The length of the match of a literal, and of the white space allowed after it. -/
def coreLength? (p : Pattern) (cs : List Char) : Option Nat :=
  (p.choices.find? (·.isPrefixOf cs)).map fun choice =>
    choice.length +
      if p.blankAfter then ((cs.drop choice.length).takeWhile isBlank).length else 0

/-- As `coreLength?`, after as much white space as possible. -/
def paddedLength? (p : Pattern) : List Char → Option Nat
  | [] => p.coreLength? []
  | c :: cs =>
    if isBlank c then
      match p.paddedLength? cs with
      | some n => some (n + 1)
      | none => p.coreLength? (c :: cs)
    else p.coreLength? (c :: cs)

/-- The length of the match that starts at the head of the text. -/
def matchLength? (p : Pattern) (cs : List Char) : Option Nat :=
  if p.blankBefore then p.paddedLength? cs else p.coreLength? cs

/-- How many characters precede the leftmost match. -/
def find? (p : Pattern) : List Char → Option Nat
  | [] => (p.matchLength? []).map fun _ => 0
  | c :: cs =>
    if (p.matchLength? (c :: cs)).isSome then some 0
    else if p.anchored then none
    else (p.find? cs).map (· + 1)

end Pattern

/-- A place in a text: the bytes before it and the characters after it. -/
structure Cursor where
  pos : Nat
  rest : List Char
  deriving DecidableEq, Repr

namespace Cursor

def start (source : List Char) : Cursor := ⟨0, source⟩

def atEnd (c : Cursor) : Bool := c.rest.isEmpty

/-- The next `n` characters, and the cursor behind them. -/
def advance (c : Cursor) (n : Nat) : List Char × Cursor :=
  let taken := c.rest.take n
  (taken, ⟨c.pos + byteLength taken, c.rest.drop n⟩)

/-- The text matched right here; empty, without a move, if there is no match. -/
def scan (p : Pattern) (c : Cursor) : List Char × Cursor :=
  c.advance ((p.matchLength? c.rest).getD 0)

/-- The text before the next match; all of the rest if there is none. -/
def scanUntil (p : Pattern) (c : Cursor) : List Char × Cursor :=
  c.advance ((p.find? c.rest).getD c.rest.length)

theorem advance_rest (c : Cursor) (n : Nat) :
    (c.advance n).1 ++ (c.advance n).2.rest = c.rest := List.take_append_drop ..

theorem advance_pos (c : Cursor) (n : Nat) :
    (c.advance n).2.pos = c.pos + byteLength (c.advance n).1 := rfl

end Cursor

end TagTemplate
