import TagTemplate.Text.Offset

/-!
# Lines

A text read as lines, the line and column of a position, and the excerpt shown around an error.
A line feed ends a line, together with one carriage return before it; a text that ends with a
line feed has no further, empty line.
-/

namespace TagTemplate

/-- The lines of a text without their endings. -/
def textLines : List Char → List (List Char)
  | [] => []
  | c :: rest =>
    if c = '\n' then [] :: textLines rest
    else if c = '\r' ∧ rest.head? = some '\n' then textLines rest
    else match textLines rest with
      | line :: more => (c :: line) :: more
      | [] => [[c]]

example : textLines "a\r\nb\n\nc\r".toList = ["a".toList, "b".toList, [], "c\r".toList] := by decide

/-- A place in a text as people read it: both numbers count from 1. -/
structure LineColumn where
  line : Nat
  column : Nat
  deriving DecidableEq, Repr

/-- The line and column of byte `pos`; a position inside a character counts as the character's
start, one past the end as the end. -/
def lineColumn (source : List Char) (pos : Nat) : LineColumn :=
  let before := beforeByte source pos
  { line := before.count '\n' + 1
    column := (before.reverse.takeWhile (· ≠ '\n')).length + 1 }

/-- How many lines an excerpt shows on each side of its line. -/
def excerptReach : Nat := 2

/-- The lines shown around `line`, each with its number. -/
def excerptLines (source : List Char) (line : Nat) : List (Nat × List Char) :=
  let first := line - (excerptReach + 1)
  let window := ((textLines source).take (line + excerptReach)).drop first
  (List.range' (first + 1) window.length).zip window

/-- A number written to the right of a field of `width` characters. -/
def padLeft (width : Nat) (text : String) : String :=
  String.ofList (List.replicate (width - text.length) ' ') ++ text

/-- The excerpt around `line`: numbered lines, the line itself marked with `>`. -/
def excerpt (source : List Char) (line : Nat) : String :=
  let last := min (line + excerptReach) (textLines source).length
  let width := (toString last).length
  String.join <| (excerptLines source line).map fun (number, text) =>
    let marker := if number = line then ">" else " "
    "  " ++ marker ++ " " ++ padLeft width (toString number) ++ " | " ++ String.ofList text ++ "\n"

end TagTemplate
