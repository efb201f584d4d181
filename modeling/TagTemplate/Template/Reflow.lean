import TagTemplate.Text.Split

/-!
# Indentation of included text

A text that is included at a margin is moved to the right by the spaces and tabs of that margin:
each line that is not empty gets them in front, except the first one when text stands before the
tag on its line.
-/

namespace TagTemplate

/-- The lines of a text: what stands between line feeds, empty parts included. -/
abbrev splitLines : List Char → List (List Char) := splitOn '\n'

/-- Lines put together with line feeds between them. -/
abbrev joinLines : List (List Char) → List Char := joinOn '\n'

/-- The spaces and tabs of an indentation. -/
def plainIndentation (indentation : List Char) : List Char :=
  indentation.filter fun c => c = ' ' || c = '\t'

/-- A line moved to the right, unless it is empty. -/
def indentLine (indentation line : List Char) : List Char :=
  if line.isEmpty then line else indentation ++ line

/-- The lines moved to the right; the first one stays where it is behind text. -/
def indentLines (indentation : List Char) (afterText : Bool) : List (List Char) → List (List Char)
  | [] => []
  | first :: more =>
    (if afterText then first else indentLine indentation first) ::
      more.map (indentLine indentation)

/-- A text moved to the right by the spaces and tabs of an indentation. -/
def reflow (text indentation : List Char) (afterText : Bool) : List Char :=
  joinLines (indentLines (plainIndentation indentation) afterText (splitLines text))

example : reflow "I\nLove\nU".toList "    ".toList true = "I\n    Love\n    U".toList := by decide
example : reflow "a\n\nb\n".toList "\t \n".toList false = "\t a\n\n\t b\n".toList := by decide

end TagTemplate
