import TagTemplate.Delimiters
import TagTemplate.Escape
import TagTemplate.Value.Display

/-!
# Options of a rendering
-/

namespace TagTemplate

/-- Texts that can be included, by name. -/
abbrev Inclusions := String → Option String

/-- What one rendering may choose. -/
structure Options where
  /-- Escapes every value in place of the HTML escaping. -/
  escape : Option (String → String) := none
  /-- Takes the place of the engine's delimiters. -/
  delimiters : Option Delimiters := none
  /-- The deepest nesting of frames and inclusions allowed. -/
  ceiling : Option Nat := none

namespace Options

/-- What a value is written as: nothing for null; a number goes unescaped unless there is an
escaping of its own. -/
def escapedText (o : Options) (v : Value) : String :=
  if v.isNull then ""
  else match o.escape with
    | some escape => escape v.display
    | none => if v.isNumber then v.display else escapeHtml v.display

def plainText (v : Value) : String := if v.isNull then "" else v.display

/-- The level below `depth`, unless it lies under the ceiling's reach. -/
def descend (o : Options) (depth : Nat) : Except Fault Nat :=
  match o.ceiling with
  | some ceiling => if ceiling < depth + 1 then .error (.tooDeep ceiling) else .ok (depth + 1)
  | none => .ok (depth + 1)

end Options

end TagTemplate
