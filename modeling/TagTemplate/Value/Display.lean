import TagTemplate.Value.Basic

/-!
# The text of a value

What an interpolation writes before escaping.
-/

namespace TagTemplate.Value

mutual

/-- Null and callables have no text, an array is its items with commas between them, and an
object is shown as such only. -/
def display : Value → String
  | null | getter _ | transformer _ => ""
  | bool b => if b then "true" else "false"
  | int n => toString n.toInt
  | float x => x.display
  | string s => s
  | array items => displayItems items
  | object _ => "[object Object]"

def displayItems : List Value → String
  | [] => ""
  | [x] => display x
  | x :: y :: rest => display x ++ "," ++ displayItems (y :: rest)

end

end TagTemplate.Value
