import TagTemplate.Value.Basic

/-!
# TOML documents

The data of a TOML document, and the view that it denotes.
-/

namespace TagTemplate

/-- A TOML value. A date or a time is kept as its text, and of a table whether it is written
between braces. -/
inductive Toml where
  | string (value : String)
  | int (value : Int)
  | float (value : Binary64)
  | bool (value : Bool)
  | moment (text : String)
  | array (items : List Toml)
  | table (inBraces : Bool) (entries : List (String × Toml))
  deriving Repr, Inhabited

namespace Toml

/-- The value under a key of a table. -/
def field? (key : String) : List (String × Toml) → Option Toml
  | [] => none
  | (k, v) :: rest => if k = key then some v else field? key rest

/-- The key under which a date or a time stands in a view. -/
def momentKey : String := "$__toml_private_datetime"

mutual

/-- The view of a TOML value. A number that is not finite becomes null. -/
def toValue : Toml → Value
  | string s => .string s
  | int n => .ofInt n
  | float x => if x.isNaN || x.isInfinite then .null else .float x
  | bool b => .bool b
  | moment text => .object [(momentKey, .string text)]
  | array items => .array (toValues items)
  | table _ entries => .ofFields (toFields entries)

def toValues : List Toml → List Value
  | [] => []
  | x :: xs => x.toValue :: toValues xs

def toFields : List (String × Toml) → List (String × Value)
  | [] => []
  | (key, x) :: rest => (key, x.toValue) :: toFields rest

end

end Toml

end TagTemplate
