import TagTemplate.Fault
import TagTemplate.Value.Basic

/-!
# Views from structured data

Data of a program as a view. A key must be a text or an integer, which is written in decimal; a
number that is not finite becomes null.
-/

namespace TagTemplate

/-- Structured data: a table has keys of any form. -/
inductive Data where
  | null
  | bool (value : Bool)
  | int (value : Int)
  | float (value : Binary64)
  | text (value : String)
  | list (items : List Data)
  | table (entries : List (Data × Data))
  deriving Inhabited

namespace Data

def key? : Data → Except Fault String
  | text s => .ok s
  | int n => .ok (toString n)
  | bool b => .ok (if b then "true" else "false")
  | _ => .error (.invalid .unrepresentable)

end Data

namespace Value

mutual

def ofData? : Data → Except Fault Value
  | .null => .ok null
  | .bool b => .ok (bool b)
  | .int n => .ok (ofInt n)
  | .float x => .ok (if x.isNaN || x.isInfinite then null else float x)
  | .text s => .ok (string s)
  | .list items => (ofDataItems? items).map array
  | .table entries => (ofDataEntries? entries).map ofFields

def ofDataItems? : List Data → Except Fault (List Value)
  | [] => .ok []
  | x :: xs => do return (← ofData? x) :: (← ofDataItems? xs)

def ofDataEntries? : List (Data × Data) → Except Fault (List (String × Value))
  | [] => .ok []
  | (k, x) :: entries => do
    let key ← k.key?
    return (key, ← ofData? x) :: (← ofDataEntries? entries)

end

end Value

end TagTemplate
