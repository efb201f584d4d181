import TagTemplate.Json.Document

/-!
# View values

The data a template is rendered with: JSON-like values, and two kinds of callables. A callable is
a handle; what it does is told by the `Callables` of a run. Two callables are the same when their
handles are.
-/

namespace TagTemplate

/-- Names a callable of a run. -/
abbrev Handle := Nat

/-- A view, or a part of one. The fields of an object are sorted by key, each key once. -/
inductive Value where
  | null
  | bool (value : Bool)
  | int (value : Int64)
  | float (value : Binary64)
  | string (value : String)
  | array (items : List Value)
  | object (fields : List (String × Value))
  /-- Computes a value each time it is looked up. -/
  | getter (handle : Handle)
  /-- Writes a block in place of its body. -/
  | transformer (handle : Handle)
  deriving Repr

namespace Value

instance : Inhabited Value := ⟨null⟩

/-- Sets a field, keeping the keys sorted. -/
def insertField (key : String) (value : Value) : List (String × Value) → List (String × Value)
  | [] => [(key, value)]
  | (k, v) :: rest =>
    if key < k then (key, value) :: (k, v) :: rest
    else if key = k then (key, value) :: rest
    else (k, v) :: insertField key value rest

/-- The object with the given fields, a later one replacing an earlier one of the same key. -/
def ofFields (fields : List (String × Value)) : Value :=
  object (fields.foldl (fun done (key, value) => insertField key value done) [])

def field? (key : String) (fields : List (String × Value)) : Option Value :=
  (fields.find? (·.1 == key)).map (·.2)

/-- A number from an integer: a double if it does not fit in 64 bits with sign. -/
def ofInt (n : Int) : Value :=
  if fitsSigned n then int (Int64.ofInt n) else float (.ofInt n)

def ofCount (n : Nat) : Value := int (Int64.ofNat n)

mutual

/-- The view that a JSON document denotes. -/
def ofJson : Json → Value
  | .null => null
  | .bool b => bool b
  | .int n => ofInt n
  | .float x => float x
  | .string s => string s
  | .array items => array (ofJsonItems items)
  | .object members => ofFields (ofJsonMembers members)

def ofJsonItems : List Json → List Value
  | [] => []
  | x :: xs => ofJson x :: ofJsonItems xs

def ofJsonMembers : List (String × Json) → List (String × Value)
  | [] => []
  | (key, x) :: ms => (key, ofJson x) :: ofJsonMembers ms

end

/-! ## Kinds -/

def isNull : Value → Bool
  | null => true
  | _ => false

def isNumber : Value → Bool
  | int _ | float _ => true
  | _ => false

/-- Null, false, zero, NaN and the empty string are false; all else is true, also an empty array
and an empty object. -/
def isTruthy : Value → Bool
  | null => false
  | bool b => b
  | int n => n ≠ 0
  | float x => !x.isZero && !x.isNaN
  | string s => s ≠ ""
  | array _ | object _ | getter _ | transformer _ => true

def typeName : Value → String
  | null => "null"
  | bool _ => "boolean"
  | int _ | float _ => "number"
  | string _ => "string"
  | array _ => "array"
  | object _ => "object"
  | getter _ | transformer _ => "function"

/-! ## Equality -/

mutual

/-- Equality of values: an integer never equals a double, and doubles compare as numbers. -/
def same : Value → Value → Bool
  | null, null => true
  | bool a, bool b => a == b
  | int a, int b => a == b
  | float a, float b => a.eq b
  | string a, string b => a == b
  | array a, array b => sameItems a b
  | object a, object b => sameFields a b
  | getter a, getter b => a == b
  | transformer a, transformer b => a == b
  | _, _ => false

def sameItems : List Value → List Value → Bool
  | [], [] => true
  | x :: xs, y :: ys => same x y && sameItems xs ys
  | _, _ => false

def sameFields : List (String × Value) → List (String × Value) → Bool
  | [], [] => true
  | (k, x) :: xs, (l, y) :: ys => k == l && same x y && sameFields xs ys
  | _, _ => false

end

end Value

end TagTemplate
