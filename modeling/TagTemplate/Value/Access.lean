import TagTemplate.Value.Basic

/-!
# Reading parts of a value

Objects have fields, arrays have items and a length, strings have characters and a length. Only
fields and items lead further down a path.
-/

namespace TagTemplate

/-- The number that decimal digits denote, if it is below `wordLimit`. -/
def natural? (digits : List Char) : Option Nat :=
  if digits.isEmpty || !digits.all (fun c => '0' ≤ c && c ≤ '9') then none
  else
    let n := digits.foldl (fun n c => 10 * n + (c.toNat - '0'.toNat)) 0
    if n < wordLimit then some n else none

/-- The index that a key denotes: a decimal number without leading zero. A plus sign may stand
before it, and then zeros may follow. -/
def indexOfKey? (key : String) : Option Nat :=
  match key.toList with
  | '0' :: _ :: _ => none
  | '+' :: digits => natural? digits
  | digits => natural? digits

/-- The key of the number of items or characters. -/
def lengthKey : String := "length"

namespace Value

/-- An object or an array has the property. -/
def hasProperty (key : String) : Value → Bool
  | object fields => (field? key fields).isSome
  | array items => key == lengthKey || (indexOfKey? key).any (· < items.length)
  | _ => false

/-- A string has the property. -/
def hasStringProperty (key : String) : Value → Bool
  | string s => key == lengthKey || (indexOfKey? key).any (· < s.length)
  | _ => false

/-- A field or an item: a part from which a path can go on. -/
def child? (key : String) : Value → Option Value
  | object fields => field? key fields
  | array items => (indexOfKey? key).bind fun i => items[i]?
  | _ => none

/-- The property, also the length of an array or a string and a character of a string. -/
def property? (key : String) : Value → Option Value
  | array items =>
    if key = lengthKey then some (ofCount items.length) else (array items).child? key
  | string s =>
    if key = lengthKey then some (ofCount s.length)
    else (indexOfKey? key).bind fun i => s.toList[i]?.map fun c => string (String.singleton c)
  | v => v.child? key

end Value

end TagTemplate
