import TagTemplate.Number.Display

/-!
# JSON documents

The data of a JSON text. Members of an object keep their order and may repeat a key.
-/

namespace TagTemplate

/-- A JSON value. Integers are those that fit in 64 bits, signed or unsigned; every other number
is a double. -/
inductive Json where
  | null
  | bool (value : Bool)
  | int (value : Int)
  | float (value : Binary64)
  | string (value : String)
  | array (items : List Json)
  | object (members : List (String × Json))
  deriving Repr

namespace Json

instance : Inhabited Json := ⟨null⟩

/-- The last member with the key. -/
def member? (key : String) : Json → Option Json
  | object members => (members.reverse.find? (·.1 == key)).map (·.2)
  | _ => none

/-- The last member with the key, null if there is none. -/
def get (key : String) (doc : Json) : Json := (doc.member? key).getD null

end Json

end TagTemplate
