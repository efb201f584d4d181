import TagTemplate.Toml.Document

/-!
# Tables under construction

A document fills its tables line by line. A table can be open in three ways: written out under a
header, implied by a longer header, or made by a dotted key; which of them decides whether it may
be added to later. A key is never given two values.
-/

namespace TagTemplate.Toml

/-- What stands under a key of a table under construction. -/
inductive Slot where
  | value (value : Toml)
  /-- A table; `isImplied` if no header or brace names it, `isDotted` if a dotted key made it. -/
  | table (isImplied isDotted : Bool) (slots : List (String × Slot))
  /-- The tables of one repeated header, the latest first. -/
  | tables (elements : List (List (String × Slot)))

/-- A table under construction. -/
structure Draft where
  isImplied : Bool := false
  isDotted : Bool := false
  slots : List (String × Slot) := []

namespace Draft

def toSlot (d : Draft) : Slot := .table d.isImplied d.isDotted d.slots

def slot? (d : Draft) (key : String) : Option Slot := (d.slots.find? (·.1 == key)).map (·.2)

/-- Puts something under a key, in place of what was there. -/
def put (d : Draft) (key : String) (slot : Slot) : Draft :=
  { d with slots := if d.slots.any (·.1 == key)
      then d.slots.map fun (k, s) => if k == key then (k, slot) else (k, s)
      else d.slots ++ [(key, slot)] }

def remove (d : Draft) (key : String) : Draft :=
  { d with slots := d.slots.filter (·.1 != key) }

/-- Changes the table at the end of a path; missing tables on the way are made. A path of a
dotted key must not lead through a table that was written out. -/
def update? (isDotted : Bool) (change : Draft → Option Draft) : List String → Draft → Option Draft
  | [], d => change d
  | key :: path, d =>
    match d.slot? key with
    | none =>
      (update? isDotted change path { isImplied := true, isDotted }).map fun inner =>
        d.put key inner.toSlot
    | some (.value _) => none
    | some (.tables []) => none
    | some (.tables (latest :: earlier)) =>
      (update? isDotted change path { slots := latest }).map fun inner =>
        d.put key (.tables (inner.slots :: earlier))
    | some (.table innerImplied innerDotted slots) =>
      if isDotted && !innerImplied then none
      else (update? isDotted change path ⟨innerImplied, innerDotted, slots⟩).map fun inner =>
        d.put key inner.toSlot

/-- Gives a key its value. A dotted key adds only to tables that dotted keys made. -/
def insert? (path : List String) (key : String) (value : Toml) (d : Draft) : Option Draft :=
  let give (inner : Draft) : Option Draft :=
    if inner.isDotted == path.isEmpty || (inner.slot? key).isSome then none
    else some (inner.put key (.value value))
  d.update? true give path

/-- Opens the table of a header. A table is opened once; one that only longer headers implied
goes on. -/
def openTable? (path : List String) (key : String) (root : Draft) : Option Draft :=
  let start (parent : Draft) : Option Draft :=
    match parent.slot? key with
    | none => some (parent.put key (.table false false []))
    | some (.table true false slots) => some (parent.put key (.table false false slots))
    | some _ => none
  root.update? false start path

/-- Opens one more table of a repeated header. -/
def openElement? (path : List String) (key : String) (root : Draft) : Option Draft :=
  let start (parent : Draft) : Option Draft :=
    match parent.slot? key with
    | none => some (parent.put key (.tables [[]]))
    | some (.tables elements) => some (parent.put key (.tables ([] :: elements)))
    | some _ => none
  root.update? false start path

end Draft

mutual

/-- What stands under a key of the finished document, or of a finished table between braces. -/
def Slot.finish (inBraces : Bool) : Slot → Toml
  | .value v => v
  | .table _ _ slots => .table inBraces (finishSlots inBraces slots)
  | .tables elements => .array (finishTables inBraces elements).reverse

def finishSlots (inBraces : Bool) : List (String × Slot) → List (String × Toml)
  | [] => []
  | (key, slot) :: rest => (key, slot.finish inBraces) :: finishSlots inBraces rest

def finishTables (inBraces : Bool) : List (List (String × Slot)) → List Toml
  | [] => []
  | slots :: rest => .table inBraces (finishSlots inBraces slots) :: finishTables inBraces rest

end

end TagTemplate.Toml
