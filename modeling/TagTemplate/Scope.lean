import TagTemplate.Text.Split
import TagTemplate.Value.Access

/-!
# Scopes

A template is rendered in a chain of frames, each with a view of its own. A name is sought from
the innermost frame outward, and each frame remembers what it found, a miss as null.
-/

namespace TagTemplate

/-! ## Names in one view -/

/-- The segments of a name, cut at every dot. -/
abbrev pathSegments : List Char → List (List Char) := splitOn '.'

/-- A name is a path when its first dot is not at its start. -/
def isPath (name : List Char) : Bool := name.contains '.' && name.head? != some '.'

namespace Value

/-- Follows a path to its last segment, which may also be a length or a character of a string. -/
def follow? (v : Value) : List String → Option Value
  | [] => none
  | [last] =>
    if v.hasProperty last || v.hasStringProperty last then v.property? last else none
  | segment :: more => (v.child? segment).bind (·.follow? more)

/-- What a name denotes in a view: a path is followed, any other name is one property of an
object or array. -/
def resolve? (v : Value) (name : String) : Option Value :=
  if isPath name.toList then v.follow? ((pathSegments name.toList).map String.ofList)
  else if v.hasProperty name then v.property? name else none

end Value

/-! ## Chains of frames -/

/-- A view, and what has been found from it. -/
structure Frame where
  view : Value
  memo : List (String × Value) := []
  deriving Repr

namespace Frame

/-- What was found under a name before. -/
def remembered? (f : Frame) (name : String) : Option Value :=
  (f.memo.find? (·.1 == name)).map (·.2)

/-- Remembers what was found. -/
def remember (f : Frame) (name : String) (found : Value) : Frame :=
  { f with memo := (name, found) :: f.memo }

end Frame

/-- A frame and the frames around it, the nearest first. -/
structure Scope where
  frame : Frame
  outer : List Frame := []
  deriving Repr

namespace Scope

def root (view : Value) : Scope := { frame := { view } }

def view (s : Scope) : Value := s.frame.view

/-- The scope with one more frame inside. -/
def push (s : Scope) (view : Value) : Scope := { frame := { view }, outer := s.frame :: s.outer }

/-- The scope without its innermost frame; the last frame stays. -/
def pop (s : Scope) : Scope :=
  match s.outer with
  | [] => s
  | frame :: outer => { frame, outer }

/-- The number of frames around the innermost one. -/
def depth (s : Scope) : Nat := s.outer.length

/-- What a name denotes in the first of several views that has it, null if none has. -/
def resolveIn (name : String) : List Value → Value
  | [] => .null
  | v :: vs => (v.resolve? name).getD (resolveIn name vs)

/-- What a name denotes in the innermost frame that has it, nothing being remembered. -/
def resolve (s : Scope) (name : String) : Value :=
  resolveIn name (s.view :: s.outer.map Frame.view)

/-- The name of the view itself. -/
def selfName : String := "."

/-- What a name denotes, from memory if it was sought from this frame before. -/
def find (s : Scope) (name : String) : Value × Scope :=
  if name = selfName then (s.view, s)
  else match s.frame.remembered? name with
    | some found => (found, s)
    | none =>
      let found := s.resolve name
      (found, { s with frame := s.frame.remember name found })

end Scope

end TagTemplate
