import TagTemplate.Template.Parse

/-!
# Kept trees

An engine reads a template and keeps the tree, under the template's text and the delimiters in
force at its start. Reading the same template again gives the very same tree. A journal tells
what happened, latest first; from it the uses of the shelf are counted.
-/

namespace TagTemplate

/-- A tree that may be in several hands; trees with the same serial number are one tree. -/
structure SharedTree where
  serial : Nat
  nodes : List Node
  deriving Repr

/-- A kept tree and what it is kept under. -/
structure KeptTree where
  template : String
  delimiters : Delimiters
  tree : SharedTree

/-- What an engine did. -/
inductive Event where
  /-- Looked for the tree of a template, and found it. -/
  | reused (template : String) (delimiters : Delimiters)
  /-- Looked for it and found none, and set about reading the template. -/
  | reading (template : String) (delimiters : Delimiters)
  | kept (template : String) (delimiters : Delimiters)
  | cleared
  /-- Asked for a text to include. -/
  | asked (name : String)
  deriving DecidableEq

/-- What an engine remembers from call to call. -/
structure Shelf where
  trees : List KeptTree := []
  nextSerial : Nat := 0
  journal : List Event := []

namespace Shelf

def note (s : Shelf) (e : Event) : Shelf := { s with journal := e :: s.journal }

/-- The tree kept for a template. -/
def find? (s : Shelf) (template : String) (d : Delimiters) : Option SharedTree :=
  (s.trees.find? fun kept => kept.template == template && kept.delimiters == d).map KeptTree.tree

/-- A tree of its own for some nodes. -/
def share (s : Shelf) (nodes : List Node) : SharedTree × Shelf :=
  (⟨s.nextSerial, nodes⟩, { s with nextSerial := s.nextSerial + 1 })

def keep (s : Shelf) (template : String) (d : Delimiters) (tree : SharedTree) : Shelf :=
  { s with trees := ⟨template, d, tree⟩ :: s.trees }

def searches (s : Shelf) : Nat :=
  s.journal.countP fun | .reused .. | .reading .. => true | _ => false

def keeps (s : Shelf) : Nat := s.journal.countP fun | .kept .. => true | _ => false

def clearings (s : Shelf) : Nat := s.journal.countP fun | .cleared => true | _ => false

end Shelf

/-- Reads and renders templates. -/
structure Engine where
  delimiters : Delimiters := .standard
  /-- Trees are kept for the next time. -/
  keepsTrees : Bool := true
  deriving DecidableEq

namespace Engine

def readAnew (template : String) (d : Delimiters) (s : Shelf) :
    Except Fault SharedTree × Shelf :=
  match parse d template with
  | .error fault => (.error fault, s)
  | .ok nodes =>
    let (tree, s) := s.share nodes
    (.ok tree, s)

/-- The tree of a template, from the shelf if it is kept there. A template that cannot be read
changes nothing that is kept. -/
def read (e : Engine) (delimiters : Option Delimiters) (template : String) (s : Shelf) :
    Except Fault SharedTree × Shelf :=
  let d := delimiters.getD e.delimiters
  if e.keepsTrees then
    match s.find? template d with
    | some tree => (.ok tree, s.note (.reused template d))
    | none =>
      match readAnew template d (s.note (.reading template d)) with
      | (.error fault, s) => (.error fault, s)
      | (.ok tree, s) => (.ok tree, (s.keep template d tree).note (.kept template d))
  else readAnew template d s

def clear (e : Engine) (s : Shelf) : Shelf :=
  if e.keepsTrees then { s with trees := [] }.note .cleared else s

end Engine

end TagTemplate
