import TagTemplate.Text.Split

/-!
# Paths

Where a file is, told as names with slashes between them. A path is kept as it was written,
segment by segment; `components` leaves out the segments that lead nowhere.
-/

namespace TagTemplate

/-- The parts of a path between its slashes: `/a` has an empty one first, `a/` an empty one
last. -/
structure Path where
  segments : List String
  deriving DecidableEq, Repr

namespace Path

def ofText (text : String) : Path := ⟨(splitOn '/' text.toList).map String.ofList⟩

def text (p : Path) : String := String.ofList (joinOn '/' (p.segments.map String.toList))

theorem text_ofText (s : String) : (ofText s).text = s := by
  have h : String.toList ∘ String.ofList = id := by
    funext cs
    simp
  simp [text, ofText, List.map_map, h, joinOn_splitOn]

/-- The folder in which the path starts. -/
def here : Path := ⟨["."]⟩

/-- The path with no name at all, which denotes nothing. -/
def isEmpty (p : Path) : Bool := p.segments == [""]

/-- The path starts at the top, with a slash. -/
def isAbsolute (p : Path) : Bool :=
  match p.segments with
  | "" :: _ :: _ => true
  | _ => false

/-- A path taken from a folder; an absolute one stands for itself. -/
def join (folder p : Path) : Path :=
  if p.isAbsolute then p
  else if folder.segments.getLast? = some "" then ⟨folder.segments.dropLast ++ p.segments⟩
  else ⟨folder.segments ++ p.segments⟩

/-- A segment that stays in the folder where it is: an empty one, or a dot. -/
def isIdle (segment : String) : Bool := segment == "" || segment == "."

/-- The segments that lead somewhere; of the idle ones only a dot at the very start counts. -/
def components (p : Path) : List String :=
  (if p.segments.head? = some "." then ["."] else []) ++ p.segments.filter (!isIdle ·)

/-- Two ways to write one path. -/
def sameAs (p q : Path) : Bool := p.isAbsolute == q.isAbsolute && p.components == q.components

/-- The name at the end of a path, unless the path ends in a step up or in a dot. -/
def fileName? (p : Path) : Option String :=
  match p.components.getLast? with
  | some name => if name = "." ∨ name = ".." then none else some name
  | none => none

/-- What follows the last dot of a file name; a dot at its start does not count. -/
def extensionOf? (name : String) : Option String :=
  match splitOn '.' name.toList with
  | [] | [_] | [[], _] => none
  | parts => parts.getLast?.map String.ofList

def extension? (p : Path) : Option String := p.fileName?.bind extensionOf?

/-- A path without the idle segments at its two ends. -/
def trim (p : Path) : Path :=
  ⟨((p.segments.dropWhile isIdle).reverse.dropWhile isIdle).reverse⟩

/-- The folder that a path is in, if it has an end to leave out. -/
def parent? (p : Path) : Option Path :=
  match p.segments with
  | [] => none
  | first :: rest =>
    match rest.reverse.dropWhile isIdle with
    | _ :: before =>
      match before.dropWhile isIdle with
      | [] => some ⟨if p.isAbsolute then ["", ""] else [first]⟩
      | before => some ⟨first :: before.reverse⟩
    | [] => if first = "" then none else some ⟨[""]⟩

/-- A path and the folders that it is in, at most so many. -/
def ancestorsWithin : Nat → Path → List Path
  | 0, _ => []
  | count + 1, p =>
    if p.isEmpty then [] else p :: (p.parent?.map (ancestorsWithin count)).getD []

/-- A path and the folders that it is in, from the inside out, as far as they have a name. -/
def ancestors (p : Path) : List Path := ancestorsWithin p.segments.length p

example : (ofText "a/../b/").ancestors.map text = ["a/../b/", "a/..", "a"] := by decide
example : (ofText "/a").ancestors.map text = ["/a", "/"] := by decide
example : (join (ofText "p") (ofText "x")).text = "p/x" := by decide
example : (join (ofText "p/") (ofText "")).text = "p/" := by decide
example : (join (ofText "") (ofText "x")).text = "x" := by decide
example : (join (ofText "p") (ofText "/x")).text = "/x" := by decide
example : (ofText "-/").sameAs (ofText "-") = true := by decide
example : ["a.b", ".b", "b.", "a/..", "a.b/./", "..b"].map (fun t => (ofText t).extension?) =
    [some "b", none, some "", none, some "b", some "b"] := by decide
example : ["a/b", "a", "/a", "/", "", "./a", "a//./b/.", "..", "."].map
      (fun t => (ofText t).parent?.map text) =
    [some "a", some "", some "/", none, none, some ".", some "a", some "", some ""] := by decide
example : (ofText "././a/./b/").trim.text = "a/./b" := by decide

end Path

end TagTemplate
