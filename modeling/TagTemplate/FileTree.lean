/-!
# File trees

Folders and files as data. A place in a tree is the list of names that lead to it from the top.
-/

namespace TagTemplate

/-- What a file holds: a text, or bytes that are no text. -/
inductive Content where
  | text (text : String)
  | bytes
  deriving DecidableEq, Repr

/-- What a file with these bytes holds. -/
def Content.ofBytes (bytes : ByteArray) : Content :=
  match String.fromUTF8? bytes with
  | some words => .text words
  | none => .bytes

/-- A file, or a folder with its entries by name. -/
inductive FileTree where
  | file (content : Content)
  | folder (entries : List (String × FileTree))
  deriving Repr, Inhabited

/-- The names that lead from the top of a tree to something in it. -/
abbrev Place := List String

namespace FileTree

/-- The entry of a name. -/
def child? (name : String) : List (String × FileTree) → Option FileTree
  | [] => none
  | (n, t) :: rest => if n = name then some t else child? name rest

/-- The entries with one of them replaced, or added at the end. -/
def setEntry (name : String) (new : FileTree) : List (String × FileTree) →
    List (String × FileTree)
  | [] => [(name, new)]
  | (n, t) :: rest => if n = name then (n, new) :: rest else (n, t) :: setEntry name new rest

def at? : FileTree → Place → Option FileTree
  | t, [] => some t
  | .file _, _ :: _ => none
  | .folder entries, name :: place => (child? name entries).bind (·.at? place)

/-- The tree with something put at a place; missing folders on the way are made. Nothing can be
put below a file. -/
def put : FileTree → Place → FileTree → FileTree
  | _, [], new => new
  | .file content, _ :: _, _ => .file content
  | .folder entries, name :: place, new =>
    .folder (setEntry name (((child? name entries).getD (.folder [])).put place new) entries)

mutual

def files : FileTree → List (Place × Content)
  | .file content => [([], content)]
  | .folder entries => filesOfEntries entries

def filesOfEntries : List (String × FileTree) → List (Place × Content)
  | [] => []
  | (name, t) :: rest =>
    t.files.map (fun (place, content) => (name :: place, content)) ++ filesOfEntries rest

end

theorem child?_setEntry (name other : String) (new : FileTree)
    (entries : List (String × FileTree)) :
    child? other (setEntry name new entries) =
      if other = name then some new else child? other entries := by
  induction entries with
  | nil => simp [setEntry, child?, eq_comm]
  | cons e rest ih =>
    obtain ⟨n, t⟩ := e
    by_cases hn : n = name
    · subst hn
      by_cases h : other = n
      · simp [setEntry, child?, h]
      · simp [setEntry, child?, h, Ne.symm h]
    · by_cases h : n = other
      · subst h
        simp [setEntry, child?, hn]
      · simp [setEntry, child?, hn, h, ih]

end FileTree

end TagTemplate
