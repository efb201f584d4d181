import TagTemplate.FileTree
import TagTemplate.Path
import TagTemplate.Text.Offset

/-!
# Files by path

A file system is a tree and a folder in it where relative paths start. Paths are followed one
segment at a time: each segment, also an empty one or a dot, needs a folder to stand in. Reading
changes nothing; writing and making folders give a new file system.
-/

namespace TagTemplate

/-- Why something cannot be done with a file or a folder. -/
inductive FileFault where
  | missing
  | alreadyThere
  | notFolder
  | isFolder
  | nameTooLong
  | notText
  | zeroInPath
  deriving DecidableEq, Repr

def FileFault.message : FileFault → String
  | .missing => "No such file or directory (os error 2)"
  | .alreadyThere => "File exists (os error 17)"
  | .notFolder => "Not a directory (os error 20)"
  | .isFolder => "Is a directory (os error 21)"
  | .nameTooLong => "File name too long (os error 36)"
  | .notText => "stream did not contain valid UTF-8"
  | .zeroInPath => "file name contained an unexpected NUL byte"

/-- A text is what a reader of text can take; other bytes are refused. -/
def Content.read : Content → Except FileFault String
  | .text words => .ok words
  | .bytes => .error .notText

/-- A tree of files, and the folder where relative paths start. -/
structure FileSystem where
  top : FileTree
  workingFolder : Place := []
  deriving Repr, Inhabited

namespace FileSystem

/-- How many bytes a name may have. -/
def nameLimit : Nat := 255

/-- How many bytes a path may have. -/
def pathLimit : Nat := 4095

/-- One segment further. -/
def step (top : FileTree) (place : Place) (segment : String) : Except FileFault Place :=
  match top.at? place with
  | some (.folder entries) =>
    if Path.isIdle segment then .ok place
    else if segment = ".." then .ok place.dropLast
    else if nameLimit < byteLength segment.toList then .error .nameTooLong
    else if (FileTree.child? segment entries).isSome then .ok (place ++ [segment])
    else .error .missing
  | some (.file _) => .error .notFolder
  | none => .error .missing

def walk (top : FileTree) (place : Place) : List String → Except FileFault Place
  | [] => .ok place
  | segment :: rest =>
    match step top place segment with
    | .ok place => walk top place rest
    | .error fault => .error fault

/-- The place where a path starts, unless no path is like that. -/
def start (fs : FileSystem) (p : Path) : Except FileFault Place :=
  if p.text.toList.contains '\x00' then .error .zeroInPath
  else if p.isEmpty then .error .missing
  else if pathLimit < byteLength p.text.toList then .error .nameTooLong
  else .ok (if p.isAbsolute then [] else fs.workingFolder)

def locate (fs : FileSystem) (p : Path) : Except FileFault Place := do
  let place ← fs.start p
  walk fs.top place p.segments

def find? (fs : FileSystem) (p : Path) : Except FileFault FileTree := do
  let place ← fs.locate p
  match fs.top.at? place with
  | some t => return t
  | none => throw .missing

def present (fs : FileSystem) (p : Path) : Bool :=
  match fs.find? p with
  | .ok _ => true
  | .error _ => false

def hasFile (fs : FileSystem) (p : Path) : Bool := fs.find? p matches .ok (.file _)

def read (fs : FileSystem) (p : Path) : Except FileFault String := do
  match ← fs.find? p with
  | .file content => content.read
  | .folder _ => throw .isFolder

/-- All files below a folder, each with its place there. -/
def filesBelow (fs : FileSystem) (p : Path) : Except FileFault (List (Place × Content)) := do
  match ← fs.find? p with
  | .file _ => throw .notFolder
  | .folder entries => return FileTree.filesOfEntries entries

def hasFolder (fs : FileSystem) (p : Path) : Bool := fs.find? p matches .ok (.folder _)

/-- The folder in which the end of a path is to be found, and the name of the end; none at the
top, which is in no folder. Slashes behind the name do not count. -/
def approach (fs : FileSystem) (p : Path) : Except FileFault (Option (Place × String)) := do
  let place ← fs.start p
  match p.segments.reverse.dropWhile (· == "") with
  | [] => return none
  | name :: before =>
    let folder ← walk fs.top place before.reverse
    match fs.top.at? folder with
    | some (.folder _) => return some (folder, name)
    | _ => throw .notFolder

/-- Puts a text into a file, which is made if it is missing. A path that ends with a slash is
that of a folder, whether or not there is one. -/
def write (fs : FileSystem) (p : Path) (text : String) : Except FileFault FileSystem := do
  match ← fs.approach p with
  | none => throw .isFolder
  | some (folder, name) =>
    if p.segments.getLast? = some "" then throw .isFolder
    match step fs.top folder name with
    | .ok place =>
      match fs.top.at? place with
      | some (.folder _) => throw .isFolder
      | _ => return { fs with top := fs.top.put place (.file (.text text)) }
    | .error .missing =>
      return { fs with top := fs.top.put (folder ++ [name]) (.file (.text text)) }
    | .error fault => throw fault

/-- Makes a folder in one that is there. -/
def makeFolder (fs : FileSystem) (p : Path) : Except FileFault FileSystem := do
  match ← fs.approach p with
  | none => throw .alreadyThere
  | some (folder, name) =>
    match step fs.top folder name with
    | .ok _ => throw .alreadyThere
    | .error .missing => return { fs with top := fs.top.put (folder ++ [name]) (.folder []) }
    | .error fault => throw fault

/-- Makes the first of several folders, each of which is in the next one, and for that the others
as far as they are missing. It is no fault if a folder is there in the end. -/
def makeChain (fs : FileSystem) : List Path → Except FileFault Unit × FileSystem
  | [] => (.ok (), fs)
  | p :: outer =>
    match fs.makeFolder p with
    | .ok fs => (.ok (), fs)
    | .error .missing =>
      match fs.makeChain outer with
      | (.error fault, fs) => (.error fault, fs)
      | (.ok (), fs) =>
        match fs.makeFolder p with
        | .ok fs => (.ok (), fs)
        | .error fault => (if fs.hasFolder p then .ok () else .error fault, fs)
    | .error fault => (if fs.hasFolder p then .ok () else .error fault, fs)

/-- Makes a folder and all folders that it is in, as far as they are missing. Those that were
made before a fault stay. -/
def makeFolders (fs : FileSystem) (p : Path) : Except FileFault Unit × FileSystem :=
  fs.makeChain p.ancestors

/-- The place that a path names, whether or not anything is there. -/
def placeOf (fs : FileSystem) (p : Path) : Place :=
  p.segments.foldl (fun place segment =>
    if Path.isIdle segment then place
    else if segment = ".." then place.dropLast
    else place ++ [segment]) (if p.isAbsolute then [] else fs.workingFolder)

/-- The files in the working folder that are new or changed, with their texts. -/
def changedTexts (before after : FileSystem) : List (Place × String) :=
  let files (fs : FileSystem) := ((fs.top.at? fs.workingFolder).map FileTree.files).getD []
  (files after).filterMap fun (place, content) =>
    match content with
    | .text text => if (place, content) ∈ files before then none else some (place, text)
    | .bytes => none

end FileSystem

end TagTemplate
