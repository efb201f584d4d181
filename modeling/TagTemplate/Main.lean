import TagTemplate.CommandLine.Program

/-!
# The program

Takes a picture of the files at hand, runs the command on it, and writes what is new.
-/

namespace TagTemplate

/-- How many folders deep a picture goes. -/
def pictureDepth : Nat := 64

/-- A picture of a file or a folder. -/
def picture (depth : Nat) (e : IO.FS.DirEntry) : IO FileTree := do
  match depth with
  | 0 => return .folder []
  | depth + 1 =>
    match ← e.path.readDir.toBaseIO with
    | .ok inside =>
      return .folder (← inside.toList.mapM fun e => do return (e.fileName, ← picture depth e))
    | .error _ =>
      match ← (IO.FS.readBinFile e.path).toBaseIO with
      | .ok bytes => return .file (.ofBytes bytes)
      | .error _ => return .file .bytes

def Place.text (place : Place) : String := (Path.mk ("" :: place)).text

/-- The picture with what is at a place on disk, if there is anything. -/
def withPlace (tree : FileTree) (place : Place) : IO FileTree := do
  match place.getLast? with
  | none => return tree
  | some name =>
    let e : IO.FS.DirEntry := ⟨Place.text place.dropLast, name⟩
    if ← e.path.pathExists then return tree.put place (← picture pictureDepth e) else return tree

/-- The picture with what paths lead to outside the working folder. -/
def withPaths (fs : FileSystem) (paths : List Path) : IO FileSystem := do
  let outside := (paths.map fs.placeOf).filter (!fs.workingFolder.isPrefixOf ·)
  return { fs with top := ← outside.foldlM withPlace fs.top }

/-- The folders that the settings of a command's project name. -/
def settingsPaths (fs : FileSystem) (command : Command) : List Path :=
  match command.root?, command.root?.map (Settings.load fs) with
  | some root, some (.ok settings) => [settings.templatesFolder root, settings.partialsFolder root]
  | _, _ => []

/-- The files of the working folder, and those that a command or its settings name outside it. -/
def filesAtHand (command : Option Command) : IO FileSystem := do
  let workingFolder := (Path.ofText (← IO.currentDir).toString).components
  let fs : FileSystem := ⟨← withPlace (.folder []) workingFolder, workingFolder⟩
  match command with
  | none => return fs
  | some command =>
    let fs ← withPaths fs command.paths
    withPaths fs (settingsPaths fs command)

/-- Writes the files that a command made or changed. -/
def writeNew (before after : FileSystem) : IO Unit := do
  let whole (fs : FileSystem) : FileSystem := { fs with workingFolder := [] }
  for (place, text) in (whole before).changedTexts (whole after) do
    IO.FS.createDirAll (Place.text place.dropLast)
    IO.FS.writeFile (Place.text place) text

/-- The input, as far as a command reads it. -/
def inputOf (command : Option Command) : IO Content := do
  if (command.map Command.readsInput).getD false then
    return .ofBytes (← (← IO.getStdin).readBinToEnd)
  else return .text ""

/-- What is shown instead of the help that a command line asks for. -/
def usage : String :=
  "usage: stache render TEMPLATE [--view FILE] [-p FOLDER] [--tags TAGS] [--raw] [-o FILE] [-r FOLDER]\n" ++
  "       stache parse TEMPLATE [--tags TAGS]\n" ++
  "       stache check [-r FOLDER]"

end TagTemplate

open TagTemplate

def main (arguments : List String) : IO UInt32 := do
  let command := (Command.ofArguments arguments).toOption
  if command.isNone then IO.eprintln usage
  let files ← filesAtHand command
  match runProgram arguments files (← inputOf command) (← IO.getEnv "RUST_LOG") with
  | none =>
    IO.eprintln "Error: no end of nesting"
    return 1
  | some outcome =>
    writeNew files outcome.files
    IO.print outcome.output
    (outcome.warnings ++ outcome.told).forM fun text => IO.eprintln text
    return outcome.code.toUInt32
