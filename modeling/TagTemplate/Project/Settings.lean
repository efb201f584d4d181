import TagTemplate.Engine.Options
import TagTemplate.FileSystem
import TagTemplate.Toml.Reader

/-!
# Settings of a project

A project is a folder. Its settings are in a TOML file at its root; each of them has a default,
and entries that mean nothing are passed over.
-/

namespace TagTemplate

/-- A folder and the extension of the files in it that count. -/
structure FileGroup where
  folder : String
  extension : String
  deriving DecidableEq, Repr

/-- How values are escaped. -/
inductive Escaping where
  | html
  | none
  deriving DecidableEq, Repr

/-- What a project can choose. -/
structure Settings where
  delimiters : List String := ["\x7b\x7b", "\x7d\x7d"]
  escaping : Escaping := .html
  ceiling : Option Nat := none
  templates : FileGroup := ⟨"templates", "mustache"⟩
  partials : FileGroup := ⟨"partials", "mustache"⟩
  /-- What is logged unless the surroundings tell. -/
  logging : String := "info"
  deriving DecidableEq, Repr

/-- Why settings cannot be had. -/
inductive SettingsFault where
  | unreadable (fault : FileFault)
  /-- The file is no TOML, or an entry is not of its kind. -/
  | malformed
  deriving DecidableEq, Repr

namespace Settings

def fileName : String := "stache.toml"

end Settings

def SettingsFault.message : SettingsFault → String
  | .unreadable fault => "读取 " ++ Settings.fileName ++ " 失败：" ++ fault.message
  | .malformed => "解析 " ++ Settings.fileName ++ " 失败："

namespace Settings

/-! ## Kinds of entries -/

def text? : Toml → Option String
  | .string s => some s
  | _ => none

def texts? : Toml → Option (List String)
  | .array items => items.mapM text?
  | _ => none

def count? : Toml → Option Nat
  | .int n => if n < 0 then none else some n.toNat
  | _ => none

/-- Nothing, as an array or a table. -/
def isVoid : Toml → Bool
  | .array [] | .table _ [] => true
  | _ => false

/-- One of the escapings, by name; the name may also be the first key of a table and have
nothing under it. Between braces there must not be a second key. -/
def escaping? : Toml → Option Escaping
  | .string name => byName name
  | .table inBraces ((name, value) :: more) =>
    if isVoid value && (!inBraces || more.isEmpty) then byName name else none
  | _ => none
where
  byName : String → Option Escaping
    | "html" => some .html
    | "none" => some .none
    | _ => none

/-! ## Sections -/

/-- The entries of a section with the given keys, in their order. A section is a table, or an
array with the entries in order; a date or a time has none of them. -/
def entries? (keys : List String) : Toml → Option (List (Option Toml))
  | .table _ entries => some (keys.map fun key => Toml.field? key entries)
  | .array items => some ((List.range keys.length).map fun i => items[i]?)
  | .moment _ => some (keys.map fun _ => none)
  | _ => none

/-- The entries of a section that may be missing. -/
def section? (name : String) (keys : List String) (document : List (String × Toml)) :
    Option (List (Option Toml)) :=
  match Toml.field? name document with
  | some found => entries? keys found
  | none => some (keys.map fun _ => none)

/-- An entry of its kind; the default if it is missing. -/
def entryOr {α : Type} (read : Toml → Option α) (default : α) : Option Toml → Option α
  | some found => read found
  | none => some default

def group? (name : String) (default : FileGroup) (document : List (String × Toml)) :
    Option FileGroup := do
  match ← section? name ["dir", "extension"] document with
  | [folder, extension] =>
    return ⟨← entryOr text? default.folder folder, ← entryOr text? default.extension extension⟩
  | _ => none

/-- The settings that a TOML document holds. -/
def ofDocument? (document : List (String × Toml)) : Option Settings := do
  let default : Settings := {}
  match ← section? "render" ["tags", "escape", "max_depth"] document,
      ← section? "log" ["level"] document with
  | [delimiters, escaping, ceiling], [logging] =>
    return {
      delimiters := ← entryOr texts? default.delimiters delimiters
      escaping := ← entryOr escaping? default.escaping escaping
      ceiling := ← entryOr (fun t => some <$> count? t) default.ceiling ceiling
      templates := ← group? "templates" default.templates document
      partials := ← group? "partials" default.partials document
      logging := ← entryOr text? default.logging logging }
  | _, _ => none

def ofText? (text : String) : Option Settings := (Toml.parse? text).bind ofDocument?

/-! ## Settings of a folder -/

def path (root : Path) : Path := root.join (.ofText fileName)

/-- The settings of a project that has them. -/
def load (fs : FileSystem) (root : Path) : Except SettingsFault Settings :=
  match fs.read (path root) with
  | .error fault => .error (.unreadable fault)
  | .ok text =>
    match ofText? text with
    | some settings => .ok settings
    | none => .error .malformed

/-- The settings of a project; the defaults if it has no settings file. -/
def loadOrDefault (fs : FileSystem) (root : Path) : Except SettingsFault Settings :=
  if fs.present (path root) then load fs root else .ok {}

/-! ## What settings mean -/

/-- The delimiters, if the list holds a pair. -/
def delimiters? (s : Settings) : Except Fault Delimiters := Delimiters.ofList? s.delimiters

/-- The options of a rendering under these settings. -/
def options? (s : Settings) : Except Fault Options := do
  let delimiters ← s.delimiters?
  return {
    escape := match s.escaping with
      | .html => none
      | .none => some id
    delimiters := some delimiters
    ceiling := s.ceiling }

def templatesFolder (s : Settings) (root : Path) : Path := root.join (.ofText s.templates.folder)

def partialsFolder (s : Settings) (root : Path) : Path := root.join (.ofText s.partials.folder)

end Settings

end TagTemplate
