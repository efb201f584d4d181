import TagTemplate.Project.Partials
import TagTemplate.Project.Settings
import TagTemplate.Template.Parse

/-!
# Checking a project

All templates of a project and all texts to include are read under the configured delimiters.
What cannot be read is an error; a name that is included somewhere and has no file is a warning,
since it is rendered as nothing.
-/

namespace TagTemplate

/-- What is wrong in a project. -/
inductive ProjectError where
  | settings (fault : SettingsFault)
  | delimiters (fault : Fault)
  | noTemplates (folder : String)
  | unreadable (file : String) (fault : FileFault)
  | malformed (file : String) (fault : Fault)
  deriving DecidableEq, Repr

def ProjectError.message : ProjectError → String
  | .settings fault => Settings.fileName ++ " 解析失败: " ++ fault.message
  | .delimiters fault => Settings.fileName ++ " 中的分隔符无效: " ++ fault.message
  | .noTemplates folder => "模板目录 " ++ folder ++ "/ 不存在"
  | .unreadable file fault => "读取 " ++ file ++ " 失败: " ++ fault.message
  | .malformed file fault => file ++ ": " ++ fault.message

/-- What may be wrong in a project. -/
inductive ProjectWarning where
  | noPartials (folder : String)
  | noPartial (name : String)
  deriving DecidableEq, Repr

def ProjectWarning.message : ProjectWarning → String
  | .noPartials folder => "局部模板目录 " ++ folder ++ "/ 不存在"
  | .noPartial name => "局部模板 " ++ name ++ " 不存在"

/-- What a check finds. -/
structure Report where
  errors : List ProjectError := []
  warnings : List ProjectWarning := []
  deriving Repr

/-! ## One file -/

/-- A file that is checked, with its place below the checked folder. -/
structure CheckedFile where
  place : Place
  content : Content
  deriving Repr

namespace CheckedFile

/-- The place with slashes between the names. -/
def name (f : CheckedFile) : String := (Path.mk f.place).text

def error? (d : Delimiters) (f : CheckedFile) : Option ProjectError :=
  match f.content.read with
  | .error fault => some (.unreadable f.name fault)
  | .ok text =>
    match parse d text with
    | .error fault => some (.malformed f.name fault)
    | .ok _ => none

/-- The names that the file includes, in order, if it can be read. -/
def included (d : Delimiters) (f : CheckedFile) : List String :=
  match f.content.read with
  | .error _ => []
  | .ok text =>
    match parse d text with
    | .error _ => []
    | .ok nodes => (Node.flatten.flattenAll nodes).filterMap fun
      | .inclusion key .. => some key
      | _ => none

end CheckedFile

/-! ## A folder -/

/-- Places are ordered name by name. -/
def placeLe (a b : Place) : Bool := !decide (b < a)

/-- The files with an extension at all depths below a folder, in the order of their places. -/
def checkedFiles (fs : FileSystem) (folder : Path) (extension : String) :
    Except FileFault (List CheckedFile) := do
  let files ← fs.filesBelow folder
  let chosen := files.filter fun (place, _) =>
    place.getLast?.bind Path.extensionOf? == some extension
  return (chosen.mergeSort fun a b => placeLe a.1 b.1).map fun (place, content) =>
    ⟨place, content⟩

/-- The files of a folder that may be missing. -/
def checkedFiles? (fs : FileSystem) (folder : Path) (extension : String) :
    Except FileFault (Option (List CheckedFile)) :=
  if fs.present folder then some <$> checkedFiles fs folder extension else return none

/-! ## A project -/

/-- Names in order, each once. -/
def sortedNames (names : List String) : List String :=
  names.eraseDups.mergeSort fun a b => !decide (b < a)

/-- The report on the files of a project. A folder that is missing is none. -/
def reportOn (fs : FileSystem) (settings : Settings) (root : Path) (d : Delimiters)
    (templates partials : Option (List CheckedFile)) : Report :=
  let files := templates.getD [] ++ partials.getD []
  let names := sortedNames (files.flatMap (·.included d))
  let folder : PartialFolder := ⟨settings.partialsFolder root, settings.partials.extension⟩
  { errors :=
      (if templates.isNone then [.noTemplates settings.templates.folder] else []) ++
        files.filterMap (·.error? d)
    warnings :=
      (if partials.isNone && !names.isEmpty then [.noPartials settings.partials.folder] else []) ++
        (names.filter fun name => !fs.hasFile (folder.path name)).map .noPartial }

/-- Checks the project in a folder. What stands where a folder should be is a fault. -/
def check (fs : FileSystem) (root : Path) : Except FileFault Report :=
  match Settings.loadOrDefault fs root with
  | .error fault => return { errors := [.settings fault] }
  | .ok settings =>
    match settings.delimiters? with
    | .error fault => return { errors := [.delimiters fault] }
    | .ok d => do
      let templates ← checkedFiles? fs (settings.templatesFolder root) settings.templates.extension
      let partials ← checkedFiles? fs (settings.partialsFolder root) settings.partials.extension
      return reportOn fs settings root d templates partials

end TagTemplate
