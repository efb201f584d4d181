import TagTemplate.CommandLine.Arguments
import TagTemplate.CommandLine.Failure
import TagTemplate.CommandLine.Records
import TagTemplate.Engine.Session
import TagTemplate.Json.Printer
import TagTemplate.Project.Check
import TagTemplate.Template.Export
import TagTemplate.Value.Source

/-!
# Running a command

A command reads files and its input, tells what it does in log records, and ends with an output or
with a failure. A file is written in one case only, as the last step of a rendering that has an
output file.
-/

namespace TagTemplate

/-! ## State -/

/-- What a command can see and change. -/
structure Surroundings where
  files : FileSystem
  input : Content := .text ""
  records : List LogRecord := []
  output : String := ""

/-- A part of a command: a result or a failure; nothing at all if a rendering has no outcome. -/
abbrev CommandM := ExceptT Failure (StateT Surroundings Option)

namespace CommandM

/-- Goes on with a result, or fails with a fault seen as a failure. -/
def orFail {ε α : Type} (failure : ε → Failure) : Except ε α → CommandM α
  | .ok a => pure a
  | .error fault => throw (failure fault)

def tell (record : LogRecord) : CommandM Unit :=
  modify fun s => { s with records := s.records ++ [record] }

def print (text : String) : CommandM Unit := modify fun s => { s with output := s.output ++ text }

/-- The text of a file, or what is left of the input. -/
def readText (path : Path) : CommandM String := do
  let s ← get
  if path.sameAs Command.inputPath then
    let text ← orFail .file s.input.read
    set { s with input := .text "" }
    return text
  else orFail (.unreadable path) (s.files.read path)

end CommandM

open CommandM

/-! ## Commands -/

/-- The view in a file: TOML if its extension says so, else JSON. Without a file the view has no
fields. -/
def loadView : Option Path → CommandM Value
  | none => return .ofFields []
  | some path => do
    let text ← readText path
    orFail .engine <|
      if path.extension? = some "toml" then Value.ofTomlText? text else Value.ofJsonText? text

/-- Tells that a project has no settings, if so. -/
def tellDefaults (root : Path) : CommandM Unit := do
  if !(← get).files.present (Settings.path root) then
    tell ⟨.debug, settingsTarget, "未找到 " ++ Settings.fileName ++ "，使用默认配置"⟩

/-- The text of a template. `budget` bounds how many renderings may be active in each other. -/
def renderWith (budget : Nat) (template : String) (view : Value) (folder : PartialFolder)
    (options : Options) : CommandM String := do
  let s ← get
  let call := Call.render template view (some (folder.inclusions s.files)) options
  match ({} : Engine).answer budget Callables.none { memory := () } call with
  | none => ExceptT.mk fun _ => none
  | some (reply, session) =>
    (session.shelf.records (folder.record? s.files)).forM tell
    match ← orFail .engine reply with
    | .text text => return text
    | _ => return ""

/-- Puts a text into a file; the folder for it is made. -/
def writeOutput (path : Path) (text : String) : CommandM Unit := do
  match path.parent? with
  | some parent =>
    if !parent.isEmpty then
      let s ← get
      let (made, files) := s.files.makeFolders parent
      set { s with files }
      orFail .file made
  | none => pure ()
  let s ← get
  let files ← orFail (.unwritable path) (s.files.write path text)
  set { s with files }
  tell ⟨.info, commandTarget, "已写入 " ++ path.text⟩

/-- The options for a request: the settings, and what the request has in their place. -/
def optionsFor (settings : Settings) (request : RenderRequest) : Except Fault Options := do
  let options ← settings.options?
  let delimiters ← match request.delimiters with
    | some text => some <$> Delimiters.ofText? text
    | none => pure options.delimiters
  return { options with
    delimiters
    escape := if request.raw then some id else options.escape }

def runRender (budget : Nat) (request : RenderRequest) : CommandM Unit := do
  tellDefaults request.root
  let settings ← orFail .settings (Settings.loadOrDefault (← get).files request.root)
  let options ← orFail .engine (optionsFor settings request)
  let folder : PartialFolder :=
    { root := request.partials.getD (settings.partialsFolder request.root)
      extension := settings.partials.extension }
  let template ← readText request.template
  let view ← loadView request.view
  let text ← renderWith budget template view folder options
  match request.output with
  | some path => writeOutput path text
  | none => print text

def runParse (template : Path) (delimiters : Option String) : CommandM Unit := do
  let d ← match delimiters with
    | some text => some <$> orFail .engine (Delimiters.ofText? text)
    | none => pure none
  let text ← readText template
  let (tree, shelf) := ({} : Engine).read d text {}
  (shelf.records fun _ => none).forM tell
  let tree ← orFail .engine tree
  print ((Json.array (Node.listToJson tree.nodes)).pretty ++ "\n")

def runCheck (root : Path) : CommandM Unit := do
  tellDefaults root
  let report ← orFail .file (check (← get).files root)
  report.warnings.forM fun w => tell ⟨.warning, commandTarget, w.message⟩
  report.errors.forM fun e => tell ⟨.error, commandTarget, e.message⟩
  if report.errors.isEmpty then
    tell ⟨.info, commandTarget, "检查通过（" ++ toString report.warnings.length ++ " 个警告）"⟩
  else throw (.badProject report.errors.length report.warnings.length)

def Command.run (budget : Nat) : Command → CommandM Unit
  | .render request => runRender budget request
  | .parse template delimiters => runParse template delimiters
  | .check root => runCheck root

end TagTemplate
