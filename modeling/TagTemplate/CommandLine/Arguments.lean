import TagTemplate.Path

/-!
# Command line arguments

A command line is the name of a command and then, in any order, its options and at most one
operand. An option has a long name, and some have a letter too; its value follows in the next
argument, or in the same one. Behind a lone `--` everything is an operand.
-/

namespace TagTemplate

/-- What `render` is asked for. -/
structure RenderRequest where
  template : Path
  view : Option Path := none
  /-- Takes the place of the folder in the settings. -/
  partials : Option Path := none
  /-- Takes the place of the delimiters in the settings, as two words. -/
  delimiters : Option String := none
  /-- Nothing is escaped. -/
  raw : Bool := false
  output : Option Path := none
  root : Path := .here
  deriving DecidableEq, Repr

/-- What the program is asked to do. -/
inductive Command where
  | render (request : RenderRequest)
  | parse (template : Path) (delimiters : Option String)
  | check (root : Path)
  deriving DecidableEq, Repr

namespace Command

/-- The path that stands for the input of the program. -/
def inputPath : Path := ⟨["-"]⟩

def root? : Command → Option Path
  | render request => some request.root
  | check root => some root
  | parse .. => none

/-- The paths that a command reads from. -/
def sources : Command → List Path
  | render request => request.template :: request.view.toList
  | parse template _ => [template]
  | check _ => []

def paths (c : Command) : List Path :=
  c.sources ++ c.root?.toList ++
    match c with
    | render request => request.partials.toList ++ request.output.toList
    | _ => []

def readsInput (c : Command) : Bool := c.sources.any (·.sameAs inputPath)

end Command

/-- Why arguments are no command. -/
inductive NoCommand where
  | misuse
  /-- They ask for help, or for the version. -/
  | help
  deriving DecidableEq, Repr

/-! ## Options -/

/-- An option with a value. -/
structure OptionForm where
  name : String
  letter : Option Char := none
  /-- The value is a path, which cannot be empty. -/
  isPath : Bool := true

/-- What a command takes. -/
structure CommandForm where
  options : List OptionForm
  /-- Options without a value. -/
  flags : List String := []
  /-- How many operands there can be. -/
  operands : Nat

/-- Options and operands in the order in which they were given. -/
structure Given where
  options : List (String × String) := []
  flags : List String := []
  operands : List String := []

namespace Given

/-- One option more; none may be given twice. -/
def addOption (g : Given) (form : OptionForm) (value : String) : Except NoCommand Given :=
  if (g.options.lookup form.name).isSome || (form.isPath && value == "") then .error .misuse
  else .ok { g with options := g.options ++ [(form.name, value)] }

def addFlag (g : Given) (name : String) : Except NoCommand Given :=
  if name ∈ g.flags then .error .misuse else .ok { g with flags := g.flags ++ [name] }

/-- One operand more; an operand is a path. -/
def addOperand (g : Given) (form : CommandForm) (value : String) : Except NoCommand Given :=
  if g.operands.length < form.operands ∧ value ≠ "" then
    .ok { g with operands := g.operands ++ [value] }
  else .error .misuse

def option? (g : Given) (name : String) : Option String := g.options.lookup name

def path? (g : Given) (name : String) : Option Path := (g.option? name).map .ofText

end Given

/-! ## Arguments -/

/-- What an argument looks like. -/
inductive Argument where
  /-- `--`. -/
  | separator
  /-- `--name` or `--name=value`. -/
  | long (name : String) (value : Option String)
  /-- A letter, and what follows it in the same argument. -/
  | short (letter : Char) (rest : List Char)
  | plain (text : String)
  deriving DecidableEq, Repr

/-- Takes an argument apart; a lone dash is plain. -/
def Argument.ofText (text : String) : Argument :=
  match text.toList with
  | ['-', '-'] => .separator
  | '-' :: '-' :: rest =>
    let name := String.ofList (rest.takeWhile (· ≠ '='))
    match rest.dropWhile (· ≠ '=') with
    | _ :: value => .long name (some (String.ofList value))
    | [] => .long name none
  | '-' :: letter :: rest => .short letter rest
  | _ => .plain text

/-- The value that follows a letter in the same argument, an equals sign left out. -/
def attached? : List Char → Option String
  | [] => none
  | c :: rest => some (String.ofList (if c = '=' then rest else c :: rest))

/-- What is given by arguments. -/
def Given.read (form : CommandForm) (g : Given) : List String → Except NoCommand Given
  | [] => .ok g
  | argument :: rest =>
    match Argument.ofText argument with
    | .separator => rest.foldlM (fun g value => g.addOperand form value) g
    | .plain text =>
      match g.addOperand form text with
      | .ok g => g.read form rest
      | .error stop => .error stop
    | .long name value =>
      match form.options.find? (·.name == name), value with
      | some o, some value => continueWith (g.addOption o value) rest
      | some o, none => withNext g o rest
      | none, some _ => .error .misuse
      | none, none =>
        if name ∈ form.flags then continueWith (g.addFlag name) rest
        else if name = "help" then .error .help
        else .error .misuse
    | .short letter tail =>
      match form.options.find? (·.letter == some letter), attached? tail with
      | some o, some value => continueWith (g.addOption o value) rest
      | some o, none => withNext g o rest
      | none, _ => .error (if letter = 'h' then .help else .misuse)
where
  continueWith (g : Except NoCommand Given) (rest : List String) : Except NoCommand Given :=
    match g with
    | .ok g => g.read form rest
    | .error stop => .error stop
  withNext (g : Given) (o : OptionForm) : List String → Except NoCommand Given
    | [] => .error .misuse
    | value :: rest =>
      match Argument.ofText value with
      | .plain value => continueWith (g.addOption o value) rest
      | _ => .error .misuse

/-! ## Commands -/

def tagsOption : OptionForm := { name := "tags", isPath := false }

def rootOption : OptionForm := { name := "root", letter := some 'r' }

def renderForm : CommandForm where
  options := [{ name := "view" }, { name := "partials", letter := some 'p' }, tagsOption,
    { name := "output", letter := some 'o' }, rootOption]
  flags := ["raw"]
  operands := 1

def parseForm : CommandForm where
  options := [tagsOption]
  operands := 1

def checkForm : CommandForm where
  options := [rootOption]
  operands := 0

/-- The one operand that there must be. -/
def Given.template (g : Given) : Except NoCommand Path :=
  match g.operands with
  | [text] => .ok (.ofText text)
  | _ => .error .misuse

def Command.ofArguments : List String → Except NoCommand Command
  | "render" :: rest => do
    let g ← Given.read renderForm {} rest
    return .render {
      template := ← g.template
      view := g.path? "view"
      partials := g.path? "partials"
      delimiters := g.option? "tags"
      raw := g.flags.contains "raw"
      output := g.path? "output"
      root := (g.path? "root").getD .here }
  | "parse" :: rest => do
    let g ← Given.read parseForm {} rest
    return .parse (← g.template) (g.option? "tags")
  | "check" :: rest => do
    let g ← Given.read checkForm {} rest
    return .check ((g.path? "root").getD .here)
  | ["help"] => .error .help
  | ["help", topic] => .error (if topic ∈ ["render", "parse", "check", "help"] then .help else .misuse)
  | first :: _ =>
    match Argument.ofText first with
    | .long name none => .error (if name ∈ ["help", "version"] then .help else .misuse)
    | .short letter _ => .error (if letter ∈ ['h', 'V'] then .help else .misuse)
    | _ => .error .misuse
  | [] => .error .misuse

end TagTemplate
