import TagTemplate.Callable
import TagTemplate.Engine.Options
import TagTemplate.Engine.Shelf
import TagTemplate.Scope
import TagTemplate.Template.Reflow

/-!
# Rendering

A tree is written node by node in a scope. Included templates and the templates that transformers
ask for are rendered in turn, in the scope where they stand. This nesting is bounded by a budget;
a rendering that exhausts it has no outcome, which is neither a text nor a fault.
-/

namespace TagTemplate

/-- What changes during a rendering. -/
structure Run (σ : Type) where
  memory : σ
  shelf : Shelf
  scope : Scope

/-- A part of a rendering: a text or a fault, or no outcome. -/
abbrev RenderM (σ : Type) := ExceptT Fault (StateT (Run σ) Option)

/-- What stays the same during a rendering. -/
structure Setup (σ : Type) where
  engine : Engine
  options : Options := {}
  inclusions : Option Inclusions := none
  callables : Callables σ

namespace Setup

variable {σ : Type}

/-- What a name denotes here. A getter is asked each time, with the view of this frame. -/
def lookup (s : Setup σ) (name : String) : RenderM σ Value := do
  let run ← get
  let (found, scope) := run.scope.find name
  match found with
  | .getter handle =>
    let (value, memory) := s.callables.get handle run.memory scope.view
    set { run with memory, scope }
    return value
  | found =>
    set { run with scope }
    return found

def descend (s : Setup σ) (depth : Nat) : RenderM σ Nat := liftExcept (s.options.descend depth)
where
  liftExcept {α : Type} : Except Fault α → RenderM σ α
    | .ok a => pure a
    | .error fault => throw fault

end Setup

section Writing

variable {σ : Type}

/-- Does something in a frame of its own, which is gone afterwards, also after a fault. -/
def inFrame {α : Type} (view : Value) (body : RenderM σ α) : RenderM σ α :=
  ExceptT.mk fun run =>
    (body.run { run with scope := run.scope.push view }).map fun (result, after) =>
      (result, { after with scope := run.scope })

/-- The budget is used up: there is no outcome. -/
def exhausted {α : Type} : RenderM σ α := ExceptT.mk fun _ => none

def writeEach {α : Type} (write : α → RenderM σ String) : List α → RenderM σ String
  | [] => return ""
  | x :: xs => do
    let first ← write x
    let rest ← writeEach write xs
    return first ++ rest

/-- Does the work of a transformer; `render` renders a template where it stands. -/
def Script.perform (render : String → RenderM σ String) : Script σ → RenderM σ String
  | .done memory output => do
    modify fun run => { run with memory }
    return output.getD ""
  | .fail memory fault => do
    modify fun run => { run with memory }
    throw fault
  | .render memory template next => do
    modify fun run => { run with memory }
    let outcome ← tryCatch (Except.ok <$> render template) (fun fault => pure (.error fault))
    (next (← get).memory outcome).perform render

/-- Gives the text of a block to a transformer, by the key of the block and the two ends of its
body. -/
abbrev BlockText := String → Nat → Nat → Except Fault String

/-- The text of a block as it stands in the template, if that is at hand. -/
def blockText (source : Option String) : BlockText := fun key start stop =>
  match source with
  | none => .error (.unsupported .noSource)
  | some source =>
    match slice? source.toList start stop with
    | none => .error (.unsupported (.bodyOutside key start stop))
    | some text => .ok (String.ofList text)

/-- The text of an inclusion, moved to the right if its tag is the first one on a line with a
margin. -/
def includedText (margin : Margin) (text : String) : String :=
  if margin.tagIndex = 0 ∧ margin.indentation ≠ [] then
    String.ofList (reflow text.toList margin.indentation margin.afterText)
  else text

/-- Asks for a text to include. -/
def Setup.inclusion? (s : Setup σ) (name : String) : RenderM σ (Option String) :=
  match s.inclusions with
  | none => return none
  | some inclusions => do
    modify fun run => { run with shelf := run.shelf.note (.asked name) }
    return inclusions name

mutual

/-- The text of a node. `render` renders a template in this scope at a depth, `body` gives the
text of a block, and `depth` counts the frames and inclusions around the node. -/
def Node.write (s : Setup σ) (render : Nat → String → RenderM σ String) (body : BlockText)
    (depth : Nat) : Node → RenderM σ String
  | .text text _ _ => return text
  | .escaped key _ _ => do return s.options.escapedText (← s.lookup key)
  | .unescaped key _ _ => do return Options.plainText (← s.lookup key)
  | .block key _ bodyStart children bodyStop => do
    let value ← s.lookup key
    if !value.isTruthy then return ""
    match value with
    | .array items =>
      let depth ← s.descend depth
      writeEach (fun item => inFrame item (writeNodes s render body depth children)) items
    | .object _ | .string _ | .int _ | .float _ =>
      let depth ← s.descend depth
      inFrame value (writeNodes s render body depth children)
    | .transformer handle =>
      let text ← Setup.descend.liftExcept (body key bodyStart bodyStop)
      (s.callables.transform handle (← get).memory text).perform (render depth)
    | _ => writeNodes s render body depth children
  | .inverted key _ _ children _ => do
    let value ← s.lookup key
    if !value.isTruthy || (value matches .array []) then writeNodes s render body depth children
    else return ""
  | .inclusion key _ _ margin => do
    match ← s.inclusion? key with
    | none => return ""
    | some text =>
      let depth ← s.descend depth
      render depth (includedText margin text)

def writeNodes (s : Setup σ) (render : Nat → String → RenderM σ String) (body : BlockText)
    (depth : Nat) : List Node → RenderM σ String
  | [] => return ""
  | n :: ns => do
    let first ← n.write s render body depth
    let rest ← writeNodes s render body depth ns
    return first ++ rest

end

/-- The tree of a template, under the delimiters of the options. -/
def Setup.tree (s : Setup σ) (template : String) : RenderM σ SharedTree := do
  let run ← get
  let (result, shelf) := s.engine.read s.options.delimiters template run.shelf
  set { run with shelf }
  Setup.descend.liftExcept result

/-- The text of a template at a depth. `budget` bounds how many renderings may be active in each
other. -/
def Setup.renderAt (s : Setup σ) (budget depth : Nat) (template : String) : RenderM σ String :=
  match budget with
  | 0 => exhausted
  | budget + 1 => do
    let tree ← s.tree template
    writeNodes s (s.renderAt budget) (blockText (some template)) depth tree.nodes

/-- The text of a template in the scope of the run. -/
def Setup.render (s : Setup σ) (budget : Nat) (template : String) : RenderM σ String :=
  s.renderAt budget 0 template

/-- The text of a tree in the scope of the run; `source` is the text it was read from. -/
def Setup.renderTree (s : Setup σ) (budget : Nat) (nodes : List Node) (source : Option String) :
    RenderM σ String :=
  writeNodes s (s.renderAt budget) (blockText source) 0 nodes

end Writing

end TagTemplate
