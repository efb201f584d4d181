import TagTemplate.Engine.Render

/-!
# Calls on an engine

What an engine is asked to do, one call after the other. The shelf, the memory of the callables
and the scopes that callers keep go from call to call.
-/

namespace TagTemplate

/-- Something an engine is asked to do. -/
inductive Call where
  | read (template : String) (delimiters : Option Delimiters)
  | render (template : String) (view : Value) (inclusions : Option Inclusions) (options : Options)
  /-- Render a template in one of the scopes that callers keep. -/
  | renderIn (template : String) (place : Nat) (inclusions : Option Inclusions)
    (options : Options)
  /-- Render a tree with a view; `source` is the text it was read from. -/
  | renderTree (nodes : List Node) (source : Option String) (view : Value)
    (inclusions : Option Inclusions) (options : Options)
  | clear

inductive Reply where
  | tree (tree : SharedTree)
  | text (text : String)
  | done
  deriving Repr

/-- What goes from call to call. -/
structure Session (σ : Type) where
  memory : σ
  shelf : Shelf := {}
  /-- The scopes that callers keep, with what has been found from them. -/
  scopes : Nat → Scope := fun _ => .root .null

/-- A scope kept in the place of another. -/
def Session.keepScope {σ : Type} (session : Session σ) (place : Nat) (scope : Scope) : Session σ :=
  { session with scopes := fun i => if i = place then scope else session.scopes i }

/-- Renders in a scope: the result, what goes on to the next call, and the scope with what was
found from it. Nothing if the budget does not suffice. -/
def Session.renderIn {σ α : Type} (session : Session σ) (scope : Scope) (body : RenderM σ α) :
    Option (Except Fault α × Session σ × Scope) :=
  (body.run ⟨session.memory, session.shelf, scope⟩).map fun (result, run) =>
    (result, { session with memory := run.memory, shelf := run.shelf }, run.scope)

namespace Engine

variable {σ : Type}

/-- The reply to a call, and what goes on to the next one. No reply if the budget does not
suffice. -/
def answer (e : Engine) (budget : Nat) (callables : Callables σ) (session : Session σ) :
    Call → Option (Except Fault Reply × Session σ)
  | .read template delimiters =>
    let (result, shelf) := e.read delimiters template session.shelf
    some (result.map .tree, { session with shelf })
  | .render template view inclusions options =>
    (session.renderIn (.root view)
      ({ engine := e, options, inclusions, callables : Setup σ }.render budget template)).map
        fun (result, session, _) => (result.map .text, session)
  | .renderIn template place inclusions options =>
    (session.renderIn (session.scopes place)
      ({ engine := e, options, inclusions, callables : Setup σ }.render budget template)).map
        fun (result, session, scope) => (result.map .text, session.keepScope place scope)
  | .renderTree nodes source view inclusions options =>
    (session.renderIn (.root view)
      ({ engine := e, options, inclusions, callables : Setup σ }.renderTree budget nodes source)).map
        fun (result, session, _) => (result.map .text, session)
  | .clear => some (.ok .done, { session with shelf := e.clear session.shelf })

def answerAll (e : Engine) (budget : Nat) (callables : Callables σ) (session : Session σ) :
    List Call → Option (List (Except Fault Reply) × Session σ)
  | [] => some ([], session)
  | call :: calls =>
    (e.answer budget callables session call).bind fun (reply, session) =>
      (e.answerAll budget callables session calls).map fun (replies, session) =>
        (reply :: replies, session)

end Engine

/-- The nesting of renderings that suffices in practice. -/
def ampleBudget : Nat := 4000

/-- The text of a template that is given as a value; one that is not a string is refused. -/
def templateText? : Value → Except Fault String
  | .string template => .ok template
  | other => .error (.invalid (.templateKind other.typeName))

end TagTemplate
