import TagTemplate.Callable
import TagTemplate.Value.Access
import TagTemplate.Value.Display

/-!
# Ready-made callables

Callables that are described by data. Their shared memory counts the calls of each.
-/

namespace TagTemplate

/-- What a getter yields. -/
inductive GetterRecipe where
  | constant (value : Value)
  /-- A field or item of the receiver. -/
  | child (key : String)
  | property (key : String)
  | receiver
  /-- The text of the receiver behind another text. -/
  | display (before : String)
  /-- The name of the receiver's kind. -/
  | typeName
  /-- The number of calls so far, this one included. -/
  | callCount
  deriving Inhabited

/-- What a transformer writes. -/
inductive TransformerRecipe where
  /-- The text of the block as it stands. -/
  | verbatim
  | render
  /-- The text rendered, between two others. -/
  | wrap (before after : String)
  | twice
  /-- The text rendered, and the result rendered again. -/
  | nested
  | template (text : String)
  /-- The text rendered behind another one. -/
  | prepend (before : String)
  | upper
  | byteCount
  | nothing
  | fail (reason : String)
  /-- The text rendered, or the kind of fault that this meets. -/
  | attempt
  | callCount

/-- How often each callable was called. -/
abbrev CallCounts := List (Handle × Nat)

namespace CallCounts

def count (counts : CallCounts) (handle : Handle) : Nat :=
  ((counts.find? (·.1 == handle)).map (·.2)).getD 0

/-- Counts one more call. -/
def called (counts : CallCounts) (handle : Handle) : CallCounts :=
  (handle, counts.count handle + 1) :: counts.filter (·.1 != handle)

end CallCounts

def GetterRecipe.value (recipe : GetterRecipe) (calls : Nat) (receiver : Value) : Value :=
  match recipe with
  | .constant value => value
  | .child key => (receiver.child? key).getD .null
  | .property key => (receiver.property? key).getD .null
  | .receiver => receiver
  | .display before => .string (before ++ receiver.display)
  | .typeName => .string receiver.typeName
  | .callCount => .ofCount calls

/-- Goes on with the text that a rendering yields; a fault ends the work. -/
def Script.onText {σ : Type} (next : σ → String → Script σ) (memory : σ)
    (outcome : Except Fault String) : Script σ :=
  match outcome with
  | .ok text => next memory text
  | .error fault => .fail memory fault

def TransformerRecipe.script {σ : Type} (recipe : TransformerRecipe) (calls : Nat) (memory : σ)
    (text : String) : Script σ :=
  let write (memory : σ) (text : String) : Script σ := .done memory (some text)
  match recipe with
  | .verbatim => write memory text
  | .render => .render memory text (.onText write)
  | .wrap before after =>
    .render memory text (.onText fun memory inner => write memory (before ++ inner ++ after))
  | .twice =>
    .render memory text (.onText fun memory first =>
      .render memory text (.onText fun memory second => write memory (first ++ second)))
  | .nested =>
    .render memory text (.onText fun memory inner => .render memory inner (.onText write))
  | .template other => .render memory other (.onText write)
  | .prepend before => .render memory (before ++ text) (.onText write)
  | .upper => write memory (text.map Char.toUpper)
  | .byteCount => write memory (toString text.utf8ByteSize)
  | .nothing => .done memory none
  | .fail reason => .fail memory (.invalid (.custom reason))
  | .attempt =>
    .render memory text fun memory outcome =>
      match outcome with
      | .ok inner => write memory ("ok:" ++ inner)
      | .error fault => write memory ("err:" ++ fault.kindName)
  | .callCount => write memory (toString calls)

/-- A callable described by data. -/
inductive Recipe where
  | getter (recipe : GetterRecipe)
  | transformer (recipe : TransformerRecipe)

/-- The callables of a list of recipes; a handle is a place in the list. -/
def Callables.ofRecipes (recipes : Array Recipe) : Callables CallCounts where
  get handle counts receiver :=
    let counts := counts.called handle
    match recipes[handle]? with
    | some (.getter recipe) => (recipe.value (counts.count handle) receiver, counts)
    | _ => (.null, counts)
  transform handle counts text :=
    let counts := counts.called handle
    match recipes[handle]? with
    | some (.transformer recipe) => recipe.script (counts.count handle) counts text
    | _ => .done counts Option.none

end TagTemplate
