import TagTemplate.Fault
import TagTemplate.Value.Basic

/-!
# Callables

What the callables of a view do. They share a memory, so what one does may depend on earlier
calls. A transformer may ask for templates to be rendered where it stands; its work is a script of
such requests.
-/

namespace TagTemplate

/-- The work of a transformer, from here to its end. -/
inductive Script (σ : Type) where
  /-- Ends with a text to write, or with nothing. -/
  | done (memory : σ) (output : Option String)
  /-- Ends the whole rendering. -/
  | fail (memory : σ) (fault : Fault)
  /-- Has a template rendered, and goes on with the outcome. -/
  | render (memory : σ) (template : String) (next : σ → Except Fault String → Script σ)

/-- The callables of a run, by handle, and the memory they share. -/
structure Callables (σ : Type) where
  /-- The value of a getter for a receiver. -/
  get : Handle → σ → Value → Value × σ
  /-- The work of a transformer on the text of a block. -/
  transform : Handle → σ → String → Script σ

/-- No callables: a getter yields null, and a transformer writes nothing. -/
def Callables.none : Callables Unit where
  get _ _ _ := (.null, ())
  transform _ _ _ := .done () Option.none

end TagTemplate
