import TagTemplate.Proofs.Engine.Plain

/-!
# What a view offers

All values that a rendering can come upon with a view, whatever the names in its templates. Main
statement: `Offering.seek`, what a name denotes at a place whose views are offered is offered, also
if a getter was asked for it.
-/

namespace TagTemplate

section

variable {σ : Type}

/-- A view offers itself, its parts, and what its getters answer when they are asked with values
that it offers. -/
inductive Value.Offers (callables : Callables σ) (view : Value) : Value → Prop
  | self : Offers callables view view
  | nothing : Offers callables view .null
  | part {key : String} {v w : Value} :
      Offers callables view v → HasEnd key v w → Offers callables view w
  | item {items : List Value} {item : Value} :
      Offers callables view (.array items) → item ∈ items → Offers callables view item
  | answer {handle : Handle} {receiver : Value} (memory : σ) :
      Offers callables view (.getter handle) → Offers callables view receiver →
      Offers callables view (callables.get handle memory receiver).1

namespace Value

variable {callables : Callables σ} {view : Value}

/-- No transformer is offered. -/
def OffersNoTransformer (callables : Callables σ) (view : Value) : Prop :=
  ∀ handle, ¬view.Offers callables (.transformer handle)

/-- An answer depends on the receiver only, if the view offers both getter and receiver. -/
def OffersPureGetters (callables : Callables σ) (view : Value) : Prop :=
  ∀ handle receiver, view.Offers callables (.getter handle) → view.Offers callables receiver →
    ∀ memory memory', (callables.get handle memory receiver).1 =
      (callables.get handle memory' receiver).1

theorem Offers.inherited : Inherited (view.Offers callables) := ⟨.nothing, .part⟩

/-! ## Views without transformers -/

/-- No transformer stands anywhere in the value. -/
inductive TransformerFree : Value → Prop
  | null : TransformerFree .null
  | bool (b : Bool) : TransformerFree (.bool b)
  | int (n : Int64) : TransformerFree (.int n)
  | float (x : Binary64) : TransformerFree (.float x)
  | string (s : String) : TransformerFree (.string s)
  | array {items : List Value} :
      (∀ item ∈ items, TransformerFree item) → TransformerFree (.array items)
  | object {fields : List (String × Value)} :
      (∀ field ∈ fields, TransformerFree field.2) → TransformerFree (.object fields)
  | getter (handle : Handle) : TransformerFree (.getter handle)

theorem TransformerFree.hasEnd {key : String} {v w : Value} (h : v.TransformerFree)
    (hend : HasEnd key v w) : w.TransformerFree := by
  obtain ⟨⟨hfield | ⟨-, -, hitem⟩⟩ | -⟩ | - | - := hend
  · cases h with
    | object hfields =>
      obtain ⟨entry, found, rfl⟩ := Option.map_eq_some_iff.1 hfield
      exact hfields entry (List.mem_of_find?_eq_some found)
  · cases h with
    | array hitems => exact hitems _ (List.mem_of_getElem? hitem)
  · exact .int _
  · exact .int _
  · exact .string _

/-- Nothing with a transformer in it is offered if the view has none and no getter answers with
one. -/
theorem TransformerFree.offers (hview : view.TransformerFree)
    (hanswer : ∀ handle memory receiver, (callables.get handle memory receiver).1.TransformerFree)
    {v : Value} (hv : view.Offers callables v) : v.TransformerFree := by
  induction hv with
  | self => exact hview
  | nothing => exact .null
  | part _ hend ih => exact ih.hasEnd hend
  | item _ hitem ih =>
    cases ih with
    | array hitems => exact hitems _ hitem
  | answer memory _ _ => exact hanswer _ memory _

theorem TransformerFree.offersNoTransformer (hview : view.TransformerFree)
    (hanswer : ∀ handle memory receiver, (callables.get handle memory receiver).1.TransformerFree) :
    view.OffersNoTransformer callables := by
  intro handle hhandle
  cases hview.offers hanswer hhandle

end Value

/-- All views of the place are offered. -/
def Standpoint.Offering (callables : Callables σ) (view : Value) (here : Standpoint) : Prop :=
  ∀ v ∈ here.views, view.Offers callables v

namespace Standpoint.Offering

variable {callables : Callables σ} {view : Value} {here : Standpoint}

theorem root : Offering callables view ⟨view, []⟩ := List.forall_mem_singleton.2 .self

theorem push (h : here.Offering callables view) {inner : Value}
    (hinner : view.Offers callables inner) : (here.push inner).Offering callables view :=
  List.forall_mem_cons.2 ⟨hinner, h⟩

theorem find (h : here.Offering callables view) (name : String) :
    view.Offers callables (here.find name) :=
  Value.Offers.inherited.find h name

/-- What a name denotes here is offered. -/
theorem seek {s : Setup σ} (h : here.Offering s.callables view) (name : String) :
    PlainM.Gives (view.Offers s.callables) (s.seek here name) := by
  have hfound := h.find name
  intro c v c' hrun
  rw [Setup.run_seek] at hrun
  split at hrun
  · next handle hgetter =>
    cases hrun
    rw [hgetter] at hfound
    exact .answer _ hfound (h _ List.mem_cons_self)
  · cases hrun
    exact hfound

/-- What a name yields here, whatever the memory, is offered. -/
theorem finds {s : Setup σ} (h : here.Offering s.callables view) {name : String} {v : Value}
    (hfinds : s.Finds here name v) : view.Offers s.callables v := by
  obtain ⟨memory, memory', hyields⟩ := hfinds
  have hrun : (s.seek here name).run ⟨memory, []⟩ = some (.ok v, ⟨memory', []⟩) :=
    run_seek_iff.2 ⟨v, rfl, hyields, rfl⟩
  exact h.seek name hrun

end Standpoint.Offering

end

end TagTemplate
