import TagTemplate.Engine.Render
import TagTemplate.Proofs.Scope

/-!
# Plain rendering

Rendering with nothing remembered on the way: names are sought anew each time among the views of a
place, and every template is read anew. What goes on is the memory of the callables, and a list of
the names that inclusions were asked for.
-/

namespace TagTemplate

/-- What changes during a plain rendering. -/
structure Course (σ : Type) where
  memory : σ
  /-- The names of the inclusions asked for, latest first. -/
  asked : List String := []

/-- A part of a plain rendering. -/
abbrev PlainM (σ : Type) := ExceptT Fault (StateT (Course σ) Option)

section

variable {σ : Type}

/-- What a name denotes here, a getter being asked with the view of the place. -/
def Setup.seek (s : Setup σ) (here : Standpoint) (name : String) : PlainM σ Value := do
  match here.find name with
  | .getter handle =>
    let course ← get
    let (value, memory) := s.callables.get handle course.memory here.view
    set { course with memory }
    return value
  | found => return found

def PlainM.lift {α : Type} : Except Fault α → PlainM σ α
  | .ok a => pure a
  | .error fault => throw fault

/-- The budget is used up: there is no outcome. -/
def PlainM.exhausted {α : Type} : PlainM σ α := ExceptT.mk fun _ => none

def PlainM.each {α : Type} (write : α → PlainM σ String) : List α → PlainM σ String
  | [] => return ""
  | x :: xs => do
    let first ← write x
    let rest ← PlainM.each write xs
    return first ++ rest

/-- Does the work of a transformer; `render` renders a template where it stands. -/
def Script.performPlainly (render : String → PlainM σ String) : Script σ → PlainM σ String
  | .done memory output => do
    modify fun course => { course with memory }
    return output.getD ""
  | .fail memory fault => do
    modify fun course => { course with memory }
    throw fault
  | .render memory template next => do
    modify fun course => { course with memory }
    let outcome ← tryCatch (Except.ok <$> render template) (fun fault => pure (.error fault))
    (next (← get).memory outcome).performPlainly render

/-- Asks for a text to include. -/
def Setup.ask (s : Setup σ) (name : String) : PlainM σ (Option String) :=
  match s.inclusions with
  | none => return none
  | some inclusions => do
    modify fun course => { course with asked := name :: course.asked }
    return inclusions name

/-- The delimiters in force at the start of every template. -/
def Setup.delimiters (s : Setup σ) : Delimiters := s.options.delimiters.getD s.engine.delimiters

mutual

/-- The text of a node, written plainly. -/
def Node.writePlainly (s : Setup σ) (render : Standpoint → Nat → String → PlainM σ String)
    (body : BlockText) (depth : Nat) (here : Standpoint) : Node → PlainM σ String
  | .text text _ _ => return text
  | .escaped key _ _ => do return s.options.escapedText (← s.seek here key)
  | .unescaped key _ _ => do return Options.plainText (← s.seek here key)
  | .block key _ bodyStart children bodyStop => do
    let value ← s.seek here key
    if !value.isTruthy then return ""
    match value with
    | .array items =>
      let depth ← PlainM.lift (s.options.descend depth)
      PlainM.each (fun item => writePlainly s render body depth (here.push item) children) items
    | .object _ | .string _ | .int _ | .float _ =>
      let depth ← PlainM.lift (s.options.descend depth)
      writePlainly s render body depth (here.push value) children
    | .transformer handle =>
      let text ← PlainM.lift (body key bodyStart bodyStop)
      (s.callables.transform handle (← get).memory text).performPlainly (render here depth)
    | _ => writePlainly s render body depth here children
  | .inverted key _ _ children _ => do
    let value ← s.seek here key
    if !value.isTruthy || (value matches .array []) then
      writePlainly s render body depth here children
    else return ""
  | .inclusion key _ _ margin => do
    match ← s.ask key with
    | none => return ""
    | some text =>
      let depth ← PlainM.lift (s.options.descend depth)
      render here depth (includedText margin text)

def writePlainly (s : Setup σ) (render : Standpoint → Nat → String → PlainM σ String)
    (body : BlockText) (depth : Nat) (here : Standpoint) : List Node → PlainM σ String
  | [] => return ""
  | n :: ns => do
    let first ← n.writePlainly s render body depth here
    let rest ← writePlainly s render body depth here ns
    return first ++ rest

end

/-- The text of a template at a place and a depth, rendered plainly. -/
def Setup.renderPlainly (s : Setup σ) (budget : Nat) (here : Standpoint) (depth : Nat)
    (template : String) : PlainM σ String :=
  match budget with
  | 0 => .exhausted
  | budget + 1 => do
    let nodes ← PlainM.lift (parse s.delimiters template)
    writePlainly s (s.renderPlainly budget) (blockText (some template)) depth here nodes

/-! ## Running a part of a plain rendering -/

namespace PlainM

variable {α β : Type}

theorem run_bind (p : PlainM σ α) (f : α → PlainM σ β) (c : Course σ) :
    (p >>= f).run c = match p.run c with
      | none => none
      | some (.error fault, c) => some (.error fault, c)
      | some (.ok a, c) => (f a).run c := by
  show Option.bind (p.run c) _ = _
  rcases p.run c with _ | ⟨_ | _, c⟩ <;> rfl

theorem run_lift (x : Except Fault α) (c : Course σ) :
    (PlainM.lift x : PlainM σ α).run c = some (x, c) := by
  cases x <;> rfl

/-- Every result that a part gives has a property. -/
def Gives (V : α → Prop) (p : PlainM σ α) : Prop :=
  ∀ ⦃c a c'⦄, p.run c = some (.ok a, c') → V a

namespace Gives

variable {V : α → Prop} {W : β → Prop}

theorem pure {a : α} (h : V a) : Gives V (Pure.pure a : PlainM σ α) := by
  intro c a' c' hrun
  cases hrun
  exact h

theorem bind {p : PlainM σ α} {f : α → PlainM σ β} (hp : Gives V p)
    (hf : ∀ a, V a → Gives W (f a)) : Gives W (p >>= f) := by
  intro c b c' hrun
  rw [run_bind] at hrun
  split at hrun
  · cases hrun
  · cases hrun
  · next hfirst => exact hf _ (hp hfirst) hrun

theorem lift {x : Except Fault α} (h : ∀ a, x = .ok a → V a) :
    Gives V (PlainM.lift x : PlainM σ α) := by
  intro c a c' hrun
  rw [run_lift] at hrun
  exact h a (Prod.mk.inj (Option.some.inj hrun)).1

theorem exhausted : Gives V (PlainM.exhausted : PlainM σ α) :=
  fun _ _ _ hrun => nomatch hrun

/-- After something that may give anything. -/
theorem after {p : PlainM σ α} {f : α → PlainM σ β} (hf : ∀ a, Gives W (f a)) :
    Gives W (p >>= f) :=
  bind (V := fun _ => True) (fun _ _ _ _ => trivial) fun a _ => hf a

end Gives

theorem run_perform_render (render : String → PlainM σ String) (memory : σ) (template : String)
    (next : σ → Except Fault String → Script σ) (c : Course σ) :
    ((Script.render memory template next).performPlainly render).run c =
      match (render template).run { c with memory } with
      | none => none
      | some (outcome, c) => ((next c.memory outcome).performPlainly render).run c := by
  show Option.bind (Option.bind (Option.bind ((render template).run { c with memory }) _) _) _ = _
  rcases (render template).run { c with memory } with _ | ⟨_ | _, c⟩ <;> rfl

end PlainM

theorem Setup.run_seek (s : Setup σ) (here : Standpoint) (name : String) (c : Course σ) :
    (s.seek here name).run c =
      match here.find name with
      | .getter handle =>
        some (.ok (s.callables.get handle c.memory here.view).1,
          { c with memory := (s.callables.get handle c.memory here.view).2 })
      | found => some (.ok found, c) := by
  rw [Setup.seek]
  split <;> rfl

/-! ## What a lookup yields -/

/-- Looking a name up at a place yields what the name denotes there. If this is a getter, it is
asked once, for the view of the place, and what it gives is the result as it is. -/
inductive Standpoint.Yields (here : Standpoint) (callables : Callables σ) (name : String)
    (memory : σ) : Value → σ → Prop
  | value {w : Value} : here.Denotes name w → (∀ handle, w ≠ .getter handle) →
      Yields here callables name memory w memory
  | getter {handle : Handle} : here.Denotes name (.getter handle) →
      Yields here callables name memory (callables.get handle memory here.view).1
        (callables.get handle memory here.view).2

theorem run_seek_iff {s : Setup σ} {here : Standpoint} {name : String} {c c' : Course σ}
    {result : Except Fault Value} :
    (s.seek here name).run c = some (result, c') ↔
      ∃ w, result = .ok w ∧ here.Yields s.callables name c.memory w c'.memory ∧
        c'.asked = c.asked := by
  rw [Setup.run_seek]
  constructor
  · intro h
    split at h
    · next handle hfound =>
      cases h
      exact ⟨_, rfl, .getter (Standpoint.find_iff.1 hfound), rfl⟩
    · next hother =>
      cases h
      exact ⟨_, rfl, .value (Standpoint.find_iff.1 rfl) hother, rfl⟩
  · rintro ⟨w, rfl, hyields, hasked⟩
    obtain ⟨memory, asked⟩ := c
    obtain ⟨memory', asked'⟩ := c'
    cases hasked
    cases hyields with
    | value hdenotes hother =>
      rw [Standpoint.find_iff.2 hdenotes]
      cases w with
      | getter handle => exact absurd rfl (hother handle)
      | _ => rfl
    | getter hdenotes => rw [Standpoint.find_iff.2 hdenotes]

/-- A name may have a value here: it yields the value, some memory being at hand. -/
def Setup.Finds (s : Setup σ) (here : Standpoint) (name : String) (v : Value) : Prop :=
  ∃ memory memory', here.Yields s.callables name memory v memory'

theorem Setup.finds_of_run {s : Setup σ} {here : Standpoint} {name : String} {v : Value}
    {c c' : Course σ} (h : (s.seek here name).run c = some (.ok v, c')) : s.Finds here name v := by
  obtain ⟨w, hw, hyields, -⟩ := run_seek_iff.1 h
  cases hw
  exact ⟨c.memory, c'.memory, hyields⟩

end

end TagTemplate
