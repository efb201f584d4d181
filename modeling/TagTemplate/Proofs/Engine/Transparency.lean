import TagTemplate.Proofs.Engine.Record

/-!
# Kept trees go unseen

Two sessions side by side, call by call. Main statement: `kept_trees_unseen`, an engine that keeps
trees replies to every sequence of calls as one that reads each template anew, calls the same
callables in the same order, and has only trees on its shelf that their templates say.
-/

namespace TagTemplate

/-- Two replies that are the same, trees by their nodes. -/
def Reply.Same : Reply → Reply → Prop
  | .tree a, .tree b => a.nodes = b.nodes
  | .text a, .text b => a = b
  | .done, .done => True
  | _, _ => False

/-- Two results of a call that are the same. -/
def SameReply : Except Fault Reply → Except Fault Reply → Prop
  | .ok a, .ok b => a.Same b
  | .error fault, .error fault' => fault = fault'
  | _, _ => False

namespace Coupling

variable {σ₁ σ₂ : Type}

/-- Two sessions that differ in their memories and shelves only. -/
structure Sessions (C : Coupling σ₁ σ₂) (a : Session σ₁) (b : Session σ₂) : Prop where
  memory : C.memories a.memory b.memory
  scopes : a.scopes = b.scopes
  shelf : C.shelves a.shelf b.shelf
  sound₁ : a.shelf.Sound
  sound₂ : b.shelf.Sound

/-- Two results of a call that are the same, with sessions to go on with. -/
abbrev Replies (C : Coupling σ₁ σ₂) :
    Option (Except Fault Reply × Session σ₁) → Option (Except Fault Reply × Session σ₂) → Prop :=
  SameOutcome C.Sessions (fun fault a b => C.faults fault a.memory b.memory) Reply.Same

/-- Two results of a rendering in a session, each with the session and the scope to go on with. -/
abbrev Renderings (C : Coupling σ₁ σ₂) :
    Option (Except Fault String × Session σ₁ × Scope) →
      Option (Except Fault String × Session σ₂ × Scope) → Prop :=
  SameOutcome (fun a b => C.Sessions a.1 b.1 ∧ a.2 = b.2)
    (fun fault a b => C.faults fault a.1.memory b.1.memory) Eq

variable {C : Coupling σ₁ σ₂} {a : Session σ₁} {b : Session σ₂}

/-- Renderings that are the same leave sessions that are. -/
theorem Sessions.renderIn (h : C.Sessions a b) {m₁ : RenderM σ₁ String} {m₂ : RenderM σ₂ String}
    (hm : C.Related Eq m₁ m₂) (scope : Scope) :
    C.Renderings (a.renderIn scope m₁) (b.renderIn scope m₂) := by
  have hrun := hm ⟨a.memory, a.shelf, scope⟩ ⟨b.memory, b.shelf, scope⟩
    ⟨h.memory, rfl, h.shelf, h.sound₁, h.sound₂⟩
  rw [Session.renderIn, Session.renderIn]
  generalize m₁.run ⟨a.memory, a.shelf, scope⟩ = o₁, m₂.run ⟨b.memory, b.shelf, scope⟩ = o₂ at hrun
  -- the scopes kept for later calls are out of reach
  have hafter {r₁ : Run σ₁} {r₂ : Run σ₂} (hr : C.Runs r₁ r₂) :
      C.Sessions { a with memory := r₁.memory, shelf := r₁.shelf }
        { b with memory := r₂.memory, shelf := r₂.shelf } ∧ r₁.scope = r₂.scope :=
    ⟨⟨hr.memory, h.scopes, hr.shelf, hr.sound₁, hr.sound₂⟩, hr.scope⟩
  cases hrun with
  | none => exact .none
  | ok hv hr => exact .ok hv (hafter hr)
  | error hfault hr => exact .error hfault (hafter hr)

theorem Sessions.keepScope (h : C.Sessions a b) (place : Nat) (scope : Scope) :
    C.Sessions (a.keepScope place scope) (b.keepScope place scope) := by
  refine ⟨h.memory, ?_, h.shelf, h.sound₁, h.sound₂⟩
  rw [Session.keepScope, Session.keepScope, h.scopes]

/-- Renderings that are the same make replies that are. -/
theorem Renderings.reply {o₁ : Option (Except Fault String × Session σ₁ × Scope)}
    {o₂ : Option (Except Fault String × Session σ₂ × Scope)} (h : C.Renderings o₁ o₂)
    {keep₁ : Session σ₁ → Scope → Session σ₁} {keep₂ : Session σ₂ → Scope → Session σ₂}
    (hkeep : ∀ a b scope, C.Sessions a b → C.Sessions (keep₁ a scope) (keep₂ b scope))
    (hmemory₁ : ∀ a scope, (keep₁ a scope).memory = a.memory)
    (hmemory₂ : ∀ b scope, (keep₂ b scope).memory = b.memory) :
    C.Replies (o₁.map fun (result, session, scope) => (result.map .text, keep₁ session scope))
      (o₂.map fun (result, session, scope) => (result.map .text, keep₂ session scope)) := by
  cases h with
  | none => exact .none
  | ok hv hr =>
    obtain ⟨hsessions, hscope⟩ := hr
    exact .ok hv (hscope ▸ hkeep _ _ _ hsessions)
  | error hfault hr =>
    obtain ⟨hsessions, hscope⟩ := hr
    refine .error ?_ (hscope ▸ hkeep _ _ _ hsessions)
    rw [hmemory₁, hmemory₂]
    exact hfault

end Coupling

/-! ## Engines that keep trees and engines that do not -/

/-- Two runs with the same memory, whatever is on their shelves. -/
abbrev unshelved (σ : Type) : Coupling σ σ := .beside σ fun _ _ => True

namespace unshelved

variable {σ : Type} {e₁ e₂ : Engine}

/-- Two engines with the same delimiters fit. -/
theorem fits (hd : e₁.delimiters = e₂.delimiters) (callables : Callables σ) (options : Options)
    (inclusions : Option Inclusions) :
    (unshelved σ).Fits { engine := e₁, options, inclusions, callables }
      { engine := e₂, options, inclusions, callables } where
  options := rfl
  inclusions := rfl
  delimiters := hd
  calls := Coupling.beside_sameCalls callables
  ordinary _ _ _ _ _ := trivial
  read _ _ _ _ := trivial
  ask _ _ _ _ := trivial

section

variable (hd : e₁.delimiters = e₂.delimiters) (callables : Callables σ) (options : Options)
  (inclusions : Option Inclusions)

include hd

theorem render (budget depth : Nat) (template : String) : (unshelved σ).Related Eq
    (Setup.renderAt { engine := e₁, options, inclusions, callables } budget depth template)
    (Setup.renderAt { engine := e₂, options, inclusions, callables } budget depth template) := by
  rw [Setup.renderAt_eq, Setup.renderAt_eq]
  exact (fits hd callables options inclusions).renderWith
    (fun _ _ _ => Coupling.beside_sameBody _ _) budget depth template

theorem renderTree (budget : Nat) (nodes : List Node) (source : Option String) :
    (unshelved σ).Related Eq
      (Setup.renderTree { engine := e₁, options, inclusions, callables } budget nodes source)
      (Setup.renderTree { engine := e₂, options, inclusions, callables } budget nodes source) :=
  (fits hd callables options inclusions).writeNodes (render hd callables options inclusions budget)
    0 nodes (Coupling.beside_sameBody _ _)

end

theorem answer (hd : e₁.delimiters = e₂.delimiters) (callables : Callables σ) (budget : Nat)
    {a b : Session σ} (h : (unshelved σ).Sessions a b) (call : Call) :
    (unshelved σ).Replies (e₁.answer budget callables a call)
      (e₂.answer budget callables b call) := by
  cases call with
  | read template delimiters =>
    have hsound₁ := (e₁.read_spec delimiters template h.sound₁).2
    have hsound₂ := (e₂.read_spec delimiters template h.sound₂).2
    have hsame := Engine.read_same hd delimiters template h.sound₁ h.sound₂
    rw [Engine.answer, Engine.answer]
    generalize e₁.read delimiters template a.shelf = read₁ at *
    generalize e₂.read delimiters template b.shelf = read₂ at *
    obtain ⟨result₁, shelf₁⟩ := read₁
    obtain ⟨result₂, shelf₂⟩ := read₂
    obtain ⟨fault, rfl, rfl, -⟩ | ⟨tree₁, tree₂, rfl, rfl, hnodes, -⟩ := hsame
    · exact .error trivial ⟨h.memory, h.scopes, trivial, hsound₁, hsound₂⟩
    · exact .ok hnodes ⟨h.memory, h.scopes, trivial, hsound₁, hsound₂⟩
  | render template view inclusions options =>
    exact (h.renderIn (render hd callables options inclusions budget 0 template) _).reply
      (fun _ _ _ h => h) (fun _ _ => rfl) (fun _ _ => rfl)
  | renderIn template place inclusions options =>
    have hrun := h.renderIn (render hd callables options inclusions budget 0 template)
      (a.scopes place)
    rw [Engine.answer, Engine.answer, ← h.scopes]
    exact hrun.reply (fun _ _ scope h => h.keepScope place scope) (fun _ _ => rfl) (fun _ _ => rfl)
  | renderTree nodes source view inclusions options =>
    exact (h.renderIn (renderTree hd callables options inclusions budget nodes source) _).reply
      (fun _ _ _ h => h) (fun _ _ => rfl) (fun _ _ => rfl)
  | clear =>
    exact .ok trivial
      ⟨h.memory, h.scopes, trivial, e₁.clear_sound h.sound₁, e₂.clear_sound h.sound₂⟩

end unshelved

/-- Two runs of calls that are the same: the same replies, and the same memory and scopes to go on
with. The first one has a sound shelf then. -/
inductive SameRuns {σ : Type} : Option (List (Except Fault Reply) × Session σ) →
    Option (List (Except Fault Reply) × Session σ) → Prop
  | none : SameRuns none none
  | some {replies₁ replies₂ : List (Except Fault Reply)} {a b : Session σ} :
      List.Forall₂ SameReply replies₁ replies₂ → a.memory = b.memory → a.scopes = b.scopes →
      a.shelf.Sound → SameRuns (some (replies₁, a)) (some (replies₂, b))

theorem SameRuns.cons {σ : Type} {reply₁ reply₂ : Except Fault Reply}
    (hreply : SameReply reply₁ reply₂)
    {o₁ o₂ : Option (List (Except Fault Reply) × Session σ)} (h : SameRuns o₁ o₂) :
    SameRuns (o₁.map fun (replies, session) => (reply₁ :: replies, session))
      (o₂.map fun (replies, session) => (reply₂ :: replies, session)) := by
  cases h with
  | none => exact .none
  | some hreplies hmemory hscopes hsound =>
    exact .some (.cons hreply hreplies) hmemory hscopes hsound

/-- Sessions that differ in their shelves only stay so, call by call. -/
theorem unshelved.answerAll {σ : Type} {e₁ e₂ : Engine} (hd : e₁.delimiters = e₂.delimiters)
    (callables : Callables σ) (budget : Nat) (calls : List Call) {a b : Session σ}
    (h : (unshelved σ).Sessions a b) :
    SameRuns (e₁.answerAll budget callables a calls) (e₂.answerAll budget callables b calls) := by
  -- the sessions after a call are related again, whatever the reply
  induction calls generalizing a b with
  | nil => exact .some .nil h.memory h.scopes h.sound₁
  | cons call calls ih =>
    have hreply := unshelved.answer hd callables budget h call
    rw [Engine.answerAll, Engine.answerAll]
    generalize e₁.answer budget callables a call = o₁, e₂.answer budget callables b call = o₂
      at hreply
    cases hreply with
    | none => exact .none
    | ok hsame hnext => exact .cons (show SameReply (.ok _) (.ok _) from hsame) (ih hnext)
    | error _ hnext => exact .cons (show SameReply (.error _) (.error _) from rfl) (ih hnext)

/-- A session before any call, with the scopes that the caller brings. -/
def Session.fresh {σ : Type} (memory : σ) (scopes : Nat → Scope) : Session σ := { memory, scopes }

/-- Keeping trees changes no reply to any sequence of calls, and no call of a callable: neither with
the callables as they are nor with a record of what they are called with. All the while the trees
kept are those that their templates say. -/
theorem kept_trees_unseen {σ : Type} (d : Delimiters) (callables : Callables σ) (budget : Nat)
    (memory : σ) (scopes : Nat → Scope) (calls : List Call) :
    SameRuns
      (({ delimiters := d, keepsTrees := true } : Engine).answerAll budget callables
        (.fresh memory scopes) calls)
      (({ delimiters := d, keepsTrees := false } : Engine).answerAll budget callables
        (.fresh memory scopes) calls) ∧
    SameRuns
      (({ delimiters := d, keepsTrees := true } : Engine).answerAll budget callables.recorded
        (.fresh (memory, []) scopes) calls)
      (({ delimiters := d, keepsTrees := false } : Engine).answerAll budget callables.recorded
        (.fresh (memory, []) scopes) calls) := by
  constructor
  · refine unshelved.answerAll ?_ callables budget calls
      ⟨rfl, rfl, trivial, Shelf.sound_empty, Shelf.sound_empty⟩
    rfl
  · refine unshelved.answerAll ?_ callables.recorded budget calls
      ⟨rfl, rfl, trivial, Shelf.sound_empty, Shelf.sound_empty⟩
    rfl

end TagTemplate
