import TagTemplate.Proofs.Engine.Mirror
import TagTemplate.Proofs.Engine.Transparency
import TagTemplate.Proofs.Escape

/-!
# Numbers and the escaping

A number goes unescaped unless there is an escaping of its own. Main statement:
`number_shortcut_unseen`, a caller who asks for the HTML escaping of every value, numbers too, gets
the same replies, and the same calls of callables, as one who leaves the choice to the engine.
-/

namespace TagTemplate

/-- The same options with the HTML escaping as an escaping of its own, unless there is one. -/
def Options.escapingAll (o : Options) : Options :=
  { o with escape := some (o.escape.getD escapeHtml) }

theorem Options.escapedText_escapingAll (o : Options) (v : Value) :
    o.escapingAll.escapedText v = o.escapedText v := by
  cases hescape : o.escape with
  | some escape =>
    rw [escapedText, escapedText, escapingAll, hescape]
    rfl
  | none =>
    rw [o.escapedText_eq hescape, escapedText, plainText, escapingAll, hescape]
    split
    · rfl
    · rfl

section

variable {σ : Type}

def Setup.escapingAll (s : Setup σ) : Setup σ := { s with options := s.options.escapingAll }

variable (s : Setup σ) (render : Nat → String → RenderM σ String) (body : BlockText)

mutual

/-- Only what is written for a value could differ, and that does not. -/
theorem write_escapingAll (depth : Nat) (n : Node) :
    n.write s.escapingAll render body depth = n.write s render body depth :=
  match n with
  | .text .. => by rw [Node.write, Node.write]
  | .unescaped .. | .inclusion .. => by
    rw [Node.write, Node.write]
    rfl
  | .escaped key _ _ => by
    rw [Node.write, Node.write]
    show (s.lookup key >>= fun v => pure (s.options.escapingAll.escapedText v)) = _
    simp only [Options.escapedText_escapingAll]
  | .block key _ bodyStart children bodyStop => by
    have hchildren (depth : Nat) := writeNodes_escapingAll depth children
    rw [Node.write, Node.write]
    simp only [hchildren]
    rfl
  | .inverted key _ _ children _ => by
    have hchildren := writeNodes_escapingAll depth children
    rw [Node.write, Node.write]
    simp only [hchildren]
    rfl

theorem writeNodes_escapingAll (depth : Nat) (ns : List Node) :
    writeNodes s.escapingAll render body depth ns = writeNodes s render body depth ns :=
  match ns with
  | [] => rfl
  | n :: ns => by
    rw [writeNodes, writeNodes, write_escapingAll depth n, writeNodes_escapingAll depth ns]

end

/-- Templates within templates are escaped in the same way. -/
theorem renderAt_escapingAll (budget depth : Nat) (template : String) :
    s.escapingAll.renderAt budget depth template = s.renderAt budget depth template := by
  induction budget generalizing depth template with
  | zero => rfl
  | succ budget ih =>
    have hrender : s.escapingAll.renderAt budget = s.renderAt budget :=
      funext fun depth => funext fun template => ih depth template
    rw [Setup.renderAt, Setup.renderAt, hrender]
    simp only [writeNodes_escapingAll]
    rfl

theorem renderTree_escapingAll (budget : Nat) (nodes : List Node) (source : Option String) :
    s.escapingAll.renderTree budget nodes source = s.renderTree budget nodes source := by
  have hrender : s.escapingAll.renderAt budget = s.renderAt budget :=
    funext fun depth => funext fun template => renderAt_escapingAll s budget depth template
  rw [Setup.renderTree, Setup.renderTree, hrender, writeNodes_escapingAll]

/-! ## Calls -/

/-- The same call with the HTML escaping asked for, unless it comes with an escaping. -/
def Call.escapingAll : Call → Call
  | .render template view inclusions options =>
    .render template view inclusions options.escapingAll
  | .renderIn template place inclusions options =>
    .renderIn template place inclusions options.escapingAll
  | .renderTree nodes source view inclusions options =>
    .renderTree nodes source view inclusions options.escapingAll
  | .read template delimiters => .read template delimiters
  | .clear => .clear

theorem answer_escapingAll (e : Engine) (budget : Nat) (callables : Callables σ)
    (session : Session σ) (call : Call) :
    e.answer budget callables session call.escapingAll =
      e.answer budget callables session call := by
  cases call with
  | read | clear => rfl
  | render template view inclusions options =>
    let s : Setup σ := { engine := e, options, inclusions, callables }
    show (session.renderIn _ (s.escapingAll.renderAt budget 0 template)).map _ =
      (session.renderIn _ (s.renderAt budget 0 template)).map _
    rw [renderAt_escapingAll]
  | renderIn template place inclusions options =>
    let s : Setup σ := { engine := e, options, inclusions, callables }
    show (session.renderIn _ (s.escapingAll.renderAt budget 0 template)).map _ =
      (session.renderIn _ (s.renderAt budget 0 template)).map _
    rw [renderAt_escapingAll]
  | renderTree nodes source view inclusions options =>
    let s : Setup σ := { engine := e, options, inclusions, callables }
    show (session.renderIn _ (s.escapingAll.renderTree budget nodes source)).map _ =
      (session.renderIn _ (s.renderTree budget nodes source)).map _
    rw [renderTree_escapingAll]

/-- That numbers bypass the escaping cannot be seen. Calls in which every value is to be escaped,
numbers too, are answered like the same calls as they are, and leave the same memory, trees and
scopes; for no text of a number has a character that escaping replaces. -/
theorem number_shortcut_unseen (e : Engine) (budget : Nat) (callables : Callables σ)
    (session : Session σ) (calls : List Call) :
    e.answerAll budget callables session (calls.map .escapingAll) =
        e.answerAll budget callables session calls ∧
      ∀ v : Value, v.isNumber = true → ∀ c ∈ v.display.toList, c ∉ '&' :: markupChars := by
  constructor
  · induction calls generalizing session with
    | nil => rfl
    | cons call calls ih =>
      rw [List.map_cons, Engine.answerAll, Engine.answerAll, answer_escapingAll]
      simp only [ih]
  · intro v hnumber c hc
    exact entity?_eq_none_iff.1 (Value.unmarked_display hnumber c hc)

end

/-- A text that is escaped, among numbers of every form. -/
def formsCalls : List Call :=
  [.render "\x7b\x7bi\x7d\x7d \x7b\x7bx\x7d\x7d \x7b\x7bn\x7d\x7d \x7b\x7bm\x7d\x7d \x7b\x7bs\x7d\x7d"
    (.object [("i", .int (-7)), ("x", .float (.ofDecimal false 1 1 21)), ("n", .float .nan),
      ("m", .float (.infinity true)), ("s", .string "<=")]) none {}]

theorem number_shortcut_unseen_forms :
    ((({} : Engine).answerAll 1 Callables.none (.fresh () fun _ => .root .null)
        (formsCalls.map .escapingAll)).map fun run => run.1.map replyText?) =
      some [some "-7 1e+21 NaN -Infinity &lt;&#x3D;"] ∧
    ∀ c ∈ (Value.float (.infinity true)).display.toList, c ∉ '&' :: markupChars := by
  obtain ⟨hreplies, hforms⟩ := number_shortcut_unseen {} 1 Callables.none
    (.fresh () fun _ => .root .null) formsCalls
  refine ⟨?_, hforms _ rfl⟩
  rw [hreplies]
  decide +kernel

end TagTemplate
