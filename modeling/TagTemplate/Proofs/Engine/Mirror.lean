import TagTemplate.Proofs.Engine.Coupling
import TagTemplate.Proofs.Engine.Discipline

/-!
# Memory goes unseen

A rendering beside the plain one. Main statement: `mirrors_renderAt`, in a faithful scope and with a
sound shelf, a rendering writes what the plain rendering writes at the same place, meets the same
fault, calls the same callables and asks for the same inclusions in the same order; and it leaves
the scope faithful and the shelf sound.
-/

namespace TagTemplate

/-- The names of the inclusions that were asked for, latest first. -/
def Shelf.askedNames (s : Shelf) : List String :=
  s.journal.filterMap fun
    | .asked name => some name
    | _ => none

/-- Reading a template asks for no inclusion. -/
theorem Engine.read_askedNames (e : Engine) (delimiters : Option Delimiters) (template : String)
    (s : Shelf) : (e.read delimiters template s).2.askedNames = s.askedNames := by
  cases hkeeps : e.keepsTrees with
  | false =>
    rw [read, if_neg (by rw [hkeeps]; exact Bool.false_ne_true), readAnew]
    cases parse (delimiters.getD e.delimiters) template <;> rfl
  | true =>
    have hreading := read_reading hkeeps delimiters template s
    generalize e.read delimiters template s = outcome at hreading ⊢
    cases hreading <;> rfl

section

variable {σ : Type}

/-- A run and the course of a plain rendering at a place. -/
structure Beside (here : Standpoint) (r : Run σ) (c : Course σ) : Prop where
  memory : r.memory = c.memory
  asked : r.shelf.askedNames = c.asked
  place : r.scope.standpoint = here
  faithful : r.scope.Faithful
  sound : r.shelf.Sound

/-- A part of a rendering does what a part of a plain rendering at a place does. -/
def Mirrors {α β : Type} (here : Standpoint) (V : α → β → Prop) (m : RenderM σ α)
    (p : PlainM σ β) : Prop :=
  ∀ r c, Beside here r c → SameOutcome (Beside here) (fun _ _ _ => True) V (m.run r) (p.run c)

theorem Beside.withMemory {here : Standpoint} {r : Run σ} {c : Course σ} (h : Beside here r c)
    (memory : σ) : Beside here { r with memory } { c with memory } :=
  ⟨rfl, h.asked, h.place, h.faithful, h.sound⟩

namespace Mirrors

variable {here : Standpoint} {α β γ δ : Type} {V : α → β → Prop} {W : γ → δ → Prop}

theorem pure {a : α} {b : β} (h : V a b) :
    Mirrors here V (pure a : RenderM σ α) (pure b : PlainM σ β) :=
  fun _ _ hrun => .ok h hrun

theorem bind {m : RenderM σ α} {p : PlainM σ β} {f : α → RenderM σ γ} {g : β → PlainM σ δ}
    (h : Mirrors here V m p) (hf : ∀ a b, V a b → Mirrors here W (f a) (g b)) :
    Mirrors here W (m >>= f) (p >>= g) := by
  intro r c hrun
  rw [RenderM.run_bind, PlainM.run_bind]
  have hfirst := h r c hrun
  generalize m.run r = o₁, p.run c = o₂ at hfirst
  cases hfirst with
  | none => exact .none
  | ok hv hrun' => exact hf _ _ hv _ _ hrun'
  | error _ hrun' => exact .error trivial hrun'

theorem bindEq {m : RenderM σ α} {p : PlainM σ α} {f : α → RenderM σ γ} {g : α → PlainM σ δ}
    (h : Mirrors here Eq m p) (hf : ∀ a, Mirrors here W (f a) (g a)) :
    Mirrors here W (m >>= f) (p >>= g) :=
  h.bind fun _ b hab => hab ▸ hf b

theorem lift (x : Except Fault α) :
    Mirrors here Eq (Setup.descend.liftExcept x : RenderM σ α) (PlainM.lift x) := by
  intro r c hrun
  rw [RenderM.run_liftExcept, PlainM.run_lift]
  cases x with
  | ok a => exact .ok rfl hrun
  | error fault => exact .error trivial hrun

theorem ite {q : Prop} [Decidable q] {m n : RenderM σ α} {p o : PlainM σ β}
    (hm : Mirrors here V m p) (hn : Mirrors here V n o) :
    Mirrors here V (if q then m else n) (if q then p else o) := by
  split
  · exact hm
  · exact hn

theorem exhausted : Mirrors here V (exhausted : RenderM σ α) (PlainM.exhausted : PlainM σ β) :=
  fun _ _ _ => .none

/-- A frame of its own is a place of its own; afterwards both are back where they were. -/
theorem inFrame {m : RenderM σ α} {p : PlainM σ β} {view : Value}
    (h : Mirrors (here.push view) V m p) : Mirrors here V (inFrame view m) p := by
  intro r c hrun
  have hplace : (r.scope.push view).standpoint = here.push view := by
    rw [← hrun.place]
    rfl
  have hinner := h { r with scope := r.scope.push view } c
    ⟨hrun.memory, hrun.asked, hplace, hrun.faithful.push view, hrun.sound⟩
  have hback {r' : Run σ} {c' : Course σ} (h : Beside (here.push view) r' c') :
      Beside here { r' with scope := r.scope } c' :=
    ⟨h.memory, h.asked, hrun.place, hrun.faithful, h.sound⟩
  show SameOutcome _ _ _ ((m.run { r with scope := r.scope.push view }).map _) _
  generalize m.run { r with scope := r.scope.push view } = o₁, p.run c = o₂ at hinner
  cases hinner with
  | none => exact .none
  | ok hv hafter => exact .ok hv (hback hafter)
  | error _ hafter => exact .error trivial (hback hafter)

theorem append {m n : RenderM σ String} {p o : PlainM σ String} (hm : Mirrors here Eq m p)
    (hn : Mirrors here Eq n o) :
    Mirrors here Eq (do let first ← m; let rest ← n; return first ++ rest)
      (do let first ← p; let rest ← o; return first ++ rest) :=
  hm.bindEq fun _ => hn.bindEq fun _ => .pure rfl

theorem each {ι : Type} {write : ι → RenderM σ String} {plain : ι → PlainM σ String}
    (h : ∀ x, Mirrors here Eq (write x) (plain x)) (xs : List ι) :
    Mirrors here Eq (writeEach write xs) (PlainM.each plain xs) := by
  induction xs with
  | nil => exact .pure rfl
  | cons x xs ih => exact (h x).append ih

theorem perform {render : String → RenderM σ String} {plain : String → PlainM σ String}
    (hrender : ∀ template, Mirrors here Eq (render template) (plain template)) (w : Script σ) :
    Mirrors here Eq (w.perform render) (w.performPlainly plain) := by
  -- the outcome of a template goes to the next step of the script, a fault too
  induction w with
  | done memory output => exact fun r c hrun => .ok rfl (hrun.withMemory memory)
  | fail memory fault => exact fun r c hrun => .error trivial (hrun.withMemory memory)
  | render memory template next ih =>
    intro r c hrun
    have hinner := hrender template _ _ (hrun.withMemory memory)
    rw [RenderM.run_perform_render, PlainM.run_perform_render]
    generalize (render template).run { r with memory } = o₁,
      (plain template).run { c with memory } = o₂ at hinner
    cases hinner with
    | none => exact .none
    | ok hv hafter =>
      simp only [hv, hafter.memory]
      exact ih _ _ _ _ hafter
    | error _ hafter =>
      simp only [hafter.memory]
      exact ih _ _ _ _ hafter

end Mirrors

variable {here : Standpoint} (s : Setup σ)

/-- A name denotes in a faithful scope what it denotes at its place, and a getter that is found is
asked with the view of the place. -/
theorem mirrors_lookup (name : String) :
    Mirrors here Eq (s.lookup name) (s.seek here name) := by
  intro r c hrun
  obtain ⟨hfound, hfaithful, hplace⟩ := hrun.faithful.find name
  rw [hrun.place] at hfound hplace
  have hview : (r.scope.find name).2.view = here.view := by
    rw [← hplace]
    rfl
  have hafter : Beside here { r with scope := (r.scope.find name).2 } c :=
    ⟨hrun.memory, hrun.asked, hplace, hfaithful, hrun.sound⟩
  rw [RenderM.run_lookup, Setup.run_seek, hfound, hview, hrun.memory]
  cases here.find name with
  | getter handle => exact .ok rfl (hafter.withMemory _)
  | _ => exact .ok rfl (hrun.memory ▸ hafter)

/-- The tree of a template is what its text says, whether it is kept or read anew. -/
theorem mirrors_tree (template : String) :
    Mirrors here (fun tree nodes => tree.nodes = nodes) (s.tree template)
      (PlainM.lift (parse s.delimiters template)) := by
  intro r c hrun
  obtain ⟨hparse, hsound⟩ := s.engine.read_spec s.options.delimiters template hrun.sound
  have hasked := s.engine.read_askedNames s.options.delimiters template r.shelf
  rw [RenderM.run_tree, PlainM.run_lift, Setup.delimiters, ← hparse]
  generalize s.engine.read s.options.delimiters template r.shelf = read at *
  obtain ⟨result, shelf⟩ := read
  have hafter : Beside here { r with shelf } c :=
    ⟨hrun.memory, hasked.trans hrun.asked, hrun.place, hrun.faithful, hsound⟩
  cases result with
  | ok tree => exact .ok rfl hafter
  | error fault => exact .error trivial hafter

theorem mirrors_inclusion? (name : String) :
    Mirrors here Eq (s.inclusion? name) (s.ask name) := by
  rw [Setup.inclusion?, Setup.ask]
  cases s.inclusions with
  | none => exact .pure rfl
  | some inclusions =>
    exact fun r c hrun => .ok rfl ⟨hrun.memory, congrArg (name :: ·) hrun.asked, hrun.place,
      hrun.faithful, hrun.sound⟩

theorem mirrors_transform {render : String → RenderM σ String} {plain : String → PlainM σ String}
    (hrender : ∀ template, Mirrors here Eq (render template) (plain template)) (handle : Handle)
    (text : String) :
    Mirrors here Eq
      (do (s.callables.transform handle (← get).memory text).perform render : RenderM σ _)
      (do (s.callables.transform handle (← get).memory text).performPlainly plain :
        PlainM σ _) := by
  intro r c hrun
  have hperform := Mirrors.perform hrender (s.callables.transform handle r.memory text) r c hrun
  show SameOutcome _ _ _ _
    (((s.callables.transform handle c.memory text).performPlainly plain).run c)
  rw [← hrun.memory]
  exact hperform

variable {s} {render : Nat → String → RenderM σ String}
  {plain : Standpoint → Nat → String → PlainM σ String} {body : BlockText}

mutual

/-- A node is written as it is written plainly, if templates inside it are. -/
theorem mirrors_write
    (hrender : ∀ here depth template, Mirrors here Eq (render depth template)
      (plain here depth template)) (depth : Nat) (here : Standpoint) (n : Node) :
    Mirrors here Eq (n.write s render body depth) (n.writePlainly s plain body depth here) :=
  match n with
  | .text text _ _ => .pure rfl
  | .escaped key _ _ => by
    rw [Node.write, Node.writePlainly]
    exact (mirrors_lookup s key).bindEq fun _ => .pure rfl
  | .unescaped key _ _ => by
    rw [Node.write, Node.writePlainly]
    exact (mirrors_lookup s key).bindEq fun _ => .pure rfl
  | .block key _ _ children _ => by
    have hchildren := fun depth here => mirrors_writeNodes hrender depth here children
    rw [Node.write, Node.writePlainly]
    refine (mirrors_lookup s key).bindEq fun value => .ite (.pure rfl) ?_
    have hframe (view : Value) : Mirrors here Eq
        (s.descend depth >>= fun depth => inFrame view (writeNodes s render body depth children))
        (PlainM.lift (s.options.descend depth) >>= fun depth =>
          writePlainly s plain body depth (here.push view) children) :=
      (Mirrors.lift _).bindEq fun depth => (hchildren depth _).inFrame
    cases value with
    | array items =>
      exact (Mirrors.lift _).bindEq fun depth => .each (fun item => (hchildren depth _).inFrame) _
    | object | string | int | float => exact hframe _
    | transformer handle =>
      exact (Mirrors.lift _).bindEq fun text =>
        mirrors_transform s (hrender here depth) handle text
    | null | bool | getter => exact hchildren depth here
  | .inverted key _ _ children _ => by
    rw [Node.write, Node.writePlainly]
    exact (mirrors_lookup s key).bindEq fun value =>
      .ite (mirrors_writeNodes hrender depth here children) (.pure rfl)
  | .inclusion key _ _ margin => by
    rw [Node.write, Node.writePlainly]
    refine (mirrors_inclusion? s key).bindEq fun text => ?_
    cases text with
    | none => exact .pure rfl
    | some text => exact (Mirrors.lift _).bindEq fun depth => hrender here depth _

theorem mirrors_writeNodes
    (hrender : ∀ here depth template, Mirrors here Eq (render depth template)
      (plain here depth template)) (depth : Nat) (here : Standpoint) (ns : List Node) :
    Mirrors here Eq (writeNodes s render body depth ns)
      (writePlainly s plain body depth here ns) :=
  match ns with
  | [] => .pure rfl
  | n :: ns =>
    (mirrors_write hrender depth here n).append (mirrors_writeNodes hrender depth here ns)

end

variable (s)

/-- A template is rendered as it is rendered plainly at the same place. -/
theorem mirrors_renderAt (budget : Nat) (here : Standpoint) (depth : Nat) (template : String) :
    Mirrors here Eq (s.renderAt budget depth template)
      (s.renderPlainly budget here depth template) := by
  induction budget generalizing here depth template with
  | zero => exact .exhausted
  | succ budget ih =>
    rw [Setup.renderAt, Setup.renderPlainly]
    refine (mirrors_tree s template).bind fun tree nodes hnodes => ?_
    rw [hnodes]
    exact mirrors_writeNodes ih depth here nodes

/-! ## Calls that render a template -/

/-- The reply to a call that renders a template, and the outcome of the plain rendering. -/
inductive PlainReply :
    Option (Except Fault Reply × Session σ) → Option (Except Fault String × Course σ) → Prop
  | exhausted : PlainReply none none
  | replied {result : Except Fault String} {session : Session σ} {c : Course σ} :
      session.memory = c.memory → session.shelf.askedNames = c.asked → session.shelf.Sound →
      PlainReply (some (result.map .text, session)) (some (result, c))

/-- A reply comes from an outcome of the plain rendering. -/
theorem PlainReply.of_reply {reply : Except Fault Reply} {session : Session σ}
    {o : Option (Except Fault String × Course σ)} (h : PlainReply (some (reply, session)) o) :
    ∃ result c, reply = result.map .text ∧ o = some (result, c) ∧ session.memory = c.memory ∧
      session.shelf.askedNames = c.asked ∧ session.shelf.Sound := by
  generalize hanswer : some (reply, session) = answer at h
  cases h with
  | exhausted => cases hanswer
  | @replied result _ c hmemory hasked hsound =>
    obtain ⟨rfl, rfl⟩ := Prod.mk.inj (Option.some.inj hanswer)
    exact ⟨result, c, rfl, rfl, hmemory, hasked, hsound⟩

theorem PlainReply.of_answer {x : String} {session : Session σ}
    {o : Option (Except Fault String × Course σ)}
    (h : PlainReply (some (.ok (.text x), session)) o) :
    ∃ c, o = some (.ok x, c) ∧ session.memory = c.memory ∧
      session.shelf.askedNames = c.asked ∧ session.shelf.Sound := by
  obtain ⟨result, c, hresult, rfl, hcourse⟩ := h.of_reply
  cases result with
  | error fault => cases hresult
  | ok text =>
    cases hresult
    exact ⟨c, rfl, hcourse⟩

theorem PlainReply.of_plain {result : Except Fault String} {c : Course σ}
    {o : Option (Except Fault Reply × Session σ)} (h : PlainReply o (some (result, c))) :
    ∃ session, o = some (result.map .text, session) ∧ session.memory = c.memory := by
  cases h with
  | replied hmemory => exact ⟨_, rfl, hmemory⟩

/-- The text that a call is replied to with. -/
def replyText? : Except Fault Reply → Option String
  | .ok (.text text) => some text
  | _ => none

theorem replyText?_eq_some {reply : Except Fault Reply} {text : String}
    (h : replyText? reply = some text) : reply = .ok (.text text) := by
  rw [replyText?.eq_def] at h
  split at h
  · cases h
    rfl
  · cases h

/-- A call that renders a template with a view is replied to as the template is rendered plainly. -/
theorem answer_plainReply {session : Session σ} (hsound : session.shelf.Sound) (budget : Nat)
    (template : String) (view : Value) :
    PlainReply (s.engine.answer budget s.callables session
        (.render template view s.inclusions s.options))
      ((s.renderPlainly budget ⟨view, []⟩ 0 template).run
        ⟨session.memory, session.shelf.askedNames⟩) := by
  have hsame := mirrors_renderAt s budget ⟨view, []⟩ 0 template
    ⟨session.memory, session.shelf, .root view⟩ ⟨session.memory, session.shelf.askedNames⟩
    ⟨rfl, rfl, rfl, Scope.faithful_root view, hsound⟩
  rw [Engine.answer, Session.renderIn, Setup.render]
  generalize (s.renderAt budget 0 template).run ⟨session.memory, session.shelf, .root view⟩ = o₁,
    (s.renderPlainly budget ⟨view, []⟩ 0 template).run
      ⟨session.memory, session.shelf.askedNames⟩ = o₂ at hsame ⊢
  cases hsame with
  | none => exact .exhausted
  | ok hv hafter =>
    rw [hv]
    exact .replied hafter.memory hafter.asked hafter.sound
  | error _ hafter => exact .replied hafter.memory hafter.asked hafter.sound

/-- A call that renders a template has one reply, whatever the budget. -/
theorem answer_unique {session session₁ session₂ : Session σ} (hsound : session.shelf.Sound)
    {budget budget' : Nat} {template : String} {view : Value} {reply reply' : Except Fault Reply}
    (h : s.engine.answer budget s.callables session
      (.render template view s.inclusions s.options) = some (reply, session₁))
    (h' : s.engine.answer budget' s.callables session
      (.render template view s.inclusions s.options) = some (reply', session₂)) :
    reply = reply' := by
  have hplain := answer_plainReply s hsound budget template view
  have hplain' := answer_plainReply s hsound budget' template view
  rw [h] at hplain
  rw [h'] at hplain'
  obtain ⟨result, c, rfl, hrun, -⟩ := hplain.of_reply
  obtain ⟨result', c', rfl, hrun', -⟩ := hplain'.of_reply
  obtain ⟨rfl, -⟩ := Prod.mk.inj (run_renderPlainly_unique hrun hrun')
  rfl

end

end TagTemplate
