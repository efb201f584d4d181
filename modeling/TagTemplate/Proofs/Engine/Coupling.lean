import TagTemplate.Engine.Session
import TagTemplate.Proofs.Engine.Shelf
import TagTemplate.Proofs.Template.Acceptance

/-!
# Two renderings side by side

A coupling says what the memories of two runs have in common, and which faults may come up. Setups
that agree do the same at every step: they find the same values and start the same scripts; setups
that fit read the same trees too. Main statements: `Coupling.Agrees.writeNodes`, of one tree the
same is written, and `Coupling.Fits.renderWith`, so it is of one template; and so is the fault if
there is one.
-/

namespace TagTemplate

/-! ## Running a part of a rendering -/

namespace RenderM

variable {σ α β : Type}

theorem run_bind (m : RenderM σ α) (f : α → RenderM σ β) (r : Run σ) :
    (m >>= f).run r = match m.run r with
      | none => none
      | some (.error fault, r) => some (.error fault, r)
      | some (.ok a, r) => (f a).run r := by
  show Option.bind (m.run r) _ = _
  rcases m.run r with _ | ⟨_ | _, r⟩ <;> rfl

/-- A script that asks for a template goes on with the outcome, which may be a fault. -/
theorem run_perform_render (render : String → RenderM σ String) (memory : σ) (template : String)
    (next : σ → Except Fault String → Script σ) (r : Run σ) :
    ((Script.render memory template next).perform render).run r =
      match (render template).run { r with memory } with
      | none => none
      | some (outcome, r) => ((next r.memory outcome).perform render).run r := by
  show Option.bind (Option.bind (Option.bind ((render template).run { r with memory }) _) _) _ = _
  rcases (render template).run { r with memory } with _ | ⟨_ | _, r⟩ <;> rfl

theorem run_liftExcept (x : Except Fault α) (r : Run σ) :
    (Setup.descend.liftExcept x : RenderM σ α).run r = some (x, r) := by
  cases x <;> rfl

/-- A name is sought in the scope, and a getter that is found is asked. -/
theorem run_lookup (s : Setup σ) (name : String) (r : Run σ) : (s.lookup name).run r =
    match (r.scope.find name).1 with
    | .getter handle =>
      some (.ok (s.callables.get handle r.memory (r.scope.find name).2.view).1,
        { r with
          memory := (s.callables.get handle r.memory (r.scope.find name).2.view).2
          scope := (r.scope.find name).2 })
    | found => some (.ok found, { r with scope := (r.scope.find name).2 }) := by
  show (match (r.scope.find name).1 with
    | .getter handle => _
    | found => _ : RenderM σ Value).run r = _
  cases (r.scope.find name).1 <;> rfl

theorem run_tree (s : Setup σ) (template : String) (r : Run σ) : (s.tree template).run r =
    some ((s.engine.read s.options.delimiters template r.shelf).1,
      { r with shelf := (s.engine.read s.options.delimiters template r.shelf).2 }) := by
  show (Setup.descend.liftExcept (s.engine.read s.options.delimiters template r.shelf).1 :
    RenderM σ SharedTree).run
      { r with shelf := (s.engine.read s.options.delimiters template r.shelf).2 } = _
  exact run_liftExcept _ _

end RenderM

/-- Two outcomes that are the same, up to a relation `V` between the results; `R` relates what goes
on, and `F` says which faults may come up there. -/
inductive SameOutcome {ρ₁ ρ₂ α β : Type} (R : ρ₁ → ρ₂ → Prop) (F : Fault → ρ₁ → ρ₂ → Prop)
    (V : α → β → Prop) : Option (Except Fault α × ρ₁) → Option (Except Fault β × ρ₂) → Prop
  | none : SameOutcome R F V none none
  | ok {a : α} {b : β} {r₁ : ρ₁} {r₂ : ρ₂} :
      V a b → R r₁ r₂ → SameOutcome R F V (some (.ok a, r₁)) (some (.ok b, r₂))
  | error {fault : Fault} {r₁ : ρ₁} {r₂ : ρ₂} :
      F fault r₁ r₂ → R r₁ r₂ →
        SameOutcome R F V (some (.error fault, r₁)) (some (.error fault, r₂))

/-- What the memories and the shelves of two runs have in common, and the faults that may come
up. -/
structure Coupling (σ₁ σ₂ : Type) where
  memories : σ₁ → σ₂ → Prop
  shelves : Shelf → Shelf → Prop
  faults : Fault → σ₁ → σ₂ → Prop

/-- The fault is none that only a transformer without its text meets. -/
def Fault.Ordinary (fault : Fault) : Prop := ∀ reason, fault ≠ .unsupported reason

namespace Coupling

variable {σ₁ σ₂ : Type}

/-- Two runs that differ in their memories and shelves only. -/
structure Runs (C : Coupling σ₁ σ₂) (r₁ : Run σ₁) (r₂ : Run σ₂) : Prop where
  memory : C.memories r₁.memory r₂.memory
  scope : r₁.scope = r₂.scope
  shelf : C.shelves r₁.shelf r₂.shelf
  sound₁ : r₁.shelf.Sound
  sound₂ : r₂.shelf.Sound

/-- Two outcomes of parts of renderings that are the same. -/
abbrev Outcomes (C : Coupling σ₁ σ₂) {α β : Type} (V : α → β → Prop) :
    Option (Except Fault α × Run σ₁) → Option (Except Fault β × Run σ₂) → Prop :=
  SameOutcome C.Runs (fun fault r₁ r₂ => C.faults fault r₁.memory r₂.memory) V

/-- Two parts of renderings that have the same outcomes. -/
def Related (C : Coupling σ₁ σ₂) {α β : Type} (V : α → β → Prop) (m₁ : RenderM σ₁ α)
    (m₂ : RenderM σ₂ β) : Prop :=
  ∀ r₁ r₂, C.Runs r₁ r₂ → C.Outcomes V (m₁.run r₁) (m₂.run r₂)

/-- Two scripts that do the same, each with its own memory. -/
inductive Scripts (C : Coupling σ₁ σ₂) : Script σ₁ → Script σ₂ → Prop
  | done {m₁ : σ₁} {m₂ : σ₂} {output : Option String} :
      C.memories m₁ m₂ → Scripts C (.done m₁ output) (.done m₂ output)
  | fail {m₁ : σ₁} {m₂ : σ₂} {fault : Fault} :
      C.memories m₁ m₂ → C.faults fault m₁ m₂ → Scripts C (.fail m₁ fault) (.fail m₂ fault)
  | render {m₁ : σ₁} {m₂ : σ₂} {template : String} {next₁ : σ₁ → Except Fault String → Script σ₁}
      {next₂ : σ₂ → Except Fault String → Script σ₂} :
      C.memories m₁ m₂ →
      (∀ m₁ m₂ outcome, C.memories m₁ m₂ → Scripts C (next₁ m₁ outcome) (next₂ m₂ outcome)) →
      Scripts C (.render m₁ template next₁) (.render m₂ template next₂)

/-- Callables that do the same, each with its own memory. -/
structure SameCalls (C : Coupling σ₁ σ₂) (c₁ : Callables σ₁) (c₂ : Callables σ₂) : Prop where
  get : ∀ handle m₁ m₂ view, C.memories m₁ m₂ →
    (c₁.get handle m₁ view).1 = (c₂.get handle m₂ view).1 ∧
      C.memories (c₁.get handle m₁ view).2 (c₂.get handle m₂ view).2
  transform : ∀ handle m₁ m₂ text, C.memories m₁ m₂ →
    C.Scripts (c₁.transform handle m₁ text) (c₂.transform handle m₂ text)

/-- Setups that differ in their callables and their engines only. Of the engines nothing is said. -/
structure Agrees (C : Coupling σ₁ σ₂) (s₁ : Setup σ₁) (s₂ : Setup σ₂) : Prop where
  options : s₁.options = s₂.options
  inclusions : s₁.inclusions = s₂.inclusions
  calls : C.SameCalls s₁.callables s₂.callables
  ordinary : ∀ fault m₁ m₂, fault.Ordinary → C.memories m₁ m₂ → C.faults fault m₁ m₂
  ask : ∀ name a b, C.shelves a b → C.shelves (a.note (.asked name)) (b.note (.asked name))

/-- Setups that differ in their callables, and in whether they keep trees, only. -/
structure Fits (C : Coupling σ₁ σ₂) (s₁ : Setup σ₁) (s₂ : Setup σ₂) : Prop
    extends C.Agrees s₁ s₂ where
  delimiters : s₁.engine.delimiters = s₂.engine.delimiters
  read : ∀ template a b, C.shelves a b →
    C.shelves (s₁.engine.read s₁.options.delimiters template a).2
      (s₂.engine.read s₁.options.delimiters template b).2

/-- Two ways to find the text of a block that agree on all blocks of a tree. -/
def Bodies (C : Coupling σ₁ σ₂) (body₁ body₂ : BlockText) (ns : List Node) : Prop :=
  ∀ key start bodyStart children bodyStop, .block key start bodyStart children bodyStop ∈ ns →
    body₁ key bodyStart bodyStop = body₂ key bodyStart bodyStop ∧
      ∀ fault, body₂ key bodyStart bodyStop = .error fault →
        ∀ m₁ m₂, C.memories m₁ m₂ → C.faults fault m₁ m₂

variable {C : Coupling σ₁ σ₂}

/-! ## Steps -/

theorem Runs.inScope {r₁ : Run σ₁} {r₂ : Run σ₂} (h : C.Runs r₁ r₂) (scope : Scope) :
    C.Runs { r₁ with scope } { r₂ with scope } := ⟨h.memory, rfl, h.shelf, h.sound₁, h.sound₂⟩

theorem Runs.withMemory {r₁ : Run σ₁} {r₂ : Run σ₂} (h : C.Runs r₁ r₂) {m₁ : σ₁} {m₂ : σ₂}
    (hm : C.memories m₁ m₂) : C.Runs { r₁ with memory := m₁ } { r₂ with memory := m₂ } :=
  ⟨hm, h.scope, h.shelf, h.sound₁, h.sound₂⟩

namespace Related

variable {α β γ δ : Type} {V : α → β → Prop} {W : γ → δ → Prop}

theorem pure {a : α} {b : β} (h : V a b) :
    C.Related V (pure a : RenderM σ₁ α) (pure b : RenderM σ₂ β) :=
  fun _ _ hr => .ok h hr

theorem bind {m₁ : RenderM σ₁ α} {m₂ : RenderM σ₂ β} {f₁ : α → RenderM σ₁ γ}
    {f₂ : β → RenderM σ₂ δ} (hm : C.Related V m₁ m₂)
    (hf : ∀ a b, V a b → C.Related W (f₁ a) (f₂ b)) : C.Related W (m₁ >>= f₁) (m₂ >>= f₂) := by
  intro r₁ r₂ hr
  rw [RenderM.run_bind, RenderM.run_bind]
  have hrun := hm r₁ r₂ hr
  generalize m₁.run r₁ = o₁, m₂.run r₂ = o₂ at hrun
  cases hrun with
  | none => exact .none
  | ok hv hr' => exact hf _ _ hv _ _ hr'
  | error hfault hr' => exact .error hfault hr'

theorem liftExcept {x : Except Fault α} (hfault : ∀ fault, x = .error fault →
    ∀ m₁ m₂, C.memories m₁ m₂ → C.faults fault m₁ m₂) :
    C.Related Eq (Setup.descend.liftExcept x : RenderM σ₁ α)
      (Setup.descend.liftExcept x : RenderM σ₂ α) := by
  intro r₁ r₂ hr
  cases x with
  | ok a => exact .ok rfl hr
  | error fault => exact .error (hfault fault rfl _ _ hr.memory) hr

theorem ite {p : Prop} [Decidable p] {m₁ n₁ : RenderM σ₁ α} {m₂ n₂ : RenderM σ₂ β}
    (hm : C.Related V m₁ m₂) (hn : C.Related V n₁ n₂) :
    C.Related V (if p then m₁ else n₁) (if p then m₂ else n₂) := by
  split
  · exact hm
  · exact hn

theorem exhausted : C.Related V (exhausted : RenderM σ₁ α) (exhausted : RenderM σ₂ β) :=
  fun _ _ _ => .none

theorem inFrame {m₁ : RenderM σ₁ α} {m₂ : RenderM σ₂ β} (h : C.Related V m₁ m₂)
    (view : Value) : C.Related V (inFrame view m₁) (inFrame view m₂) := by
  intro r₁ r₂ hr
  have hrun := h _ _ (hr.inScope (r₁.scope.push view))
  show C.Outcomes V ((m₁.run { r₁ with scope := r₁.scope.push view }).map _)
    ((m₂.run { r₂ with scope := r₂.scope.push view }).map _)
  rw [← hr.scope]
  generalize m₁.run { r₁ with scope := r₁.scope.push view } = o₁,
    m₂.run { r₂ with scope := r₁.scope.push view } = o₂ at hrun
  cases hrun with
  | none => exact .none
  | ok hv hr' => exact .ok hv (hr'.inScope _)
  | error hfault hr' => exact .error hfault (hr'.inScope _)

theorem append {m₁ n₁ : RenderM σ₁ String} {m₂ n₂ : RenderM σ₂ String} (hm : C.Related Eq m₁ m₂)
    (hn : C.Related Eq n₁ n₂) :
    C.Related Eq (do let first ← m₁; let rest ← n₁; return first ++ rest)
      (do let first ← m₂; let rest ← n₂; return first ++ rest) :=
  hm.bind fun _ _ hfirst => hn.bind fun _ _ hrest => .pure (by rw [hfirst, hrest])

theorem writeEach {ι : Type} {write₁ : ι → RenderM σ₁ String} {write₂ : ι → RenderM σ₂ String}
    (h : ∀ x, C.Related Eq (write₁ x) (write₂ x)) (xs : List ι) :
    C.Related Eq (writeEach write₁ xs) (writeEach write₂ xs) := by
  induction xs with
  | nil => exact .pure rfl
  | cons x xs ih => exact (h x).append ih

end Related

/-- Scripts that do the same write the same. -/
theorem Scripts.perform {render₁ : String → RenderM σ₁ String}
    {render₂ : String → RenderM σ₂ String}
    (hrender : ∀ template, C.Related Eq (render₁ template) (render₂ template)) {w₁ : Script σ₁}
    {w₂ : Script σ₂} (h : C.Scripts w₁ w₂) :
    C.Related Eq (w₁.perform render₁) (w₂.perform render₂) := by
  -- the outcome of a template goes to the next step of both scripts, a fault too
  induction h with
  | done hm => exact fun r₁ r₂ hr => .ok rfl (hr.withMemory hm)
  | fail hm hfault => exact fun r₁ r₂ hr => .error hfault (hr.withMemory hm)
  | @render m₁ m₂ template next₁ next₂ hm _ ih =>
    intro r₁ r₂ hr
    have hrun := hrender template _ _ (hr.withMemory hm)
    rw [RenderM.run_perform_render, RenderM.run_perform_render]
    generalize (render₁ template).run { r₁ with memory := m₁ } = o₁,
      (render₂ template).run { r₂ with memory := m₂ } = o₂ at hrun
    cases hrun with
    | none => exact .none
    | ok hv hr' => exact hv ▸ ih _ _ _ hr'.memory _ _ hr'
    | error hfault hr' => exact ih _ _ _ hr'.memory _ _ hr'

/-! ## Setups that agree -/

theorem parse_ordinary {d : Delimiters} {template : String} {fault : Fault}
    (h : parse d template = .error fault) : fault.Ordinary := by
  cases parse_fault_iff.1 h <;> exact nofun

namespace Agrees

variable {s₁ : Setup σ₁} {s₂ : Setup σ₂}

/-- A name denotes the same on both sides, a getter being asked on both. -/
theorem lookup (h : C.Agrees s₁ s₂) (name : String) :
    C.Related Eq (s₁.lookup name) (s₂.lookup name) := by
  intro r₁ r₂ hr
  rw [RenderM.run_lookup, RenderM.run_lookup, hr.scope]
  split
  · next handle _ =>
    obtain ⟨hvalue, hmemory⟩ := h.calls.get handle _ _ (r₂.scope.find name).2.view hr.memory
    exact .ok hvalue ((hr.inScope (r₂.scope.find name).2).withMemory hmemory)
  · exact .ok rfl (hr.inScope _)

theorem descend (h : C.Agrees s₁ s₂) (depth : Nat) :
    C.Related Eq (s₁.descend depth) (s₂.descend depth) := by
  rw [Setup.descend, Setup.descend, ← h.options]
  refine .liftExcept fun fault hfault m₁ m₂ hm => h.ordinary fault m₁ m₂ ?_ hm
  intro reason heq
  rw [heq, Options.descend] at hfault
  split at hfault
  · split at hfault <;> cases hfault
  · cases hfault

theorem inclusion? (h : C.Agrees s₁ s₂) (name : String) :
    C.Related Eq (s₁.inclusion? name) (s₂.inclusion? name) := by
  rw [Setup.inclusion?, Setup.inclusion?, ← h.inclusions]
  cases s₁.inclusions with
  | none => exact .pure rfl
  | some inclusions =>
    exact fun r₁ r₂ hr => .ok rfl ⟨hr.memory, hr.scope, h.ask _ _ _ hr.shelf,
      hr.sound₁.note _, hr.sound₂.note _⟩

/-- A transformer is started on both sides, each with its own memory. -/
theorem transform (h : C.Agrees s₁ s₂) {render₁ : String → RenderM σ₁ String}
    {render₂ : String → RenderM σ₂ String}
    (hrender : ∀ template, C.Related Eq (render₁ template) (render₂ template)) (handle : Handle)
    (text : String) :
    C.Related Eq
      (do (s₁.callables.transform handle (← get).memory text).perform render₁ : RenderM σ₁ _)
      (do (s₂.callables.transform handle (← get).memory text).perform render₂ : RenderM σ₂ _) :=
  fun r₁ r₂ hr => (h.calls.transform handle _ _ text hr.memory).perform hrender r₁ r₂ hr

end Agrees

/-- Both sides get the tree that the template says, from the shelf or anew. -/
theorem Fits.tree {s₁ : Setup σ₁} {s₂ : Setup σ₂} (h : C.Fits s₁ s₂) (template : String) :
    C.Related (fun a b => a.nodes = b.nodes ∧
      parse (s₁.options.delimiters.getD s₁.engine.delimiters) template = .ok a.nodes)
      (s₁.tree template) (s₂.tree template) := by
  intro r₁ r₂ hr
  have hsound₁ := (s₁.engine.read_spec s₁.options.delimiters template hr.sound₁).2
  have hsound₂ := (s₂.engine.read_spec s₁.options.delimiters template hr.sound₂).2
  have hruns : C.Runs
      { r₁ with shelf := (s₁.engine.read s₁.options.delimiters template r₁.shelf).2 }
      { r₂ with shelf := (s₂.engine.read s₁.options.delimiters template r₂.shelf).2 } :=
    ⟨hr.memory, hr.scope, h.read _ _ _ hr.shelf, hsound₁, hsound₂⟩
  rw [RenderM.run_tree, RenderM.run_tree, ← h.options]
  -- sound shelves give the tree that the template says, so it is the same on both
  obtain ⟨fault, h₁, h₂, hparse⟩ | ⟨tree₁, tree₂, h₁, h₂, hnodes, hparse⟩ :=
    Engine.read_same h.delimiters s₁.options.delimiters template hr.sound₁ hr.sound₂
  · rw [h₁, h₂]
    exact .error (h.ordinary _ _ _ (parse_ordinary hparse) hr.memory) hruns
  · rw [h₁, h₂]
    exact .ok ⟨hnodes, hparse⟩ hruns

theorem Bodies.left {body₁ body₂ : BlockText} {a b : List Node}
    (h : C.Bodies body₁ body₂ (a ++ b)) : C.Bodies body₁ body₂ a :=
  fun _ _ _ _ _ hmem => h _ _ _ _ _ (List.mem_append_left _ hmem)

theorem Bodies.right {body₁ body₂ : BlockText} {a b : List Node}
    (h : C.Bodies body₁ body₂ (a ++ b)) : C.Bodies body₁ body₂ b :=
  fun _ _ _ _ _ hmem => h _ _ _ _ _ (List.mem_append_right _ hmem)

section

variable {s₁ : Setup σ₁} {s₂ : Setup σ₂} {render₁ : Nat → String → RenderM σ₁ String}
  {render₂ : Nat → String → RenderM σ₂ String} {body₁ body₂ : BlockText}

mutual

/-- A node is written the same on both sides, if templates inside it are. -/
theorem Agrees.write (h : C.Agrees s₁ s₂)
    (hrender : ∀ depth template, C.Related Eq (render₁ depth template) (render₂ depth template))
    (depth : Nat) (n : Node) (hbody : C.Bodies body₁ body₂ n.flatten) :
    C.Related Eq (n.write s₁ render₁ body₁ depth) (n.write s₂ render₂ body₂ depth) :=
  match n with
  | .text text _ _ => .pure rfl
  | .escaped key _ _ => by
    rw [Node.write, Node.write, ← h.options]
    exact (h.lookup key).bind fun value _ hvalue => .pure (by rw [hvalue])
  | .unescaped key _ _ => by
    rw [Node.write, Node.write]
    exact (h.lookup key).bind fun value _ hvalue => .pure (by rw [hvalue])
  | .block key start bodyStart children bodyStop => by
    have hchildren (depth : Nat) := h.writeNodes hrender depth children
      (hbody.right (a := [.block key start bodyStart children bodyStop]))
    rw [Node.write, Node.write]
    refine (h.lookup key).bind fun value _ hvalue => ?_
    subst hvalue
    have hframe (view : Value) : C.Related Eq
        (s₁.descend depth >>= fun depth =>
          inFrame view (TagTemplate.writeNodes s₁ render₁ body₁ depth children))
        (s₂.descend depth >>= fun depth =>
          inFrame view (TagTemplate.writeNodes s₂ render₂ body₂ depth children)) :=
      (h.descend depth).bind fun depth _ hdepth => hdepth ▸ (hchildren depth).inFrame view
    refine .ite (.pure rfl) ?_
    split
    · exact (h.descend depth).bind fun depth _ hdepth => hdepth ▸
        .writeEach (fun item => (hchildren depth).inFrame item) _
    · exact hframe _
    · exact hframe _
    · exact hframe _
    · exact hframe _
    · next handle =>
      obtain ⟨hsame, hfault⟩ := hbody key start bodyStart children bodyStop List.mem_cons_self
      rw [hsame]
      exact (Related.liftExcept hfault).bind fun text _ htext =>
        htext ▸ h.transform (hrender depth) handle text
    · exact hchildren depth
  | .inverted key start bodyStart children bodyStop => by
    rw [Node.write, Node.write]
    refine (h.lookup key).bind fun value _ hvalue => ?_
    subst hvalue
    refine .ite ?_ (.pure rfl)
    exact h.writeNodes hrender depth children
      (hbody.right (a := [.inverted key start bodyStart children bodyStop]))
  | .inclusion key _ _ margin => by
    rw [Node.write, Node.write]
    refine (h.inclusion? key).bind fun text _ htext => ?_
    subst htext
    split
    · exact .pure rfl
    · exact (h.descend depth).bind fun depth _ hdepth => hdepth ▸ hrender depth _

theorem Agrees.writeNodes (h : C.Agrees s₁ s₂)
    (hrender : ∀ depth template, C.Related Eq (render₁ depth template) (render₂ depth template))
    (depth : Nat) (ns : List Node) (hbody : C.Bodies body₁ body₂ (Node.flatten.flattenAll ns)) :
    C.Related Eq (writeNodes s₁ render₁ body₁ depth ns) (writeNodes s₂ render₂ body₂ depth ns) :=
  match ns with
  | [] => .pure rfl
  | n :: ns => (h.write hrender depth n hbody.left).append
      (h.writeNodes hrender depth ns hbody.right)

end

end

/-! ## Whole renderings -/

end Coupling

/-- The text of a template at a depth, `body` giving the texts of the blocks of a template. -/
def Setup.renderWith {σ : Type} (s : Setup σ) (body : String → BlockText) (budget depth : Nat)
    (template : String) : RenderM σ String :=
  match budget with
  | 0 => exhausted
  | budget + 1 => do
    let tree ← s.tree template
    writeNodes s (s.renderWith body budget) (body template) depth tree.nodes

/-- Rendering takes the texts of blocks from the template at hand. -/
theorem Setup.renderAt_eq {σ : Type} (s : Setup σ) (budget depth : Nat) (template : String) :
    s.renderAt budget depth template =
      s.renderWith (fun template => blockText (some template)) budget depth template := by
  induction budget generalizing depth template with
  | zero => rfl
  | succ budget ih =>
    rw [renderAt, renderWith]
    have hrender : s.renderAt budget =
        s.renderWith (fun template => blockText (some template)) budget :=
      funext fun depth => funext fun template => ih depth template
    rw [hrender]

namespace Coupling

variable {σ₁ σ₂ : Type} {C : Coupling σ₁ σ₂} {s₁ : Setup σ₁} {s₂ : Setup σ₂}
  {body₁ body₂ : String → BlockText}

/-- A template is rendered the same on both sides, if the texts of blocks agree on every tree. -/
theorem Fits.renderWith (h : C.Fits s₁ s₂)
    (hbody : ∀ template nodes,
      parse (s₁.options.delimiters.getD s₁.engine.delimiters) template = .ok nodes →
        C.Bodies (body₁ template) (body₂ template) (Node.flatten.flattenAll nodes))
    (budget depth : Nat) (template : String) :
    C.Related Eq (s₁.renderWith body₁ budget depth template)
      (s₂.renderWith body₂ budget depth template) := by
  induction budget generalizing depth template with
  | zero => exact .exhausted
  | succ budget ih =>
    rw [Setup.renderWith, Setup.renderWith]
    refine (h.tree template).bind fun tree tree' htree => ?_
    obtain ⟨hnodes, hparse⟩ := htree
    rw [← hnodes]
    exact h.writeNodes ih depth tree.nodes (hbody template tree.nodes hparse)

/-! ## The same callables on both sides -/

/-- Two runs with the same memory, and shelves that are related somehow. -/
def beside (σ : Type) (shelves : Shelf → Shelf → Prop) : Coupling σ σ where
  memories := Eq
  shelves := shelves
  faults _ _ _ := True

variable {σ : Type} {shelves : Shelf → Shelf → Prop}

theorem beside_scripts (w : Script σ) : (beside σ shelves).Scripts w w := by
  induction w with
  | done memory output => exact .done rfl
  | fail memory fault => exact .fail rfl trivial
  | render memory template next ih =>
    refine .render rfl fun memory _ outcome hmemory => ?_
    cases hmemory
    exact ih memory outcome

theorem beside_sameCalls (callables : Callables σ) :
    (beside σ shelves).SameCalls callables callables where
  get := by
    rintro handle memory _ view rfl
    exact ⟨rfl, rfl⟩
  transform := by
    rintro handle memory _ text rfl
    exact beside_scripts _

/-- A setup agrees with itself, if asking leaves the shelves related. -/
theorem beside_agrees {s : Setup σ}
    (hask : ∀ name a b, shelves a b → shelves (a.note (.asked name)) (b.note (.asked name))) :
    (beside σ shelves).Agrees s s where
  options := rfl
  inclusions := rfl
  calls := beside_sameCalls s.callables
  ordinary _ _ _ _ _ := trivial
  ask := hask

theorem beside_bodies {body₁ body₂ : BlockText} {ns : List Node}
    (h : ∀ key start bodyStart children bodyStop,
      .block key start bodyStart children bodyStop ∈ ns →
        body₁ key bodyStart bodyStop = body₂ key bodyStart bodyStop) :
    (beside σ shelves).Bodies body₁ body₂ ns :=
  fun key start bodyStart children bodyStop hmem =>
    ⟨h key start bodyStart children bodyStop hmem, fun _ _ _ _ _ => trivial⟩

theorem beside_sameBody (body : BlockText) (ns : List Node) :
    (beside σ shelves).Bodies body body ns :=
  beside_bodies fun _ _ _ _ _ _ => rfl

end Coupling

end TagTemplate
