import TagTemplate.Proofs.Engine.Complement
import TagTemplate.Proofs.Engine.Transparency

/-!
# Trees with and without their source

A tree can be rendered without the template that it was read from; only its own blocks need that
text, to hand it to transformers. Main statement: `tree_renders_as_template`, the tree of a template
is rendered with the template as its source like the template itself, and without a source in the
same way up to the first of its own blocks that comes upon a transformer, where it fails.
-/

namespace TagTemplate

/-- A block that comes upon a transformer, in a run that has just found it. -/
structure Handover (σ : Type) where
  key : String
  handle : Handle
  run : Run σ

section

variable {σ α β : Type}

/-! ## Handovers on the way -/

/-- What is met behind a part of a rendering, if that ends with a result. -/
def behind (outcome : Option (Except Fault α × Run σ)) (next : α → Run σ → List β) : List β :=
  match outcome with
  | some (.ok a, after) => next a after
  | _ => []

theorem behind_nil (outcome : Option (Except Fault α × Run σ)) :
    behind outcome (fun _ _ => ([] : List β)) = [] := by
  rcases outcome with _ | ⟨_ | _, _⟩ <;> rfl

def handoversEach (write : α → RenderM σ String) (inside : α → Run σ → List (Handover σ)) :
    List α → Run σ → List (Handover σ)
  | [], _ => []
  | x :: xs, r => inside x r ++ behind ((write x).run r) fun _ => handoversEach write inside xs

mutual

/-- The handovers of a node and of the nodes in it, in the order in which a run comes to them. An
inclusion has none, nor has a text that a transformer has rendered: their blocks belong to trees of
their own. -/
def Node.handovers (s : Setup σ) (render : Nat → String → RenderM σ String) (body : BlockText)
    (depth : Nat) : Node → Run σ → List (Handover σ)
  | .text .., _ | .escaped .., _ | .unescaped .., _ | .inclusion .., _ => []
  | .block key _ _ children _, r =>
    behind ((s.lookup key).run r) fun value after =>
      match value.bodyUse with
      | .inFrames views =>
        match s.options.descend depth with
        | .ok below =>
          handoversEach (fun view => inFrame view (writeNodes s render body below children))
            (fun view r =>
              handoversAll s render body below children { r with scope := r.scope.push view })
            views after
        | .error _ => []
      | .inPlace => handoversAll s render body depth children after
      | .handedOver handle => [⟨key, handle, after⟩]
  | .inverted key _ _ children _, r =>
    behind ((s.lookup key).run r) fun value after =>
      if value.isNothing then handoversAll s render body depth children after else []

def handoversAll (s : Setup σ) (render : Nat → String → RenderM σ String) (body : BlockText)
    (depth : Nat) : List Node → Run σ → List (Handover σ)
  | [], _ => []
  | n :: ns, r => n.handovers s render body depth r ++
      behind ((n.write s render body depth).run r) fun _ =>
        handoversAll s render body depth ns

end

/-! ## Up to the first handover -/

/-- What comes of a part of a rendering without the source, beside what comes of it with one: the
same if there is no handover on the way; else it ends at the first one, for want of the source, and
nothing has happened since. -/
inductive StopsAt : List (Handover σ) → Option (Except Fault α × Run σ) →
    Option (Except Fault α × Run σ) → Prop
  | never {outcome : Option (Except Fault α × Run σ)} : StopsAt [] outcome outcome
  | first {handover : Handover σ} {more : List (Handover σ)} {after : Run σ}
      {outcome : Option (Except Fault α × Run σ)} :
      after.memory = handover.run.memory → after.shelf = handover.run.shelf →
      StopsAt (handover :: more) (some (.error (.unsupported .noSource), after)) outcome

namespace StopsAt

variable {r : Run σ} {m₀ m₁ : RenderM σ α} {f₀ f₁ : α → RenderM σ β} {handovers : List (Handover σ)}
  {next : α → Run σ → List (Handover σ)}

/-- One part after the other. -/
theorem bind (hm : StopsAt handovers (m₀.run r) (m₁.run r))
    (hf : ∀ a after, StopsAt (next a after) ((f₀ a).run after) ((f₁ a).run after)) :
    StopsAt (handovers ++ behind (m₁.run r) next) ((m₀ >>= f₀).run r) ((m₁ >>= f₁).run r) := by
  -- behind a handover only the run with the source goes on, so the first one stays the first
  rw [RenderM.run_bind, RenderM.run_bind]
  generalize m₀.run r = o₀, m₁.run r = o₁ at hm
  cases hm with
  | never =>
    rcases o₀ with _ | ⟨fault | a, after⟩
    · exact .never
    · exact .never
    · exact hf a after
  | first hmemory hshelf => exact .first hmemory hshelf

/-- A part that makes do without the source comes first. -/
theorem after {m : RenderM σ α}
    (hf : ∀ a after, StopsAt (next a after) ((f₀ a).run after) ((f₁ a).run after)) :
    StopsAt (behind (m.run r) next) ((m >>= f₀).run r) ((m >>= f₁).run r) :=
  bind .never hf

theorem result {f : α → RenderM σ β} (hm : StopsAt handovers (m₀.run r) (m₁.run r)) :
    StopsAt handovers ((m₀ >>= f).run r) ((m₁ >>= f).run r) := by
  have hbind : StopsAt (handovers ++ behind (m₁.run r) fun _ _ => []) ((m₀ >>= f).run r)
      ((m₁ >>= f).run r) := hm.bind fun _ _ => .never
  rwa [behind_nil, List.append_nil] at hbind

theorem append {m₀ m₁ n₀ n₁ : RenderM σ String} {next : Run σ → List (Handover σ)}
    (hm : StopsAt handovers (m₀.run r) (m₁.run r))
    (hn : ∀ after, StopsAt (next after) (n₀.run after) (n₁.run after)) :
    StopsAt (handovers ++ behind (m₁.run r) fun _ => next)
      ((do let first ← m₀; let rest ← n₀; return first ++ rest).run r)
      ((do let first ← m₁; let rest ← n₁; return first ++ rest).run r) :=
  hm.bind fun _ after => (hn after).result

/-- Under a ceiling that is met there is nothing more to write. -/
theorem descending (result : Except Fault Nat) {f₀ f₁ : Nat → RenderM σ α}
    {next : Nat → List (Handover σ)}
    (h : ∀ below, StopsAt (next below) ((f₀ below).run r) ((f₁ below).run r)) :
    StopsAt (match result with | .ok below => next below | .error _ => [])
      ((Setup.descend.liftExcept result >>= f₀).run r)
      ((Setup.descend.liftExcept result >>= f₁).run r) := by
  cases result with
  | ok below => exact h below
  | error => exact .never

theorem each {ι : Type} {write₀ write₁ : ι → RenderM σ String}
    {inside : ι → Run σ → List (Handover σ)}
    (h : ∀ x r, StopsAt (inside x r) ((write₀ x).run r) ((write₁ x).run r)) (xs : List ι)
    (r : Run σ) : StopsAt (handoversEach write₁ inside xs r) ((writeEach write₀ xs).run r)
      ((writeEach write₁ xs).run r) := by
  induction xs generalizing r with
  | nil => exact .never
  | cons x xs ih => exact (h x r).append ih

theorem only {ι : Type} {write₀ write₁ : ι → RenderM σ String}
    {inside : ι → Run σ → List (Handover σ)}
    (h : ∀ x r, StopsAt (inside x r) ((write₀ x).run r) ((write₁ x).run r)) (x : ι) (r : Run σ) :
    StopsAt (handoversEach write₁ inside [x] r) ((write₀ x).run r) ((write₁ x).run r) := by
  have heach := each h [x] r
  rwa [writeEach_singleton, writeEach_singleton] at heach

/-- Leaving a frame undoes nothing but the scope. -/
theorem inFrame {view : Value}
    (h : StopsAt handovers (m₀.run { r with scope := r.scope.push view })
      (m₁.run { r with scope := r.scope.push view })) :
    StopsAt handovers ((inFrame view m₀).run r) ((inFrame view m₁).run r) := by
  show StopsAt _ ((m₀.run { r with scope := r.scope.push view }).map _)
    ((m₁.run { r with scope := r.scope.push view }).map _)
  generalize m₀.run { r with scope := r.scope.push view } = o₀,
    m₁.run { r with scope := r.scope.push view } = o₁ at h
  cases h with
  | never => exact .never
  | first hmemory hshelf => exact .first hmemory hshelf

end StopsAt

variable {s : Setup σ} {render : Nat → String → RenderM σ String} {body : BlockText}

mutual

/-- A node is written without the source as with it, up to the first handover in it. -/
theorem write_stopsAt (depth : Nat) (n : Node) (r : Run σ) :
    StopsAt (n.handovers s render body depth r)
      ((n.write s render (blockText none) depth).run r) ((n.write s render body depth).run r) :=
  match n with
  | .text .. | .escaped .. | .unescaped .. | .inclusion .. => by
    rw [Node.write, Node.write, Node.handovers]
    exact .never
  | .block key _ bodyStart children bodyStop => by
    have hchildren := fun depth r => writeNodes_stopsAt depth children r
    have hframe (depth : Nat) (view : Value) (r : Run σ) : StopsAt
        (handoversAll s render body depth children { r with scope := r.scope.push view })
        ((inFrame view (writeNodes s render (blockText none) depth children)).run r)
        ((inFrame view (writeNodes s render body depth children)).run r) :=
      (hchildren depth _).inFrame
    rw [Node.write, Node.write, Node.handovers]
    refine .after fun value after => ?_
    unfold Value.bodyUse
    cases htruthy : value.isTruthy with
    | false =>
      rw [Value.frames_of_falsy htruthy]
      show StopsAt _ (some (.ok "", after)) (some (.ok "", after))
      cases s.options.descend depth with
      | ok => exact .never
      | error => exact .never
    | true =>
      unfold Value.frames Setup.descend
      rw [htruthy]
      cases value with
      | array items =>
        exact .descending (s.options.descend depth) fun below =>
          .each (fun view r => hframe below view r) items after
      | object | string | int | float =>
        exact .descending (s.options.descend depth) fun below =>
          .only (fun view r => hframe below view r) _ after
      | transformer handle => exact .first rfl rfl
      | null | bool | getter => exact hchildren depth after
  | .inverted key _ _ children _ => by
    have hchildren := fun r => writeNodes_stopsAt depth children r
    rw [write_inverted, write_inverted, Node.handovers]
    refine .after fun value after => ?_
    split
    · exact hchildren after
    · exact .never

theorem writeNodes_stopsAt (depth : Nat) (ns : List Node) (r : Run σ) :
    StopsAt (handoversAll s render body depth ns r)
      ((writeNodes s render (blockText none) depth ns).run r)
      ((writeNodes s render body depth ns).run r) :=
  match ns with
  | [] => .never
  | n :: ns => (write_stopsAt depth n r).append (writeNodes_stopsAt depth ns)

end

/-! ## Templates and their trees -/

theorem SameOutcome.map_toOption {ρ₁ ρ₂ : Type} {R : ρ₁ → ρ₂ → Prop} {F : Fault → ρ₁ → ρ₂ → Prop}
    {o₁ : Option (Except Fault α × ρ₁)} {o₂ : Option (Except Fault α × ρ₂)}
    (h : SameOutcome R F Eq o₁ o₂) :
    o₁.map (fun outcome => outcome.1.toOption) = o₂.map fun outcome => outcome.1.toOption := by
  cases h with
  | none | error => rfl
  | ok hresult => exact congrArg (fun a => some (some a)) hresult

/-- The handovers of a tree that is rendered with its source. -/
def Setup.handovers (s : Setup σ) (budget : Nat) (nodes : List Node) (source : String)
    (r : Run σ) : List (Handover σ) :=
  handoversAll s (s.renderAt budget) (blockText (some source)) 0 nodes r

/-- To render a template is to read it, and to render the tree with the template as its source. -/
theorem render_renderTree (s : Setup σ) {template : String} {nodes : List Node}
    (hparse : parse s.delimiters template = .ok nodes) (budget : Nat) {r₁ r₂ : Run σ}
    (hruns : (unshelved σ).Runs r₁ r₂) :
    (unshelved σ).Outcomes Eq ((s.render (budget + 1) template).run r₁)
      ((s.renderTree budget nodes (some template)).run r₂) := by
  obtain ⟨hread, hsound⟩ := s.engine.read_spec s.options.delimiters template hruns.sound₁
  change _ = parse s.delimiters template at hread
  rw [hparse] at hread
  rw [Setup.render, Setup.renderAt, RenderM.run_bind, RenderM.run_tree]
  generalize s.engine.read s.options.delimiters template r₁.shelf = read at hread hsound ⊢
  obtain ⟨result, shelf⟩ := read
  cases result with
  | error fault => cases hread
  | ok tree =>
    obtain rfl := Except.ok.inj hread
    exact unshelved.renderTree rfl s.callables s.options s.inclusions budget tree.nodes
      (some template) { r₁ with shelf } r₂
      ⟨hruns.memory, hruns.scope, trivial, hsound, hruns.sound₂⟩

/-- A template and its tree are rendered alike, in every scope and whatever trees are kept: the same
text or fault comes out, and the callables and the scope are left in the same state. Without its
source the tree is rendered in the same way too, if none of its own blocks comes upon a transformer;
else the first one that does so ends the rendering. -/
theorem tree_renders_as_template (s : Setup σ) {template : String} {nodes : List Node}
    (hparse : parse s.delimiters template = .ok nodes) (budget : Nat) {r₁ r₂ : Run σ}
    (hruns : (unshelved σ).Runs r₁ r₂) :
    (unshelved σ).Outcomes Eq ((s.render (budget + 1) template).run r₁)
      ((s.renderTree budget nodes (some template)).run r₂) ∧
    StopsAt (s.handovers budget nodes template r₂) ((s.renderTree budget nodes none).run r₂)
      ((s.renderTree budget nodes (some template)).run r₂) :=
  ⟨render_renderTree s hparse budget hruns, writeNodes_stopsAt 0 nodes r₂⟩

end

/-- A text to include with a block for a transformer. -/
def bracketsSetup : Setup CallCounts where
  engine := {}
  inclusions := some fun name =>
    if name = "p" then some "\x7b\x7b#f\x7d\x7dy\x7b\x7b/f\x7d\x7d" else none
  callables := .ofRecipes #[.transformer (.wrap "[" "]")]

def bracketsRun : Run CallCounts where
  memory := []
  shelf := {}
  scope := .root (.object [("f", .transformer 0)])

def bracketsTemplate : String := "\x7b\x7b>p\x7d\x7d\x7b\x7b#f\x7d\x7dx\x7b\x7b/f\x7d\x7d"

def bracketsNodes : List Node :=
  [.inclusion "p" 0 6 ⟨[], 0, false⟩, .block "f" 6 12 [.text "x" 12 13] 13]

/-- The block in the inclusion is rendered, with the source and without. -/
theorem tree_renders_as_template_brackets :
    parse .standard bracketsTemplate = .ok bracketsNodes ∧
    ((bracketsSetup.renderTree 3 bracketsNodes (some bracketsTemplate)).run bracketsRun).map
      (fun outcome => outcome.1.toOption) = some (some "[y][x]") ∧
    ∃ after, (bracketsSetup.renderTree 3 bracketsNodes none).run bracketsRun =
      some (.error (.unsupported .noSource), after) ∧ after.memory.count 0 = 1 := by
  have hparse : parse bracketsSetup.delimiters bracketsTemplate = .ok bracketsNodes := by
    decide +kernel
  have hruns : (unshelved CallCounts).Runs bracketsRun bracketsRun :=
    ⟨rfl, rfl, trivial, Shelf.sound_empty, Shelf.sound_empty⟩
  have hrendered : ((bracketsSetup.render 4 bracketsTemplate).run bracketsRun).map
      (fun outcome => outcome.1.toOption) = some (some "[y][x]") := by decide +kernel
  have hhandovers : (bracketsSetup.handovers 3 bracketsNodes bracketsTemplate bracketsRun).map
      (fun handover => (handover.key, handover.run.memory.count 0)) = [("f", 1)] := by
    decide +kernel
  obtain ⟨hsame, hstops⟩ := tree_renders_as_template bracketsSetup hparse 3 hruns
  obtain ⟨handover, hlist, hcalled⟩ := List.map_eq_singleton_iff.1 hhandovers
  refine ⟨hparse, hsame.map_toOption.symm.trans hrendered, ?_⟩
  rw [hlist] at hstops
  generalize (bracketsSetup.renderTree 3 bracketsNodes none).run bracketsRun = bare at hstops ⊢
  cases hstops with
  | first hmemory =>
    refine ⟨_, rfl, ?_⟩
    rw [hmemory]
    exact (Prod.mk.inj hcalled).2

end TagTemplate
