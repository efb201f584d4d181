import TagTemplate.Proofs.Engine.Plain

/-!
# What all parts of a rendering keep

A discipline is something shown of parts of plain renderings, as functions of the budget. What the
steps of a tree keep, the whole tree keeps: `Covers.writeNodes`. Main statement: `steady_render`, an
outcome stays the same when the budget grows.
-/

namespace TagTemplate

/-- Something that can be shown of a part of a plain rendering, as a function of the budget,
together with a property of its result. Doing nothing keeps it, and so does one thing after
another. -/
structure Discipline (σ : Type) where
  Keeps : {α : Type} → (α → Prop) → (Nat → PlainM σ α) → Prop
  pure : ∀ {α : Type} {V : α → Prop} {a : α}, V a → Keeps V fun _ => pure a
  bind : ∀ {α β : Type} {V : α → Prop} {W : β → Prop} {p : Nat → PlainM σ α}
    {f : α → Nat → PlainM σ β}, Keeps V p → (∀ a, V a → Keeps W (f a)) →
      Keeps W fun budget => p budget >>= fun a => f a budget

section

variable {σ : Type}

/-- The steps that writing some nodes can take, at a depth or below it, keep a discipline: at the
places `Place`, and with the values `Fine`. A transformer is one that the key of its block finds. -/
structure Covers (D : Discipline σ) (s : Setup σ)
    (render : Nat → Standpoint → Nat → String → PlainM σ String) (body : BlockText) (low : Nat)
    (Place : Standpoint → Prop) (Fine : Value → Prop) (ns : List Node) : Prop where
  push : ∀ {here view}, Place here → Fine view → Place (here.push view)
  item : ∀ {items item}, Fine (.array items) → item ∈ items → Fine item
  seek : ∀ {here} key, Place here →
    D.Keeps (fun v => Fine v ∧ s.Finds here key v) fun _ => s.seek here key
  descend : ∀ depth, D.Keeps (fun below => s.options.descend depth = .ok below) fun _ =>
    PlainM.lift (s.options.descend depth)
  inclusion : ∀ {here depth key start stop margin}, low ≤ depth → Place here →
    .inclusion key start stop margin ∈ ns → D.Keeps (fun _ => True) fun budget =>
      (Node.inclusion key start stop margin).writePlainly s (render budget) body depth here
  transform : ∀ {here depth key start bodyStart children bodyStop handle}, low ≤ depth →
    Place here → Fine (.transformer handle) → s.Finds here key (.transformer handle) →
    .block key start bodyStart children bodyStop ∈ ns →
    D.Keeps (fun _ => True) fun budget => do
      let text ← PlainM.lift (body key bodyStart bodyStop)
      (s.callables.transform handle (← get).memory text).performPlainly (render budget here depth)

theorem Options.descend_lt {o : Options} {depth below : Nat} (h : o.descend depth = .ok below) :
    depth < below := by
  rw [descend] at h
  split at h
  · split at h
    · cases h
    · cases h
      exact Nat.lt_succ_self depth
  · cases h
    exact Nat.lt_succ_self depth

/-! ## Trees -/

section

variable {D : Discipline σ} {s : Setup σ}
  {render : Nat → Standpoint → Nat → String → PlainM σ String} {body : BlockText} {low : Nat}
  {Place : Standpoint → Prop} {Fine : Value → Prop} {all : List Node}

theorem Discipline.append {p q : Nat → PlainM σ String} {V W : String → Prop} (hp : D.Keeps V p)
    (hq : D.Keeps W q) : D.Keeps (fun _ => True) fun budget => do
      let first ← p budget
      let rest ← q budget
      return first ++ rest :=
  D.bind hp fun _ _ => D.bind hq fun _ _ => D.pure trivial

theorem Discipline.each {α : Type} {write : Nat → α → PlainM σ String} (xs : List α)
    (h : ∀ x ∈ xs, D.Keeps (fun _ => True) fun budget => write budget x) :
    D.Keeps (fun _ => True) fun budget => PlainM.each (write budget) xs := by
  induction xs with
  | nil => exact D.pure trivial
  | cons x xs ih =>
    exact D.append (h x List.mem_cons_self) (ih fun y hy => h y (List.mem_cons_of_mem x hy))

mutual

theorem Covers.write (h : Covers D s render body low Place Fine all) {depth : Nat}
    {here : Standpoint} (hlow : low ≤ depth) (hplace : Place here) (n : Node)
    (hn : n.flatten ⊆ all) : D.Keeps (fun _ => True) fun budget =>
      n.writePlainly s (render budget) body depth here :=
  match n with
  | .text text _ _ => D.pure trivial
  | .escaped key _ _ => by
    simp only [Node.writePlainly]
    exact D.bind (h.seek key hplace) fun value _ => D.pure trivial
  | .unescaped key _ _ => by
    simp only [Node.writePlainly]
    exact D.bind (h.seek key hplace) fun value _ => D.pure trivial
  | .block key start bodyStart children bodyStop => by
    have hchildren {depth : Nat} {here : Standpoint} (hlow : low ≤ depth) (hplace : Place here) :=
      h.writeNodes hlow hplace children fun n hmem => hn (List.mem_cons_of_mem _ hmem)
    -- a frame of its own lies deeper, and its view is fine
    have hframe {view : Value} (hview : Fine view) : D.Keeps (fun _ => True) (fun budget => do
        let depth ← PlainM.lift (s.options.descend depth)
        writePlainly s (render budget) body depth (here.push view) children) :=
      D.bind (h.descend depth) fun below hbelow =>
        hchildren (Nat.le_trans hlow (Nat.le_of_lt (Options.descend_lt hbelow)))
          (h.push hplace hview)
    simp only [Node.writePlainly]
    refine D.bind (h.seek key hplace) fun value hvalue => ?_
    obtain ⟨hvalue, hfound⟩ := hvalue
    split
    · exact D.pure trivial
    · cases value with
      | array items =>
        exact D.bind (h.descend depth) fun below hbelow => D.each items fun item hitem =>
          hchildren (Nat.le_trans hlow (Nat.le_of_lt (Options.descend_lt hbelow)))
            (h.push hplace (h.item hvalue hitem))
      | object | string | int | float => exact hframe hvalue
      | transformer handle => exact h.transform hlow hplace hvalue hfound (hn List.mem_cons_self)
      | null | bool | getter => exact hchildren hlow hplace
  | .inverted key start bodyStart children bodyStop => by
    simp only [Node.writePlainly]
    refine D.bind (h.seek key hplace) fun value hvalue => ?_
    generalize (!value.isTruthy || _) = falsy
    cases falsy with
    | true => exact h.writeNodes hlow hplace children fun n hmem => hn (List.mem_cons_of_mem _ hmem)
    | false => exact D.pure trivial
  | .inclusion key start stop margin => h.inclusion hlow hplace (hn List.mem_cons_self)

/-- What the steps of a tree keep, the whole tree keeps. -/
theorem Covers.writeNodes (h : Covers D s render body low Place Fine all) {depth : Nat}
    {here : Standpoint} (hlow : low ≤ depth) (hplace : Place here) (ns : List Node)
    (hns : Node.flatten.flattenAll ns ⊆ all) : D.Keeps (fun _ => True) fun budget =>
      writePlainly s (render budget) body depth here ns :=
  match ns with
  | [] => D.pure trivial
  | n :: ns => D.append
      (h.write hlow hplace n fun _ hn => hns (List.mem_append_left _ hn))
      (h.writeNodes hlow hplace ns fun _ hn => hns (List.mem_append_right _ hn))

end

end

/-! ## Outcomes that stay when the budget grows -/

/-- Every result has a property, and an outcome under some budget is the outcome under every larger
one. -/
structure Steady {α : Type} (V : α → Prop) (p : Nat → PlainM σ α) : Prop where
  result : ∀ {budget c a c'}, (p budget).run c = some (.ok a, c') → V a
  stays : ∀ {budget larger c o}, budget ≤ larger → (p budget).run c = some o →
    (p larger).run c = some o

namespace Steady

variable {α β : Type} {V : α → Prop} {W : β → Prop}

theorem constant {p : PlainM σ α} (h : ∀ {c a c'}, p.run c = some (.ok a, c') → V a) :
    Steady V fun _ => p where
  result := h
  stays _ h := h

theorem pure {a : α} (h : V a) : Steady V fun _ => (Pure.pure a : PlainM σ α) :=
  .constant fun hrun => by
    cases hrun
    exact h

theorem bind {p : Nat → PlainM σ α} {f : α → Nat → PlainM σ β} (hp : Steady V p)
    (hf : ∀ a, V a → Steady W (f a)) : Steady W fun budget => p budget >>= fun a => f a budget where
  result {budget c b c'} h := by
    rw [PlainM.run_bind] at h
    split at h
    · cases h
    · cases h
    · next a c' hrun => exact (hf a (hp.result hrun)).result h
  stays {budget larger c o} hle h := by
    rw [PlainM.run_bind] at h ⊢
    split at h
    · cases h
    · next hrun =>
      rw [hp.stays hle hrun]
      exact h
    · next a c' hrun =>
      rw [hp.stays hle hrun]
      exact (hf a (hp.result hrun)).stays hle h

/-- Something that has no use for a budget, and what is done after it. -/
theorem after {p : PlainM σ α} {f : α → Nat → PlainM σ β} (hf : ∀ a, Steady W (f a)) :
    Steady W fun budget => p >>= fun a => f a budget :=
  bind (V := fun _ => True) (.constant fun _ => trivial) fun a _ => hf a

theorem perform {render : Nat → String → PlainM σ String}
    (hrender : ∀ template, Steady (fun _ => True) fun budget => render budget template)
    (w : Script σ) : Steady (fun _ => True) fun budget => w.performPlainly (render budget) where
  result _ := trivial
  stays {budget larger c o} hle h := by
    induction w generalizing c with
    | done | fail => exact h
    | render memory template next ih =>
      rw [PlainM.run_perform_render] at h ⊢
      split at h
      · cases h
      · next outcome c' hrun =>
        rw [(hrender template).stays hle hrun]
        exact ih _ _ h

end Steady

def Discipline.steady (σ : Type) : Discipline σ where
  Keeps := Steady
  pure := .pure
  bind := .bind

/-- Where the renderings of templates inside are steady, writing a tree is. -/
theorem steady_covers (s : Setup σ) {render : Nat → Standpoint → Nat → String → PlainM σ String}
    (hrender : ∀ here depth template, Steady (fun _ => True) fun budget =>
      render budget here depth template) (body : BlockText) (ns : List Node) :
    Covers (.steady σ) s render body 0 (fun _ => True) (fun _ => True) ns where
  push _ _ := trivial
  item _ _ := trivial
  seek key _ := .constant fun hrun => ⟨trivial, Setup.finds_of_run hrun⟩
  descend depth := .constant fun h => by
    rw [PlainM.run_lift] at h
    exact (Prod.mk.inj (Option.some.inj h)).1
  inclusion {here depth key start stop margin} _ _ _ := by
    simp only [Node.writePlainly]
    refine .after fun text => ?_
    cases text with
    | none => exact .pure trivial
    | some text => exact .after fun depth => hrender here depth _
  transform {here depth key start bodyStart children bodyStop handle} _ _ _ _ _ :=
    .after fun text => ⟨fun _ => trivial, fun {budget larger c o} hle h =>
      (Steady.perform (hrender here depth)
        (s.callables.transform handle c.memory text)).stays hle h⟩

/-- One level of budget more. -/
theorem Steady.succ {α : Type} {V : α → Prop} {p q : Nat → PlainM σ α} (hp : Steady V p)
    (hzero : q 0 = .exhausted) (hsucc : ∀ budget, q (budget + 1) = p budget) : Steady V q where
  result {budget c a c'} h := by
    cases budget with
    | zero => rw [hzero] at h; cases h
    | succ budget => exact hp.result (hsucc budget ▸ h)
  stays {budget larger c o} hle h := by
    cases budget with
    | zero => rw [hzero] at h; cases h
    | succ budget =>
      obtain ⟨larger, rfl⟩ := Nat.exists_eq_add_one_of_ne_zero (Nat.ne_zero_of_lt hle)
      rw [hsucc] at h ⊢
      exact hp.stays (Nat.le_of_succ_le_succ hle) h

/-- Rendering is steady up to any bound on the budget. -/
theorem steady_capped (s : Setup σ) (cap : Nat) (here : Standpoint) (depth : Nat)
    (template : String) :
    Steady (fun _ => True) fun budget => s.renderPlainly (min budget cap) here depth template := by
  induction cap generalizing here depth template with
  | zero =>
    simp only [Nat.min_zero]
    exact .constant fun _ => trivial
  | succ cap ih =>
    refine Steady.succ (p := fun budget => do
        let nodes ← PlainM.lift (parse s.delimiters template)
        writePlainly s (s.renderPlainly (min budget cap)) (blockText (some template)) depth here
          nodes)
      ?_ ?_ ?_
    · exact .after fun nodes => (steady_covers s ih _ _).writeNodes (Nat.zero_le depth) trivial
        nodes (List.Subset.refl _)
    · simp only [Nat.zero_min]
      rfl
    · intro budget
      rw [Nat.succ_min_succ]
      rfl

/-- An outcome of a rendering stays the same when the budget grows. -/
theorem steady_render (s : Setup σ) (here : Standpoint) (depth : Nat) (template : String) :
    Steady (fun _ => True) fun budget => s.renderPlainly budget here depth template where
  result _ := trivial
  stays {budget larger c o} hle h := by
    have hcapped := (steady_capped s larger here depth template).stays hle (o := o) (c := c)
    rw [Nat.min_eq_left hle, Nat.min_self] at hcapped
    exact hcapped h

/-- Two runs from one start have one outcome, whatever their budgets. -/
theorem run_renderPlainly_unique {s : Setup σ} {here : Standpoint} {depth : Nat} {template : String}
    {budget budget' : Nat} {c : Course σ} {o o' : Except Fault String × Course σ}
    (h : (s.renderPlainly budget here depth template).run c = some o)
    (h' : (s.renderPlainly budget' here depth template).run c = some o') : o = o' := by
  have hsteady := steady_render s here depth template
  have hlarge := hsteady.stays (Nat.le_max_left budget budget') h
  rw [hsteady.stays (Nat.le_max_right budget budget') h'] at hlarge
  exact (Option.some.inj hlarge).symm

end

end TagTemplate
