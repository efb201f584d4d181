import TagTemplate.Proofs.Engine.Faithful
import TagTemplate.Proofs.Engine.Mirror

/-!
# Lookups in live frames

A chain of frames on which names are looked up, from any of its frames, and templates are rendered,
in any order. Main statement: `lookups_without_memory`, each of these acts replies as if no frame
remembered anything, and looking a name up yields what the name denotes, a getter being asked once.
-/

namespace TagTemplate

/-! ## Acts on a chain of frames -/

/-- Something that is done with a chain of frames. -/
inductive FrameAct where
  | push (view : Value)
  | pop
  /-- Looks a name up from the frame so many steps outward. -/
  | lookup (steps : Nat) (name : String)
  /-- Renders a template in the frame so many steps outward. -/
  | render (steps : Nat) (template : String) (inclusions : Option Inclusions) (options : Options)

inductive FrameReply where
  | done
  | value (result : Except Fault Value)
  | text (result : Except Fault String)

section

variable {σ : Type}

/-- Does something in the frame around the innermost one, if there is one. -/
def outside {α : Type} (body : RenderM σ α) : RenderM σ α := ExceptT.mk fun run =>
  match run.scope.outer with
  | [] => body.run run
  | frame :: outer =>
    (body.run { run with scope := { frame, outer } }).map fun (result, after) =>
      (result, { after with
        scope := { frame := run.scope.frame, outer := after.scope.frame :: after.scope.outer } })

/-- Does something in the frame so many steps outward. -/
def outward {α : Type} (body : RenderM σ α) : Nat → RenderM σ α
  | 0 => body
  | steps + 1 => outside (outward body steps)

namespace FrameAct

variable (e : Engine) (callables : Callables σ) (budget : Nat)

/-- The reply to an act, and what goes on to the next one. -/
def run (r : Run σ) : FrameAct → Option (FrameReply × Run σ)
  | .push view => some (.done, { r with scope := r.scope.push view })
  | .pop => some (.done, { r with scope := r.scope.pop })
  | .lookup steps name =>
    ((outward (Setup.lookup { engine := e, callables } name) steps).run r).map
      fun (result, r) => (.value result, r)
  | .render steps template inclusions options =>
    ((outward (Setup.render { engine := e, options, inclusions, callables } budget template)
      steps).run r).map fun (result, r) => (.text result, r)

def runAll (r : Run σ) : List FrameAct → Option (List FrameReply × Run σ)
  | [] => some ([], r)
  | act :: acts => (act.run e callables budget r).bind fun (reply, r) =>
    (runAll r acts).map fun (replies, r) => (reply :: replies, r)

/-- The reply to an act when nothing is remembered, and where this leads. -/
def runPlainly (here : Standpoint) (c : Course σ) :
    FrameAct → Option (FrameReply × Standpoint × Course σ)
  | .push view => some (.done, here.push view, c)
  | .pop => some (.done, here.pop, c)
  | .lookup steps name =>
    ((Setup.seek { engine := e, callables } (here.outward steps) name).run c).map
      fun (result, c) => (.value result, here, c)
  | .render steps template inclusions options =>
    ((Setup.renderPlainly { engine := e, options, inclusions, callables } budget
      (here.outward steps) 0 template).run c).map fun (result, c) => (.text result, here, c)

def runAllPlainly (here : Standpoint) (c : Course σ) :
    List FrameAct → Option (List FrameReply × Standpoint × Course σ)
  | [] => some ([], here, c)
  | act :: acts => (act.runPlainly e callables budget here c).bind fun (reply, here, c) =>
    (runAllPlainly here c acts).map fun (replies, here, c) => (reply :: replies, here, c)

end FrameAct

/-! ## Acts beside plain acts -/

variable {α β : Type} {V : α → β → Prop} {here : Standpoint}

/-- What is done one frame outward leaves the frames inside as they were. -/
theorem Mirrors.outside {m : RenderM σ α} {p : PlainM σ β} (h : Mirrors here.pop V m p) :
    Mirrors here V (outside m) p := by
  rintro ⟨memory, shelf, ⟨frame, outer⟩⟩ c ⟨hmemory, hasked, rfl, hfaithful, hsound⟩
  cases outer with
  | nil => exact h _ c ⟨hmemory, hasked, rfl, hfaithful, hsound⟩
  | cons next outer =>
    have hinner := h ⟨memory, shelf, ⟨next, outer⟩⟩ c ⟨hmemory, hasked, rfl, hfaithful.2, hsound⟩
    -- the frames outward have the views that they had, so the innermost one is faithful as before
    have hback {r' : Run σ} {c' : Course σ} (h : Beside ⟨next.view, outer.map Frame.view⟩ r' c') :
        Beside ⟨frame.view, (next :: outer).map Frame.view⟩
          { r' with scope := ⟨frame, r'.scope.frame :: r'.scope.outer⟩ } c' := by
      obtain ⟨memory', shelf', ⟨next', outer'⟩⟩ := r'
      obtain ⟨hmemory', hasked', hplace, hfaithful', hsound'⟩ := h
      obtain ⟨hview, houter⟩ :
          next'.view = next.view ∧ outer'.map Frame.view = outer.map Frame.view :=
        Standpoint.mk.inj hplace
      have hviews : (next' :: outer').map Frame.view = (next :: outer).map Frame.view := by
        rw [List.map_cons, List.map_cons, hview, houter]
      refine ⟨hmemory', hasked', congrArg (Standpoint.mk frame.view) hviews, ?_, hsound'⟩
      refine ⟨?_, hfaithful'⟩
      rw [hviews]
      exact hfaithful.1
    show SameOutcome _ _ _ ((m.run ⟨memory, shelf, ⟨next, outer⟩⟩).map _) _
    generalize m.run ⟨memory, shelf, ⟨next, outer⟩⟩ = o₁, p.run c = o₂ at hinner
    cases hinner with
    | none => exact .none
    | ok hv hafter => exact .ok hv (hback hafter)
    | error _ hafter => exact .error trivial (hback hafter)

theorem Mirrors.outward {m : RenderM σ α} {p : Standpoint → PlainM σ β}
    (h : ∀ here, Mirrors here V m (p here)) (steps : Nat) (here : Standpoint) :
    Mirrors here V (outward m steps) (p (here.outward steps)) := by
  induction steps generalizing here with
  | zero => exact h here
  | succ steps ih => exact (ih here.pop).outside

/-- Two outcomes of acts that are the same, the one with frames that remember. -/
inductive SameReplies {ρ : Type} :
    Option (ρ × Run σ) → Option (ρ × Standpoint × Course σ) → Prop
  | none : SameReplies none none
  | some {reply : ρ} {here : Standpoint} {r : Run σ} {c : Course σ} :
      Beside here r c → SameReplies (some (reply, r)) (some (reply, here, c))

/-- What is done in the frames leaves the chain where it stands. -/
theorem Mirrors.sameReplies {m : RenderM σ α} {p : PlainM σ α} (h : Mirrors here Eq m p)
    (reply : Except Fault α → FrameReply) {r : Run σ} {c : Course σ} (hrun : Beside here r c) :
    SameReplies ((m.run r).map fun (result, r) => (reply result, r))
      ((p.run c).map fun (result, c) => (reply result, here, c)) := by
  have hsame := h r c hrun
  generalize m.run r = o₁, p.run c = o₂ at hsame
  cases hsame with
  | none => exact .none
  | ok hv hafter => exact hv ▸ .some hafter
  | error _ hafter => exact .some hafter

variable (e : Engine) (callables : Callables σ) (budget : Nat)

/-- An act replies as if nothing were remembered, and leaves frames that remember only what they
would find again. -/
theorem FrameAct.run_sameReplies {r : Run σ} {c : Course σ} (h : Beside here r c)
    (act : FrameAct) :
    SameReplies (act.run e callables budget r) (act.runPlainly e callables budget here c) := by
  cases act with
  | push view =>
    refine .some ⟨h.memory, h.asked, ?_, h.faithful.push view, h.sound⟩
    rw [← h.place]
    rfl
  | pop =>
    refine .some ⟨h.memory, h.asked, ?_, h.faithful.pop, h.sound⟩
    rw [← h.place, Scope.pop]
    obtain ⟨frame, _ | ⟨next, outer⟩⟩ := r.scope <;> rfl
  | lookup steps name =>
    exact (Mirrors.outward (fun here => mirrors_lookup _ name) steps here).sameReplies .value h
  | render steps template inclusions options =>
    exact (Mirrors.outward (fun here => mirrors_renderAt _ budget here 0 template) steps
      here).sameReplies .text h

theorem FrameAct.runAll_sameReplies (acts : List FrameAct) {here : Standpoint} {r : Run σ}
    {c : Course σ} (h : Beside here r c) :
    SameReplies (FrameAct.runAll e callables budget r acts)
      (FrameAct.runAllPlainly e callables budget here c acts) := by
  induction acts generalizing here r c with
  | nil => exact .some h
  | cons act acts ih =>
    have hact := act.run_sameReplies e callables budget h
    rw [FrameAct.runAll, FrameAct.runAllPlainly]
    generalize act.run e callables budget r = o₁,
      act.runPlainly e callables budget here c = o₂ at hact
    cases hact with
    | none => exact .none
    | some hafter =>
      have hacts := ih hafter
      simp only [Option.bind_some]
      generalize FrameAct.runAll e callables budget _ acts = o₁,
        FrameAct.runAllPlainly e callables budget _ _ acts = o₂ at hacts
      cases hacts with
      | none => exact .none
      | some hafter => exact .some hafter

/-- Whatever is looked up from the frames of a chain and rendered in them, each act replies, calls
the callables and moves in the chain as if nothing were remembered; and then looking a name up
yields what the name denotes at its place. -/
theorem lookups_without_memory {e : Engine} {callables : Callables σ} {session : Session σ}
    (hreaches : e.Reaches callables session) (budget : Nat) (view : Value)
    (acts : List FrameAct) :
    (FrameAct.runAll e callables budget ⟨session.memory, session.shelf, .root view⟩ acts).map
        (fun (replies, r) => (replies, r.memory, r.scope.standpoint)) =
      (FrameAct.runAllPlainly e callables budget ⟨view, []⟩
        ⟨session.memory, session.shelf.askedNames⟩ acts).map
          (fun (replies, here, c) => (replies, c.memory, here)) ∧
    ∀ (here : Standpoint) (name : String) (c c' : Course σ) (result : Except Fault Value),
      (Setup.seek { engine := e, callables } here name).run c = some (result, c') ↔
        ∃ w, result = .ok w ∧ here.Yields callables name c.memory w c'.memory ∧
          c'.asked = c.asked := by
  refine ⟨?_, fun here name c c' result => run_seek_iff⟩
  have hstart : Beside ⟨view, []⟩ ⟨session.memory, session.shelf, .root view⟩
      ⟨session.memory, session.shelf.askedNames⟩ :=
    ⟨rfl, rfl, rfl, Scope.faithful_root view, hreaches.sound⟩
  have hsame := FrameAct.runAll_sameReplies e callables budget acts hstart
  generalize FrameAct.runAll e callables budget _ acts = o₁,
    FrameAct.runAllPlainly e callables budget _ _ acts = o₂ at hsame
  cases hsame with
  | none => rfl
  | some hafter =>
    simp only [Option.map_some]
    rw [hafter.memory, hafter.place]

end

/-- A getter that counts its calls, looked up twice from one frame and once from a frame inside. -/
theorem lookups_without_memory_counted :
    Engine.Reaches {} (.ofRecipes #[.getter .callCount]) (.fresh [] fun _ => .root .null) ∧
    (FrameAct.runAll {} (.ofRecipes #[.getter .callCount]) ampleBudget
      ⟨[], {}, .root (.object [("n", .getter 0)])⟩
      [.lookup 0 "n", .push .null, .lookup 0 "n", .lookup 1 "n", .lookup 0 "m"]).map (·.1) =
        some [.value (.ok (.ofCount 1)), .done, .value (.ok (.ofCount 2)),
          .value (.ok (.ofCount 3)), .value (.ok .null)] := by
  have hreaches : Engine.Reaches {} (.ofRecipes #[.getter .callCount])
      (.fresh [] fun _ => .root .null) := .fresh _ _
  have hruns := (lookups_without_memory hreaches ampleBudget (.object [("n", .getter 0)])
    [.lookup 0 "n", .push .null, .lookup 0 "n", .lookup 1 "n", .lookup 0 "m"]).1
  have hreplies := congrArg (Option.map Prod.fst) hruns
  rw [Option.map_map, Option.map_map] at hreplies
  exact ⟨hreaches, hreplies⟩

end TagTemplate
