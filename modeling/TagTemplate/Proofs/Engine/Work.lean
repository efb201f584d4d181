import TagTemplate.Proofs.Engine.Plain
import TagTemplate.Proofs.Engine.Transparency

/-!
# What calls do with the shelf

A shelf changes in three ways only: a template is read, a text to include is asked for, the shelf
is cleared. Which of this a call does, and in which order, is listed without any kept tree, by a
rendering that reads every template anew when its turn comes and notes it down
(`Setup.renderNoting`, `Engine.allDeeds`). Main statement: `answerAll_works`, whatever is called,
the shelf is what the listed deeds, one after the other, make of it.
-/

namespace TagTemplate

/-- One thing that is done with a shelf. -/
inductive Deed where
  | read (template : String) (delimiters : Delimiters)
  | ask (name : String)
  | clear
  deriving DecidableEq

namespace Engine

/-- The shelf after a deed. -/
def deed (e : Engine) (s : Shelf) : Deed → Shelf
  | .read template d => (e.read (some d) template s).2
  | .ask name => s.note (.asked name)
  | .clear => e.clear s

/-- The shelf after deeds, one after the other. -/
def work (e : Engine) (s : Shelf) (deeds : List Deed) : Shelf := deeds.foldl e.deed s

variable {e : Engine} {s : Shelf}

theorem work_append (a b : List Deed) : e.work s (a ++ b) = e.work (e.work s a) b :=
  List.foldl_append

theorem deed_sound (hs : s.Sound) (d : Deed) : (e.deed s d).Sound := by
  cases d with
  | read template d => exact (e.read_spec (some d) template hs).2
  | ask name => exact hs.note _
  | clear => exact e.clear_sound hs

theorem work_sound (hs : s.Sound) (deeds : List Deed) : (e.work s deeds).Sound := by
  induction deeds generalizing s with
  | nil => exact hs
  | cons d deeds ih => exact ih (deed_sound hs d)

end Engine

/-! ## Listing -/

/-- The deed that an event tells of where no tree is kept. -/
def Event.deed? : Event → Option Deed
  | .reading template d => some (.read template d)
  | .asked name => some (.ask name)
  | .reused .. | .kept .. | .cleared => none

/-- The deeds that the journal of a shelf without trees tells of, in order. -/
def Shelf.noted (s : Shelf) : List Deed := s.journal.reverse.filterMap Event.deed?

section

variable {σ : Type}

/-- Reads a template anew and notes it down. No tree is sought, and none is kept. -/
def Setup.readNoting (s : Setup σ) (template : String) : RenderM σ (List Node) := do
  modify fun run => { run with shelf := run.shelf.note (.reading template s.delimiters) }
  Setup.descend.liftExcept (parse s.delimiters template)

/-- The text of a template at a depth. What is read for it is noted down: the template itself; then,
where they stand in the template, each text that is included, as it is when it has been moved to
the right, and each template that a transformer asks for; and all that is read for these. None is
missed, since a node can have a template rendered only by the renderer that it is given. -/
def Setup.renderNoting (s : Setup σ) (budget depth : Nat) (template : String) :
    RenderM σ String :=
  match budget with
  | 0 => exhausted
  | budget + 1 => do
    let nodes ← s.readNoting template
    writeNodes s (s.renderNoting budget) (blockText (some template)) depth nodes

/-- What a rendering notes down if it starts without notes, and what goes on afterwards. -/
def Session.noting (session : Session σ) (scope : Scope) (body : RenderM σ String) :
    Option (List Deed × Session σ × Scope) :=
  (Session.renderIn { session with shelf := {} } scope body).map fun (_, after, scope) =>
    (after.shelf.noted, after, scope)

namespace Engine

variable (e : Engine) (budget : Nat) (callables : Callables σ)

/-- What a call does with the shelf, in order, and what goes on to the next call. The delimiters in
force are those of the call, or else those of the engine. -/
def deeds (session : Session σ) : Call → Option (List Deed × Session σ)
  | .read template delimiters => some ([.read template (delimiters.getD e.delimiters)], session)
  | .render template view inclusions options =>
    (session.noting (.root view)
      ({ engine := e, options, inclusions, callables : Setup σ }.renderNoting budget 0
        template)).map fun (deeds, session, _) => (deeds, session)
  | .renderIn template place inclusions options =>
    (session.noting (session.scopes place)
      ({ engine := e, options, inclusions, callables : Setup σ }.renderNoting budget 0
        template)).map fun (deeds, session, scope) => (deeds, session.keepScope place scope)
  | .renderTree nodes source view inclusions options =>
    let s : Setup σ := { engine := e, options, inclusions, callables }
    (session.noting (.root view)
      (writeNodes s (s.renderNoting budget) (blockText source) 0 nodes)).map
        fun (deeds, session, _) => (deeds, session)
  | .clear => some ([.clear], session)

/-- What each of several calls does with the shelf. -/
def allDeeds (session : Session σ) : List Call → Option (List (List Deed))
  | [] => some []
  | call :: calls =>
    (e.deeds budget callables session call).bind fun (deeds, session) =>
      (allDeeds session calls).map fun work => deeds :: work

end Engine

/-! ## What is listed -/

theorem Shelf.noted_note (s : Shelf) (event : Event) :
    (s.note event).noted = s.noted ++ event.deed?.toList := by
  rw [noted, note, List.reverse_cons, List.filterMap_append, ← noted, List.filterMap_cons]
  cases event.deed? <;> rfl

/-- A rendering clears no shelf. -/
theorem Shelf.clear_notMem_noted (s : Shelf) : .clear ∉ s.noted := by
  intro h
  obtain ⟨event, -, hevent⟩ := List.mem_filterMap.1 h
  cases event <;> cases hevent

theorem Session.clear_notMem_noting {session session' : Session σ} {scope scope' : Scope}
    {body : RenderM σ String} {deeds : List Deed}
    (h : session.noting scope body = some (deeds, session', scope')) : .clear ∉ deeds := by
  obtain ⟨⟨result, after, scope''⟩, -, heq⟩ := Option.map_eq_some_iff.1 h
  cases heq
  exact Shelf.clear_notMem_noted _

variable {e : Engine} {budget : Nat} {callables : Callables σ}

/-- Only a call to clear the shelf clears it. -/
theorem Engine.clear_mem_deeds_iff {session session' : Session σ} {call : Call}
    {deeds : List Deed} (h : e.deeds budget callables session call = some (deeds, session')) :
    .clear ∈ deeds ↔ call = .clear := by
  cases call with
  | read template delimiters =>
    cases h
    simp
  | clear =>
    cases h
    simp
  | render | renderIn | renderTree =>
    obtain ⟨⟨noted, after, scope⟩, hnoting, heq⟩ := Option.map_eq_some_iff.1 h
    cases heq
    exact ⟨fun hclear => absurd hclear (Session.clear_notMem_noting hnoting), nofun⟩

/-- What is listed for the first calls does not depend on the others. -/
theorem Engine.allDeeds_take {session : Session σ} {calls : List Call} {work : List (List Deed)}
    (h : e.allDeeds budget callables session calls = some work) (i : Nat) :
    e.allDeeds budget callables session (calls.take i) = some (work.take i) := by
  induction calls generalizing session work i with
  | nil =>
    cases h
    rw [List.take_nil, List.take_nil]
    rfl
  | cons call calls ih =>
    cases i with
    | zero => rfl
    | succ i =>
      obtain ⟨⟨deeds, after⟩, hcall, hcalls⟩ := Option.bind_eq_some_iff.1 h
      obtain ⟨rest, hrest, rfl⟩ := Option.map_eq_some_iff.1 hcalls
      rw [List.take_succ_cons, List.take_succ_cons, Engine.allDeeds, hcall]
      exact congrArg (Option.map (deeds :: ·)) (ih hrest i)

/-- The first calls are replied to as they are without the others. -/
theorem Engine.answerAll_take {session session' : Session σ} {calls : List Call}
    {replies : List (Except Fault Reply)}
    (h : e.answerAll budget callables session calls = some (replies, session')) (i : Nat) :
    ∃ middle, e.answerAll budget callables session (calls.take i) =
      some (replies.take i, middle) := by
  induction calls generalizing session replies i with
  | nil =>
    cases h
    rw [List.take_nil, List.take_nil]
    exact ⟨_, rfl⟩
  | cons call calls ih =>
    cases i with
    | zero => exact ⟨session, rfl⟩
    | succ i =>
      obtain ⟨⟨reply, after⟩, hcall, hrest⟩ := Option.bind_eq_some_iff.1 h
      obtain ⟨⟨rest, last⟩, hcalls, heq⟩ := Option.map_eq_some_iff.1 hrest
      cases heq
      obtain ⟨middle, hmiddle⟩ := ih hcalls i
      refine ⟨middle, ?_⟩
      rw [List.take_succ_cons, List.take_succ_cons, Engine.answerAll, hcall]
      simp only [Option.bind_some, hmiddle, Option.map_some]

/-- Each call has its own list. -/
theorem Engine.allDeeds_forall₂ {session : Session σ} {calls : List Call}
    {work : List (List Deed)} (h : e.allDeeds budget callables session calls = some work) :
    List.Forall₂ (fun call deeds => ∃ a b, e.deeds budget callables a call = some (deeds, b))
      calls work := by
  induction calls generalizing session work with
  | nil =>
    cases h
    exact .nil
  | cons call calls ih =>
    obtain ⟨⟨deeds, after⟩, hcall, hcalls⟩ := Option.bind_eq_some_iff.1 h
    obtain ⟨rest, hrest, rfl⟩ := Option.map_eq_some_iff.1 hcalls
    exact .cons ⟨session, after, hcall⟩ (ih hrest)

/-! ## Renderings beside their lists -/

/-- A run that began with a shelf, beside one that notes down what the first one does with it. -/
abbrev withNotes (σ : Type) (e : Engine) (start : Shelf) : Coupling σ σ :=
  .beside σ fun a b => a = e.work start b.noted

variable {s : Setup σ} {start : Shelf}

theorem notes_agrees (s : Setup σ) (start : Shelf) : (withNotes σ s.engine start).Agrees s s := by
  refine Coupling.beside_agrees fun name a b hshelf => ?_
  subst hshelf
  rw [Shelf.noted_note, Engine.work_append]
  rfl

/-- The template whose tree is taken from the shelf, or put there, is the one that is noted down. -/
theorem notes_tree (template : String) :
    (withNotes σ s.engine start).Related (fun tree nodes => tree.nodes = nodes) (s.tree template)
      (s.readNoting template) := by
  rintro ⟨memory, a, scope⟩ ⟨memory', b, scope'⟩ ⟨hmemory, hscope, hstart, hsound, hsound'⟩
  cases hmemory
  cases hscope
  change a = s.engine.work start b.noted at hstart
  subst hstart
  obtain ⟨hparse, hafter⟩ := s.engine.read_spec s.options.delimiters template hsound
  have hshelf : (s.engine.read s.options.delimiters template (s.engine.work start b.noted)).2 =
      s.engine.work start (b.note (.reading template s.delimiters)).noted := by
    rw [Shelf.noted_note, Engine.work_append]
    rfl
  have hrun : (s.readNoting template).run ⟨memory, b, scope⟩ =
      some (parse s.delimiters template,
        ⟨memory, b.note (.reading template s.delimiters), scope⟩) :=
    RenderM.run_liftExcept _ _
  rw [RenderM.run_tree, hrun, Setup.delimiters, ← hparse]
  generalize s.engine.read s.options.delimiters template (s.engine.work start b.noted) = read at *
  obtain ⟨result, shelf⟩ := read
  cases result with
  | ok tree => exact .ok rfl ⟨rfl, rfl, hshelf, hafter, hsound'.note _⟩
  | error fault => exact .error trivial ⟨rfl, rfl, hshelf, hafter, hsound'.note _⟩

/-- A rendering does with the shelf what is noted down. -/
theorem notes_renderAt (s : Setup σ) (start : Shelf) (budget depth : Nat) (template : String) :
    (withNotes σ s.engine start).Related Eq (s.renderAt budget depth template)
      (s.renderNoting budget depth template) := by
  induction budget generalizing depth template with
  | zero => exact .exhausted
  | succ budget ih =>
    rw [Setup.renderAt, Setup.renderNoting]
    refine (notes_tree template).bind fun tree nodes hnodes => ?_
    rw [hnodes]
    exact (notes_agrees s start).writeNodes ih depth nodes (Coupling.beside_sameBody _ _)

theorem notes_renderTree (s : Setup σ) (start : Shelf) (budget : Nat) (nodes : List Node)
    (source : Option String) :
    (withNotes σ s.engine start).Related Eq (s.renderTree budget nodes source)
      (writeNodes s (s.renderNoting budget) (blockText source) 0 nodes) :=
  (notes_agrees s start).writeNodes (notes_renderAt s start budget) 0 nodes
    (Coupling.beside_sameBody _ _)

/-! ## Calls beside their lists -/

/-- Two sessions that differ in their shelves only. -/
structure Session.Abreast (a b : Session σ) : Prop where
  memory : a.memory = b.memory
  scopes : a.scopes = b.scopes

variable {a a' b : Session σ}

/-- A rendering in a session does what is noted down in the session beside it. -/
theorem Session.Abreast.renderIn (h : a.Abreast b) (hsound : a.shelf.Sound)
    {m n : RenderM σ String} (hm : (withNotes σ e a.shelf).Related Eq m n) {scope scope' : Scope}
    {result : Except Fault String} (hrender : a.renderIn scope m = some (result, a', scope')) :
    ∃ deeds b', b.noting scope n = some (deeds, b', scope') ∧ a'.Abreast b' ∧
      a'.shelf = e.work a.shelf deeds := by
  have hstart : (withNotes σ e a.shelf).Sessions a { b with shelf := {} } :=
    ⟨h.memory, h.scopes, rfl, hsound, Shelf.sound_empty⟩
  have hsame := hstart.renderIn hm scope
  rw [hrender] at hsame
  rw [Session.noting]
  generalize Session.renderIn { b with shelf := {} } scope n = outcome at hsame ⊢
  cases hsame with
  | ok _ hafter =>
    obtain ⟨hsessions, rfl⟩ := hafter
    exact ⟨_, _, rfl, ⟨hsessions.memory, hsessions.scopes⟩, hsessions.shelf⟩
  | error _ hafter =>
    obtain ⟨hsessions, rfl⟩ := hafter
    exact ⟨_, _, rfl, ⟨hsessions.memory, hsessions.scopes⟩, hsessions.shelf⟩

/-- What is listed for a call is what it does with the shelf. -/
theorem Session.Abreast.answer (h : a.Abreast b) (hsound : a.shelf.Sound) {call : Call}
    {reply : Except Fault Reply} (hanswer : e.answer budget callables a call = some (reply, a')) :
    ∃ deeds b', e.deeds budget callables b call = some (deeds, b') ∧ a'.Abreast b' ∧
      a'.shelf = e.work a.shelf deeds := by
  cases call with
  | read template delimiters =>
    cases hanswer
    exact ⟨_, b, rfl, ⟨h.memory, h.scopes⟩, rfl⟩
  | clear =>
    cases hanswer
    exact ⟨_, b, rfl, ⟨h.memory, h.scopes⟩, rfl⟩
  | render template view inclusions options =>
    obtain ⟨⟨result, after, scope⟩, hrender, heq⟩ := Option.map_eq_some_iff.1 hanswer
    cases heq
    obtain ⟨deeds, b', hnoting, habreast, hshelf⟩ :=
      h.renderIn hsound (notes_renderAt _ a.shelf budget 0 template) hrender
    exact ⟨deeds, b', by rw [Engine.deeds, hnoting]; rfl, habreast, hshelf⟩
  | renderIn template place inclusions options =>
    obtain ⟨⟨result, after, scope⟩, hrender, heq⟩ := Option.map_eq_some_iff.1 hanswer
    cases heq
    obtain ⟨deeds, b', hnoting, habreast, hshelf⟩ :=
      h.renderIn hsound (notes_renderAt _ a.shelf budget 0 template) hrender
    rw [h.scopes] at hnoting
    refine ⟨deeds, b'.keepScope place scope, by rw [Engine.deeds, hnoting]; rfl,
      ⟨habreast.memory, ?_⟩, hshelf⟩
    rw [Session.keepScope, Session.keepScope, habreast.scopes]
  | renderTree nodes source view inclusions options =>
    obtain ⟨⟨result, after, scope⟩, hrender, heq⟩ := Option.map_eq_some_iff.1 hanswer
    cases heq
    obtain ⟨deeds, b', hnoting, habreast, hshelf⟩ :=
      h.renderIn hsound (notes_renderTree _ a.shelf budget nodes source) hrender
    exact ⟨deeds, b', by rw [Engine.deeds, hnoting]; rfl, habreast, hshelf⟩

/-- The shelf after calls is what the listed deeds of the calls make of it, one after the other; and
a template that is read by a call is read from the shelf as it is then. -/
theorem answerAll_works (h : a.Abreast b) (hsound : a.shelf.Sound) {calls : List Call}
    {replies : List (Except Fault Reply)}
    (hanswers : e.answerAll budget callables a calls = some (replies, a')) :
    ∃ work, e.allDeeds budget callables b calls = some work ∧
      a'.shelf = e.work a.shelf work.flatten ∧
      ∀ i template δ, calls[i]? = some (.read template δ) →
        replies[i]? = some ((e.read δ template
          (e.work a.shelf (work.take i).flatten)).1.map .tree) := by
  induction calls generalizing a b replies with
  | nil =>
    cases hanswers
    exact ⟨[], rfl, rfl, nofun⟩
  | cons call calls ih =>
    obtain ⟨⟨reply, middle⟩, hcall, hrest⟩ := Option.bind_eq_some_iff.1 hanswers
    obtain ⟨⟨replies, last⟩, hcalls, heq⟩ := Option.map_eq_some_iff.1 hrest
    cases heq
    obtain ⟨deeds, b', hdeeds, habreast, hshelf⟩ := h.answer hsound hcall
    obtain ⟨work, hwork, hlast, hreplies⟩ :=
      ih habreast (hshelf ▸ Engine.work_sound hsound deeds) hcalls
    refine ⟨deeds :: work, ?_, ?_, fun i template δ hread => ?_⟩
    · rw [Engine.allDeeds, hdeeds]
      exact congrArg (Option.map (deeds :: ·)) hwork
    · rw [List.flatten_cons, Engine.work_append, ← hshelf, hlast]
    · cases i with
      | zero =>
        cases hread
        cases hcall
        rfl
      | succ i =>
        rw [List.take_succ_cons, List.flatten_cons, Engine.work_append, ← hshelf]
        exact hreplies i template δ hread

end

end TagTemplate
