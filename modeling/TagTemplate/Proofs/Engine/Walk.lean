import Mathlib.Computability.StateTransition
import TagTemplate.Proofs.Engine.Headroom

/-!
# The walk of a rendering

A rendering without transformers and with pure getters, followed node by node as if there were no
ceiling. A point of the walk is all that is still to be written, with the number of frames and
inclusions around each part. Main statement: `traced_render`, a rendering under a ceiling goes along
the walk: it gets to the end, it stops at the first node that meets the ceiling, or it stops where
the walk does.
-/

namespace TagTemplate

open StateTransition

/-- The views of the frames that a block pushes for a value one after the other; nothing if the
block is written in the scope where it stands. -/
def Value.frames (v : Value) : Option (List Value) :=
  if !v.isTruthy then some []
  else match v with
    | .array items => some items
    | .object _ | .string _ | .int _ | .float _ => some [v]
    | .null | .bool _ | .getter _ | .transformer _ => none

theorem Value.frames_of_falsy {v : Value} (h : v.isTruthy = false) : v.frames = some [] := by
  unfold Value.frames
  rw [h]
  rfl

/-- Nodes still to be written at a place, and how many frames and inclusions are around them. -/
structure Passage where
  level : Nat
  here : Standpoint
  nodes : List Node

section

variable {σ : Type}

/-! ## The walk of a rendering -/

namespace Setup

/-- What a name denotes here if a getter is asked with this memory. -/
def valueAt (s : Setup σ) (memory : σ) (here : Standpoint) (name : String) : Value :=
  match here.find name with
  | .getter handle => (s.callables.get handle memory here.view).1
  | found => found

/-- The text that a name includes. -/
def included? (s : Setup σ) (name : String) : Option String :=
  s.inclusions.bind fun inclusions => inclusions name

/-- What is to be written for a node at a level; nothing if that cannot be told, as the text of an
inclusion has no tree. -/
def inside (s : Setup σ) (memory : σ) (level : Nat) (here : Standpoint) :
    Node → Option (List Passage)
  | .text .. | .escaped .. | .unescaped .. => some []
  | .block key _ _ children _ =>
    match (s.valueAt memory here key).frames with
    | some views => some (views.map fun view => ⟨level + 1, here.push view, children⟩)
    | none => some [⟨level, here, children⟩]
  | .inverted key _ _ children _ =>
    let value := s.valueAt memory here key
    if !value.isTruthy || (value matches .array []) then some [⟨level, here, children⟩]
    else some []
  | .inclusion key _ _ margin =>
    match s.included? key with
    | none => some []
    | some text =>
      (parse s.delimiters (includedText margin text)).toOption.map fun nodes =>
        [⟨level + 1, here, nodes⟩]

/-- One step of the walk through all that is still to be written, first things first. -/
def onward (s : Setup σ) (memory : σ) : List Passage → Option (List Passage)
  | [] => none
  | ⟨_, _, []⟩ :: rest => some rest
  | ⟨level, here, n :: ns⟩ :: rest =>
    (s.inside memory level here n).map (· ++ ⟨level, here, ns⟩ :: rest)

/-- The node pushes a frame, or includes a text that is found. -/
inductive Pushes (s : Setup σ) (memory : σ) (here : Standpoint) : Node → Prop
  | frame {key : String} {start bodyStart : Nat} {children : List Node} {bodyStop : Nat}
      {view : Value} {views : List Value} :
      (s.valueAt memory here key).frames = some (view :: views) →
      Pushes s memory here (.block key start bodyStart children bodyStop)
  | inclusion {key : String} {start stop : Nat} {margin : Margin} {text : String} :
      s.included? key = some text → Pushes s memory here (.inclusion key start stop margin)

/-- The node is a block over an array without elements. -/
inductive OverNothing (s : Setup σ) (memory : σ) (here : Standpoint) : Node → Prop
  | block {key : String} {start bodyStart : Nat} {children : List Node} {bodyStop : Nat} :
      s.valueAt memory here key = .array [] →
      OverNothing s memory here (.block key start bodyStart children bodyStop)

/-- The node meets a ceiling at its level. -/
def Meets (s : Setup σ) (memory : σ) (here : Standpoint) (n : Node) : Prop :=
  s.Pushes memory here n ∨ s.OverNothing memory here n

/-- The walk is at the level of the ceiling, at a node that meets it. -/
def AtCeiling (s : Setup σ) (memory : σ) (limit : Nat) (passages : List Passage) : Prop :=
  ∃ here n ns rest, passages = ⟨limit, here, n :: ns⟩ :: rest ∧ s.Meets memory here n

/-- The walk comes from one point to another and meets no ceiling before it. -/
def Clears (s : Setup σ) (memory : σ) (limit : Nat) : List Passage → List Passage → Prop :=
  Relation.ReflTransGen fun a b => ¬s.AtCeiling memory limit a ∧ b ∈ s.onward memory a

variable {s : Setup σ} {memory : σ} {limit level : Nat} {here : Standpoint} {n : Node}
  {ns : List Node} {rest a b c : List Passage}

/-! ### Steps from a node -/

theorem onward_cons {opened : List Passage} (h : s.inside memory level here n = some opened) :
    s.onward memory (⟨level, here, n :: ns⟩ :: rest) =
      some (opened ++ ⟨level, here, ns⟩ :: rest) := by
  rw [onward, h]
  rfl

section

variable {key : String} {start bodyStart : Nat} {children : List Node} {bodyStop : Nat}

theorem inside_block {views : List Value}
    (h : (s.valueAt memory here key).frames = some views) :
    s.inside memory level here (.block key start bodyStart children bodyStop) =
      some (views.map fun view => ⟨level + 1, here.push view, children⟩) := by
  rw [inside, h]

theorem inside_block_none (h : (s.valueAt memory here key).frames = none) :
    s.inside memory level here (.block key start bodyStart children bodyStop) =
      some [⟨level, here, children⟩] := by
  rw [inside, h]

theorem not_meets_of_falsy (h : (s.valueAt memory here key).isTruthy = false) :
    ¬s.Meets memory here (.block key start bodyStart children bodyStop) := by
  rintro (⟨⟨hviews⟩⟩ | ⟨⟨harray⟩⟩)
  · rw [Value.frames_of_falsy h] at hviews
    cases hviews
  · rw [harray] at h
    cases h

theorem not_meets_of_frames (h : (s.valueAt memory here key).frames = none) :
    ¬s.Meets memory here (.block key start bodyStart children bodyStop) := by
  rintro (⟨⟨hviews⟩⟩ | ⟨⟨harray⟩⟩)
  · rw [h] at hviews
    cases hviews
  · rw [harray] at h
    cases h

end

theorem inside_inverted (s : Setup σ) (memory : σ) (level : Nat) (here : Standpoint) (key : String)
    (start bodyStart : Nat) (children : List Node) (bodyStop : Nat) :
    s.inside memory level here (.inverted key start bodyStart children bodyStop) =
      if !(s.valueAt memory here key).isTruthy || (s.valueAt memory here key matches .array []) then
        some [⟨level, here, children⟩]
      else some [] :=
  rfl

theorem inside_inclusion_none {key : String} {start stop : Nat} {margin : Margin}
    (h : s.included? key = none) :
    s.inside memory level here (.inclusion key start stop margin) = some [] := by
  rw [inside, h]

theorem inside_inclusion (memory : σ) (level : Nat) (here : Standpoint) {key : String}
    (start stop : Nat) (margin : Margin) {text : String} (h : s.included? key = some text) :
    s.inside memory level here (.inclusion key start stop margin) =
      (parse s.delimiters (includedText margin text)).toOption.map fun nodes =>
        [⟨level + 1, here, nodes⟩] := by
  rw [inside, h]

/-! ### Points below the ceiling -/

theorem not_atCeiling_of_ne (h : level ≠ limit) :
    ¬s.AtCeiling memory limit (⟨level, here, ns⟩ :: rest) := by
  rintro ⟨_, _, _, _, heq, -⟩
  cases heq
  exact h rfl

theorem not_atCeiling_nil : ¬s.AtCeiling memory limit (⟨level, here, []⟩ :: rest) := by
  rintro ⟨_, _, _, _, heq, -⟩
  cases heq

theorem not_atCeiling_cons (h : ¬s.Meets memory here n) :
    ¬s.AtCeiling memory limit (⟨level, here, n :: ns⟩ :: rest) := by
  rintro ⟨_, _, _, _, heq, hmeets⟩
  cases heq
  exact h hmeets

/-- From a point with nothing behind it the walk comes to no other. -/
theorem eq_of_reaches (hlast : s.onward memory a = none) (h : Reaches (s.onward memory) a b) :
    a = b := by
  obtain heq | ⟨c, hstep, -⟩ := h.cases_head
  · exact heq
  · rw [hlast] at hstep
    cases hstep

/-- The walk goes one way only: what comes after one step is the point itself, or comes after the
next. -/
theorem reaches_of_step (hstep : b ∈ s.onward memory a) (h : Reaches (s.onward memory) a c) :
    a = c ∨ Reaches (s.onward memory) b c := by
  obtain heq | ⟨b', hstep', hrest⟩ := h.cases_head
  · exact .inl heq
  · cases Option.mem_unique hstep hstep'
    exact .inr hrest

/-- A walk that has come to its last point without meeting the ceiling meets it nowhere. -/
theorem Clears.not_atCeiling (h : s.Clears memory limit a b) (hlast : s.onward memory b = none)
    (hb : ¬s.AtCeiling memory limit b) (hreach : Reaches (s.onward memory) a c) :
    ¬s.AtCeiling memory limit c := by
  -- there is only one walk, so the other point lies on the way to the last one
  induction h using Relation.ReflTransGen.head_induction_on with
  | refl => exact eq_of_reaches hlast hreach ▸ hb
  | head hstep _ ih =>
    obtain rfl | hrest := reaches_of_step hstep.2 hreach
    · exact hstep.1
    · exact ih hrest

theorem Clears.reaches (h : s.Clears memory limit a b) : Reaches (s.onward memory) a b :=
  Relation.ReflTransGen.mono (fun _ _ => And.right) a b h

/-! ## Parts of a rendering along the walk -/

/-- How a part of a rendering ends that goes from one point of the walk to another: it gets there,
it meets the ceiling on the way, or the walk cannot go on where the fault is. -/
inductive Ending (s : Setup σ) (memory : σ) (limit : Nat) (a b : List Passage) :
    Except Fault String → Prop
  | through (text : String) : s.Clears memory limit a b → Ending s memory limit a b (.ok text)
  | met {c : List Passage} : s.Clears memory limit a c → s.AtCeiling memory limit c →
      Ending s memory limit a b (.error (.tooDeep limit))
  | stuck {fault : Fault} {c : List Passage} : fault ≠ .tooDeep limit →
      s.Clears memory limit a c → s.onward memory c = none → ¬s.AtCeiling memory limit c →
      Ending s memory limit a b (.error fault)

/-- What is behind a part does not matter to a fault in it. -/
theorem Ending.error {fault : Fault} (h : s.Ending memory limit a b (.error fault)) :
    s.Ending memory limit a c (.error fault) := by
  cases h with
  | met hclears hmet => exact .met hclears hmet
  | stuck hfault hclears hlast hmet => exact .stuck hfault hclears hlast hmet

/-- More of the walk in front. -/
theorem Ending.after {result : Except Fault String} (h : s.Ending memory limit b c result)
    (hfirst : s.Clears memory limit a b) : s.Ending memory limit a c result := by
  cases h with
  | through text hclears => exact .through text (hfirst.trans hclears)
  | met hclears hmet => exact .met (hfirst.trans hclears) hmet
  | stuck hfault hclears hlast hmet => exact .stuck hfault (hfirst.trans hclears) hlast hmet

end Setup

/-- However the part starts, it goes from one point of the walk to another. -/
def Follows (s : Setup σ) (memory : σ) (limit : Nat) (a b : List Passage) (p : PlainM σ String) :
    Prop :=
  ∀ ⦃course result course'⦄, p.run course = some (result, course') →
    s.Ending memory limit a b result

namespace Follows

variable {s : Setup σ} {memory : σ} {limit : Nat} {a b c : List Passage} {p q : PlainM σ String}

theorem stay (text : String) : Follows s memory limit a a (pure text) := by
  intro course result course' hrun
  cases hrun
  exact .through text .refl

/-- One step of the walk, and what comes after it. -/
theorem step (hstep : s.onward memory a = some b) (ha : ¬s.AtCeiling memory limit a)
    (h : Follows s memory limit b c p) : Follows s memory limit a c p :=
  fun _ _ _ hrun => (h hrun).after (.single ⟨ha, hstep⟩)

theorem append (hp : Follows s memory limit a b p) (hq : Follows s memory limit b c q) :
    Follows s memory limit a c (do let first ← p; let rest ← q; return first ++ rest) := by
  intro course result course' hrun
  rw [PlainM.run_bind] at hrun
  split at hrun
  · cases hrun
  · next hfirst =>
    cases hrun
    exact (hp hfirst).error
  · next hfirst =>
    rw [PlainM.run_bind] at hrun
    cases hp hfirst with
    | through _ hclears =>
      split at hrun
      · cases hrun
      · next hsecond =>
        cases hrun
        exact (hq hsecond).error.after hclears
      · next hsecond =>
        cases hrun
        cases hq hsecond with
        | through _ hclears' => exact .through _ (hclears.trans hclears')

theorem each {α : Type} {write : α → PlainM σ String} {passage : α → Passage} (xs : List α)
    (h : ∀ x ∈ xs, ∀ rest, Follows s memory limit (passage x :: rest) rest (write x)) :
    Follows s memory limit (xs.map passage ++ b) b (PlainM.each write xs) := by
  induction xs with
  | nil => exact .stay ""
  | cons x xs ih =>
    exact (h x List.mem_cons_self _).append (ih fun y hy => h y (List.mem_cons_of_mem x hy))

/-- Getting deeper meets the ceiling at its level, and succeeds above it. -/
theorem descend {level : Nat} {f : Nat → PlainM σ String} (hle : level ≤ limit)
    (hmet : level = limit → s.AtCeiling memory limit a)
    (hf : level < limit → Follows s memory limit a b (f (level + 1))) :
    Follows s memory limit a b
      (PlainM.lift ((s.under (some limit)).options.descend level) >>= f) := by
  intro course result course' hrun
  rw [PlainM.run_bind, PlainM.run_lift] at hrun
  obtain heq | hlt := hle.eq_or_lt
  · have hdeep : (s.under (some limit)).options.descend level = .error (.tooDeep limit) :=
      if_pos (by omega)
    rw [hdeep] at hrun
    cases hrun
    exact .met .refl (hmet heq)
  · have hdeeper : (s.under (some limit)).options.descend level = .ok (level + 1) :=
      if_neg (by omega)
    rw [hdeeper] at hrun
    exact hf hlt hrun

/-- A node that leaves the level as it is. -/
theorem level {level : Nat} {here : Standpoint} {n : Node} {ns : List Node}
    {rest opened : List Passage} (hinside : s.inside memory level here n = some opened)
    (hmeets : ¬s.Meets memory here n)
    (h : Follows s memory limit (opened ++ ⟨level, here, ns⟩ :: rest) b p) :
    Follows s memory limit (⟨level, here, n :: ns⟩ :: rest) b p :=
  .step (Setup.onward_cons hinside) (Setup.not_atCeiling_cons hmeets) h

/-- A node that gets deeper. -/
theorem deeper {level : Nat} {here : Standpoint} {n : Node} {ns : List Node}
    {rest opened : List Passage} {f : Nat → PlainM σ String} (hle : level ≤ limit)
    (hmeets : s.Meets memory here n)
    (hinside : s.inside memory level here n = some opened)
    (hf : level < limit →
      Follows s memory limit (opened ++ ⟨level, here, ns⟩ :: rest) b (f (level + 1))) :
    Follows s memory limit (⟨level, here, n :: ns⟩ :: rest) b
      (PlainM.lift ((s.under (some limit)).options.descend level) >>= f) := by
  refine .descend hle (fun heq => ?_) fun hlt => ?_
  · subst heq
    exact ⟨here, n, ns, rest, rfl, hmeets⟩
  · exact .step (Setup.onward_cons hinside) (Setup.not_atCeiling_of_ne hlt.ne) (hf hlt)

/-- After something that gives the same whatever the course. -/
theorem known {α : Type} {p : PlainM σ α} {x : α} {f : α → PlainM σ String}
    (hp : ∀ course, ∃ course', p.run course = some (.ok x, course'))
    (hf : Follows s memory limit a b (f x)) : Follows s memory limit a b (p >>= f) := by
  intro course result course' hrun
  obtain ⟨between, hfirst⟩ := hp course
  rw [PlainM.run_bind, hfirst] at hrun
  exact hf hrun

end Follows

/-! ## Along the nodes -/

theorem Setup.run_ask (s : Setup σ) (name : String) (course : Course σ) :
    ∃ course', (s.ask name).run course = some (.ok (s.included? name), course') := by
  unfold Setup.ask Setup.included?
  cases s.inclusions with
  | none => exact ⟨course, rfl⟩
  | some inclusions => exact ⟨{ course with asked := name :: course.asked }, rfl⟩

/-- What a name denotes is what a getter answers with the memory of the walk. -/
theorem Standpoint.Offering.run_seek {s : Setup σ} {view : Value} {here : Standpoint}
    (hplace : here.Offering s.callables view) (hgetters : view.OffersPureGetters s.callables)
    (memory : σ) (name : String) (course : Course σ) :
    ∃ course', (s.seek here name).run course =
      some (.ok (s.valueAt memory here name), course') := by
  have hfound := hplace.find name
  rw [Setup.run_seek]
  unfold Setup.valueAt
  generalize here.find name = found at hfound ⊢
  cases found with
  | getter handle =>
    have hsame := hgetters handle here.view hfound (hplace _ List.mem_cons_self) memory
      course.memory
    refine ⟨{ course with memory := (s.callables.get handle course.memory here.view).2 }, ?_⟩
    dsimp only
    rw [hsame]
  | null | bool | int | float | string | array | object | transformer => exact ⟨course, rfl⟩

/-- What a name denotes on the walk is offered. -/
theorem Standpoint.Offering.valueAt {s : Setup σ} {view : Value} {here : Standpoint}
    (hplace : here.Offering s.callables view) (memory : σ) (name : String) :
    view.Offers s.callables (s.valueAt memory here name) := by
  have hfound := hplace.find name
  unfold Setup.valueAt
  split
  · next handle hgetter =>
    rw [hgetter] at hfound
    exact .answer memory hfound (hplace _ List.mem_cons_self)
  · exact hfound

theorem fault_of_parse {limit : Nat} {d : Delimiters} {template : String} {fault : Fault}
    (h : parse d template = .error fault) : fault ≠ .tooDeep limit :=
  fun heq => parse_not_tooDeep d template ⟨limit, heq ▸ h⟩

/-- A template without a tree ends a rendering of it. -/
theorem Setup.eq_of_parse_error {s : Setup σ} {budget level : Nat} {here : Standpoint}
    {template : String} {fault : Fault} {course course' : Course σ} {result : Except Fault String}
    (hparse : parse s.delimiters template = .error fault)
    (hrun : (s.renderPlainly budget here level template).run course = some (result, course')) :
    result = .error fault := by
  cases budget with
  | zero => exact nomatch hrun
  | succ budget =>
    rw [Setup.renderPlainly, hparse, PlainM.run_bind, PlainM.run_lift] at hrun
    cases hrun
    rfl

/-- What is assumed of a rendering that is followed node by node; `render` renders templates, and
goes along the walk as well. -/
structure Traced (s : Setup σ) (memory : σ) (limit : Nat) (view : Value)
    (render : Standpoint → Nat → String → PlainM σ String) : Prop where
  transformers : view.OffersNoTransformer s.callables
  getters : view.OffersPureGetters s.callables
  tree : ∀ {here level template nodes}, here.Offering s.callables view → level ≤ limit →
    parse s.delimiters template = .ok nodes →
    ∀ rest, Follows s memory limit (⟨level, here, nodes⟩ :: rest) rest (render here level template)
  fault : ∀ {here level template fault course result course'},
    parse s.delimiters template = .error fault →
    (render here level template).run course = some (result, course') → result = .error fault

namespace Traced

variable {s : Setup σ} {view : Value} {memory : σ} {limit : Nat}
  {render : Standpoint → Nat → String → PlainM σ String} {body : BlockText}

mutual

theorem write (h : Traced s memory limit view render) {level : Nat} (hle : level ≤ limit)
    {here : Standpoint} (hplace : here.Offering s.callables view) (n : Node) (ns : List Node)
    (rest : List Passage) :
    Follows s memory limit (⟨level, here, n :: ns⟩ :: rest) (⟨level, here, ns⟩ :: rest)
      (n.writePlainly (s.under (some limit)) render body level here) :=
  match n with
  | .text text _ _ => .level rfl (not_or_intro nofun nofun) (.stay text)
  | .escaped key _ _ | .unescaped key _ _ => by
    unfold Node.writePlainly
    refine .known (hplace.run_seek h.getters memory key) ?_
    exact .level rfl (not_or_intro nofun nofun) (.stay _)
  | .block key start bodyStart children bodyStop => by
    have hvalue := hplace.valueAt memory key
    have hchildren {level : Nat} (hle : level ≤ limit) {here : Standpoint}
        (hplace : here.Offering s.callables view) (rest : List Passage) :=
      h.writeNodes hle hplace children rest
    unfold Node.writePlainly
    refine .known (hplace.run_seek h.getters memory key) ?_
    generalize hkey : s.valueAt memory here key = value at hvalue ⊢
    have hstay (hframes : value.frames = none) :
        Follows s memory limit
          (⟨level, here, .block key start bodyStart children bodyStop :: ns⟩ :: rest)
          (⟨level, here, ns⟩ :: rest)
          (writePlainly (s.under (some limit)) render body level here children) := by
      subst hkey
      exact .level (Setup.inside_block_none hframes) (Setup.not_meets_of_frames hframes)
        (hchildren hle hplace _)
    have hframe (hframes : value.frames = some [value]) :
        Follows s memory limit
          (⟨level, here, .block key start bodyStart children bodyStop :: ns⟩ :: rest)
          (⟨level, here, ns⟩ :: rest)
          (do
            let depth ← PlainM.lift ((s.under (some limit)).options.descend level)
            writePlainly (s.under (some limit)) render body depth (here.push value) children) := by
      subst hkey
      exact .deeper hle (.inl (.frame hframes)) (Setup.inside_block hframes)
        fun hlt => hchildren hlt (hplace.push hvalue) _
    cases htruthy : value.isTruthy with
    | false =>
      subst hkey
      exact .level (Setup.inside_block (Value.frames_of_falsy htruthy))
        (Setup.not_meets_of_falsy htruthy) (.stay "")
    | true =>
      cases value with
      | array items =>
        -- the depth is counted before the items are looked at, so also where there are none
        have hframes : (s.valueAt memory here key).frames = some items := by rw [hkey]; rfl
        refine .deeper hle ?_ (Setup.inside_block hframes) fun hlt => .each items fun item hitem =>
          hchildren hlt (hplace.push (.item hvalue hitem))
        cases items with
        | nil => exact .inr (.block hkey)
        | cons item items => exact .inl (.frame hframes)
      | object | string | int | float =>
        refine hframe ?_
        rw [Value.frames, htruthy]
        rfl
      | transformer handle => exact absurd hvalue (h.transformers handle)
      | null | bool | getter =>
        refine hstay ?_
        rw [Value.frames, htruthy]
        rfl
  | .inverted key start bodyStart children bodyStop => by
    unfold Node.writePlainly
    refine .known (hplace.run_seek h.getters memory key) ?_
    have hinside := s.inside_inverted memory level here key start bodyStart children bodyStop
    generalize (!(s.valueAt memory here key).isTruthy || _) = taken at hinside ⊢
    cases taken with
    | true => exact .level hinside (not_or_intro nofun nofun) (h.writeNodes hle hplace children _)
    | false => exact .level hinside (not_or_intro nofun nofun) (.stay "")
  | .inclusion key start stop margin => by
    unfold Node.writePlainly
    refine .known (s.run_ask key) ?_
    cases htext : s.included? key with
    | none =>
      refine .level (Setup.inside_inclusion_none htext) ?_ (.stay "")
      rintro ((_ | hfound) | ⟨⟨⟩⟩)
      rw [htext] at hfound
      cases hfound
    | some text =>
      have hmeets : s.Meets memory here (.inclusion key start stop margin) :=
        .inl (.inclusion htext)
      have hinside := Setup.inside_inclusion memory level here start stop margin htext
      cases hparse : parse s.delimiters (includedText margin text) with
      | ok nodes =>
        rw [hparse] at hinside
        exact .deeper hle hmeets hinside fun hlt => h.tree hplace hlt hparse _
      | error fault =>
        rw [hparse] at hinside
        -- the ceiling comes first: only above it the text is found to have no tree
        refine .descend hle (fun heq => ?_) fun hlt course result course' hrun => ?_
        · subst heq
          exact ⟨here, _, ns, rest, rfl, hmeets⟩
        · rw [h.fault hparse hrun]
          refine .stuck (fault_of_parse hparse) .refl ?_ (Setup.not_atCeiling_of_ne hlt.ne)
          rw [Setup.onward, hinside]
          rfl

theorem writeNodes (h : Traced s memory limit view render) {level : Nat} (hle : level ≤ limit)
    {here : Standpoint} (hplace : here.Offering s.callables view) (ns : List Node)
    (rest : List Passage) :
    Follows s memory limit (⟨level, here, ns⟩ :: rest) rest
      (writePlainly (s.under (some limit)) render body level here ns) :=
  match ns with
  | [] => .step rfl Setup.not_atCeiling_nil (.stay "")
  | n :: ns => (h.write hle hplace n ns rest).append (h.writeNodes hle hplace ns rest)

end

end Traced

/-! ## Renderings -/

/-- Templates are rendered along the walk. -/
theorem traced_render {s : Setup σ} {view : Value}
    (htransformers : view.OffersNoTransformer s.callables)
    (hgetters : view.OffersPureGetters s.callables) (memory : σ) (limit budget : Nat) :
    Traced s memory limit view ((s.under (some limit)).renderPlainly budget) := by
  refine ⟨htransformers, hgetters, ?_, Setup.eq_of_parse_error (s := s.under (some limit))⟩
  induction budget with
  | zero => exact fun _ _ _ _ _ _ _ hrun => nomatch hrun
  | succ budget ih =>
    intro here level template nodes hplace hle hparse rest
    have htraced : Traced s memory limit view ((s.under (some limit)).renderPlainly budget) :=
      ⟨htransformers, hgetters, ih, Setup.eq_of_parse_error (s := s.under (some limit))⟩
    refine .known (fun course => ⟨course, ?_⟩) (htraced.writeNodes hle hplace nodes rest)
    exact hparse ▸ PlainM.run_lift _ course

end

end TagTemplate
