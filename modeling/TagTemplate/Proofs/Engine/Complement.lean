import TagTemplate.Proofs.Engine.Walk

/-!
# Blocks and inverted blocks

What a block makes of its body, and when an inverted block steps in. Main statement:
`inverted_complements_block`, under no ceiling the inverted block under a key writes its body, once
and where it stands, if the block under the key does not write its own at all and hands it to no
transformer; else it writes nothing.
-/

namespace TagTemplate

/-! ## Values that count as nothing -/

/-- The value counts as nothing: a block over it writes nothing. -/
inductive Value.Vacant : Value → Prop
  | null : Vacant .null
  | no : Vacant (.bool false)
  | zero : Vacant (.int 0)
  | zeroFloat (negative : Bool) : Vacant (.float (.zero negative))
  | nan {x : Binary64} : x.isNaN = true → Vacant (.float x)
  | emptyString : Vacant (.string "")
  | noItems : Vacant (.array [])

/-- There are two zeros, which differ in their sign. -/
theorem Binary64.isZero_iff {x : Binary64} : x.isZero = true ↔ ∃ negative, x = zero negative := by
  rw [isZero, decide_eq_true_iff, magnitudeBits]
  constructor
  · intro h
    have hlimit : signedLimit = 2 ^ 63 := by decide +kernel
    have hlt : x.bits.toNat < 2 ^ 64 := x.bits.toNat_lt
    rw [hlimit] at h
    have hbits : x.bits.toNat = 0 ∨ x.bits.toNat = 2 ^ 63 := by omega
    obtain ⟨bits⟩ := x
    rcases hbits with hbits | hbits
    · exact ⟨false, congrArg Binary64.mk (UInt64.toNat.inj hbits)⟩
    · exact ⟨true, congrArg Binary64.mk (UInt64.toNat.inj hbits)⟩
  · rintro ⟨negative, rfl⟩
    cases negative
    · decide
    · decide

/-- What an inverted block asks of the value. -/
def Value.isNothing (v : Value) : Bool := !v.isTruthy || (v matches .array [])

theorem Value.vacant_iff {v : Value} : v.Vacant ↔ v.isNothing = true := by
  constructor
  · rintro (_ | _ | _ | negative | hnan | _ | _)
    case zeroFloat =>
      have hzero := Binary64.isZero_iff.2 ⟨negative, rfl⟩
      simp [Value.isNothing, Value.isTruthy, hzero]
    case nan => simp [Value.isNothing, Value.isTruthy, hnan]
    all_goals rfl
  · intro h
    cases v with
    | null => exact .null
    | bool b =>
      cases b with
      | false => exact .no
      | true => cases h
    | int n =>
      obtain rfl : n = 0 := by simpa [Value.isNothing, Value.isTruthy] using h
      exact .zero
    | float x =>
      cases hzero : x.isZero with
      | true =>
        obtain ⟨negative, rfl⟩ := Binary64.isZero_iff.1 hzero
        exact .zeroFloat negative
      | false => exact .nan (by simpa [Value.isNothing, Value.isTruthy, hzero] using h)
    | string text =>
      obtain rfl : text = "" := by simpa [Value.isNothing, Value.isTruthy] using h
      exact .emptyString
    | array items =>
      cases items with
      | nil => exact .noItems
      | cons => cases h
    | object | getter | transformer => cases h

/-! ## What a block makes of its body -/

/-- What a block makes of its body. -/
inductive BodyUse where
  /-- The body is written once for each of the views, in a frame of its own. -/
  | inFrames (views : List Value)
  /-- The body is written where the block stands. -/
  | inPlace
  /-- The text of the body goes to a transformer. -/
  | handedOver (handle : Handle)

namespace BodyUse

/-- How often the body is written. -/
def times : BodyUse → Nat
  | inFrames views => views.length
  | inPlace => 1
  | handedOver _ => 0

/-- The body is not written, and goes to no transformer. -/
def Idle (use : BodyUse) : Prop := use.times = 0 ∧ ∀ handle, use ≠ handedOver handle

/-- The rendering of a block that makes this of its body; `inside` writes the body at a depth, and
`call` has a transformer do its work. -/
def run {σ : Type} (use : BodyUse) (inside : Nat → RenderM σ String)
    (call : Handle → RenderM σ String) (depth : Nat) : RenderM σ String :=
  match use with
  | inFrames views => writeEach (fun view => inFrame view (inside (depth + 1))) views
  | inPlace => inside depth
  | handedOver handle => call handle

theorem Idle.run {use : BodyUse} (h : use.Idle) {σ : Type} (inside : Nat → RenderM σ String)
    (call : Handle → RenderM σ String) (depth : Nat) : use.run inside call depth = pure "" := by
  obtain ⟨htimes, hkept⟩ := h
  cases use with
  | inFrames views =>
    obtain rfl := List.length_eq_zero_iff.1 htimes
    rfl
  | inPlace => cases htimes
  | handedOver handle => exact absurd rfl (hkept handle)

end BodyUse

/-- What a block makes of its body for a value. -/
def Value.bodyUse (v : Value) : BodyUse :=
  match v.frames with
  | some views => .inFrames views
  | none => match v with
    | .transformer handle => .handedOver handle
    | _ => .inPlace

/-- A block is idle for the values that count as nothing, and for no others. -/
theorem Value.idle_bodyUse_iff {v : Value} : v.bodyUse.Idle ↔ v.Vacant := by
  -- an array without items is true, but has no views to write the body for
  rw [Value.vacant_iff]
  unfold isNothing
  cases htruthy : v.isTruthy with
  | false =>
    unfold bodyUse
    rw [frames_of_falsy htruthy]
    exact ⟨fun _ => rfl, fun _ => ⟨rfl, nofun⟩⟩
  | true =>
    unfold bodyUse frames
    rw [htruthy]
    cases v with
    | array items =>
      cases items with
      | nil => exact ⟨fun _ => rfl, fun _ => ⟨rfl, nofun⟩⟩
      | cons => exact ⟨(fun h => nomatch h.1), nofun⟩
    | transformer handle => exact ⟨fun h => absurd rfl (h.2 handle), nofun⟩
    | _ => exact ⟨(fun h => nomatch h.1), nofun⟩

section

variable {σ : Type}

/-! ## Finding nothing -/

/-- A name finds nothing here: no view has it, it denotes a value that counts as nothing, or it
denotes a getter that answers with such a value. -/
inductive Setup.FindsNothing (s : Setup σ) (memory : σ) (here : Standpoint) (name : String) : Prop
  | missing : name ≠ Scope.selfName → (∀ v ∈ here.views, ∀ x, ¬v.Holds name x) →
      FindsNothing s memory here name
  | vacant {v : Value} : here.Denotes name v → v.Vacant → FindsNothing s memory here name
  | answered {handle : Handle} : here.Denotes name (.getter handle) →
      (s.callables.get handle memory here.view).1.Vacant → FindsNothing s memory here name

/-- A name that no view has denotes null. -/
theorem denotes_null {name : String} {views : List Value} (h : ∀ v ∈ views, ∀ x, ¬v.Holds name x) :
    Denotes name views .null := by
  induction views with
  | nil => exact .nowhere
  | cons v views ih =>
    exact .further (h v List.mem_cons_self) (ih fun v hv => h v (List.mem_cons_of_mem _ hv))

theorem Setup.findsNothing_iff {s : Setup σ} {memory : σ} {here : Standpoint} {name : String} :
    s.FindsNothing memory here name ↔ (s.valueAt memory here name).Vacant := by
  constructor
  · rintro (⟨hname, hmissing⟩ | ⟨hdenotes, hvacant⟩ | ⟨hdenotes, hvacant⟩)
    · rw [valueAt, Standpoint.find_iff.2 (.named hname (denotes_null hmissing))]
      exact .null
    · rw [valueAt, Standpoint.find_iff.2 hdenotes]
      cases hvacant with
      | null => exact .null
      | no => exact .no
      | zero => exact .zero
      | zeroFloat negative => exact .zeroFloat negative
      | nan hnan => exact .nan hnan
      | emptyString => exact .emptyString
      | noItems => exact .noItems
    · rw [valueAt, Standpoint.find_iff.2 hdenotes]
      exact hvacant
  · intro h
    rw [valueAt] at h
    cases hfind : here.find name with
    | getter handle =>
      rw [hfind] at h
      exact .answered (Standpoint.find_iff.1 hfind) h
    | _ =>
      rw [hfind] at h
      exact .vacant (Standpoint.find_iff.1 hfind) h

/-! ## The two blocks -/

/-- The run stands at a place, and its frames remember only what they would find again. -/
structure Run.StandsAt (r : Run σ) (here : Standpoint) : Prop where
  place : r.scope.standpoint = here
  faithful : r.scope.Faithful

/-- A search does not leave the place. -/
theorem Run.StandsAt.lookup {r : Run σ} {here : Standpoint} (h : r.StandsAt here) (s : Setup σ)
    (name : String) :
    ∃ after, (s.lookup name).run r = some (.ok (s.valueAt r.memory here name), after) ∧
      after.StandsAt here := by
  obtain ⟨hfound, hfaithful, hplace⟩ := h.faithful.find name
  rw [h.place] at hfound hplace
  have hview : (r.scope.find name).2.view = here.view := by
    rw [← hplace]
    rfl
  rw [RenderM.run_lookup, Setup.valueAt, hfound, hview]
  cases here.find name with
  | getter handle => exact ⟨_, rfl, hplace, hfaithful⟩
  | _ => exact ⟨_, rfl, hplace, hfaithful⟩

/-- Has a transformer do its work on the text of a block; without that text the block fails. -/
def Setup.callOn (s : Setup σ) (render : Nat → String → RenderM σ String) (body : BlockText)
    (depth : Nat) (key : String) (start stop : Nat) (handle : Handle) : RenderM σ String := do
  let text ← Setup.descend.liftExcept (body key start stop)
  (s.callables.transform handle (← get).memory text).perform (render depth)

variable {s : Setup σ} {r after : Run σ} {key : String} {v : Value}

theorem writeEach_singleton {α : Type} (write : α → RenderM σ String) (x : α) :
    writeEach write [x] = write x := by
  simp only [writeEach, pure_bind, String.append_empty, bind_pure]

/-- Once its value is found, a block makes of its body what the value says. -/
theorem run_block (hceiling : s.options.ceiling = none)
    (hlookup : (s.lookup key).run r = some (.ok v, after))
    (render : Nat → String → RenderM σ String) (body : BlockText) (depth : Nat)
    (start bodyStart : Nat) (children : List Node) (bodyStop : Nat) :
    ((Node.block key start bodyStart children bodyStop).write s render body depth).run r =
      (v.bodyUse.run (fun depth => writeNodes s render body depth children)
        (s.callOn render body depth key bodyStart bodyStop) depth).run after := by
  -- without a ceiling the level below is never refused, so only the value decides
  have hdescend : s.descend depth = pure (depth + 1) := by
    rw [Setup.descend, Options.descend, hceiling]
    rfl
  rw [Node.write, RenderM.run_bind, hlookup]
  unfold Value.bodyUse
  cases htruthy : v.isTruthy with
  | false =>
    rw [Value.frames_of_falsy htruthy]
    simp only [htruthy]
    rfl
  | true =>
    unfold Value.frames
    simp only [htruthy]
    cases v with
    | array =>
      simp only [hdescend, pure_bind]
      rfl
    | object | string | int | float =>
      simp only [hdescend, pure_bind]
      show _ = (writeEach (fun view =>
        inFrame view (writeNodes s render body (depth + 1) children)) [_]).run after
      rw [writeEach_singleton]
      rfl
    | transformer => rfl
    | null | bool | getter => rfl

theorem write_inverted (s : Setup σ) (render : Nat → String → RenderM σ String) (body : BlockText)
    (depth : Nat) (key : String) (start bodyStart : Nat) (children : List Node) (bodyStop : Nat) :
    (Node.inverted key start bodyStart children bodyStop).write s render body depth =
      (do
        let value ← s.lookup key
        if value.isNothing then writeNodes s render body depth children else return "") := by
  rw [Node.write]
  rfl

/-- Once its value is found, an inverted block writes its body if the value counts as nothing. -/
theorem run_inverted (hlookup : (s.lookup key).run r = some (.ok v, after))
    (render : Nat → String → RenderM σ String) (body : BlockText) (depth : Nat)
    (start bodyStart : Nat) (children : List Node) (bodyStop : Nat) :
    (v.Vacant → ((Node.inverted key start bodyStart children bodyStop).write s render body
        depth).run r = (writeNodes s render body depth children).run after) ∧
    (¬v.Vacant → ((Node.inverted key start bodyStart children bodyStop).write s render body
        depth).run r = some (.ok "", after)) := by
  rw [write_inverted, RenderM.run_bind, hlookup, Value.vacant_iff]
  dsimp only
  constructor
  · intro hnothing
    rw [if_pos hnothing]
  · intro hsomething
    rw [if_neg hsomething]
    rfl

/-- The getter that a name denotes here answers the same whenever it is asked. -/
def Setup.PureAt (s : Setup σ) (here : Standpoint) (name : String) : Prop :=
  ∀ handle, here.Denotes name (.getter handle) → ∀ memory memory',
    (s.callables.get handle memory here.view).1 = (s.callables.get handle memory' here.view).1

theorem Setup.PureAt.valueAt {here : Standpoint} (h : s.PureAt here key) (memory memory' : σ) :
    s.valueAt memory here key = s.valueAt memory' here key := by
  rw [Setup.valueAt, Setup.valueAt]
  cases hfind : here.find key with
  | getter handle => exact h handle (Standpoint.find_iff.1 hfind) memory memory'
  | _ => rfl

/-- A block and an inverted block under one key complement each other wherever they stand at the
same place. The block is idle if and only if the name finds nothing there, and then it writes
nothing and the inverted block writes its body, once and after the search for the name only, which
does not leave the place; else the inverted block writes nothing. -/
theorem inverted_complements_block (s : Setup σ) (hceiling : s.options.ceiling = none)
    {here : Standpoint} {key : String} (hpure : s.PureAt here key) {r r' : Run σ}
    (hr : r.StandsAt here) (hr' : r'.StandsAt here) :
    ∃ use : BodyUse, (use.Idle ↔ s.FindsNothing r.memory here key) ∧
      ∃ (value : Value) (after after' : Run σ),
        (s.lookup key).run r = some (.ok value, after) ∧ after.StandsAt here ∧
        (s.lookup key).run r' = some (.ok value, after') ∧ after'.StandsAt here ∧
        ∀ (render : Nat → String → RenderM σ String) (body : BlockText)
          (depth start bodyStart bodyStop start' bodyStart' bodyStop' : Nat) (a b : List Node),
          let block := (Node.block key start bodyStart a bodyStop).write s render body depth
          let inverted := (Node.inverted key start' bodyStart' b bodyStop').write s render body depth
          block.run r = (use.run (fun depth => writeNodes s render body depth a)
              (s.callOn render body depth key bodyStart bodyStop) depth).run after ∧
            (use.Idle → block.run r = some (.ok "", after)) ∧
            (use.Idle → inverted.run r' = (writeNodes s render body depth b).run after') ∧
            (¬use.Idle → inverted.run r' = some (.ok "", after')) := by
  obtain ⟨after, hlookup, hafter⟩ := hr.lookup s key
  obtain ⟨after', hlookup', hafter'⟩ := hr'.lookup s key
  rw [hpure.valueAt r'.memory r.memory] at hlookup'
  refine ⟨(s.valueAt r.memory here key).bodyUse, ?_, s.valueAt r.memory here key, after, after',
    hlookup, hafter, hlookup', hafter', ?_⟩
  · rw [Value.idle_bodyUse_iff, Setup.findsNothing_iff]
  · intro render body depth start bodyStart bodyStop start' bodyStart' bodyStop' a b
    have hblock := run_block hceiling hlookup render body depth start bodyStart a bodyStop
    obtain ⟨hwrites, hskips⟩ :=
      run_inverted hlookup' render body depth start' bodyStart' b bodyStop'
    rw [← Value.idle_bodyUse_iff] at hwrites hskips
    refine ⟨hblock, fun hidle => ?_, hwrites, hskips⟩
    rw [hblock, hidle.run]
    rfl

end

/-- A frame inside another one, with a getter that yields an array without items. -/
def emptiedSetup : Setup CallCounts where
  engine := {}
  callables := .ofRecipes #[.getter (.constant (.array []))]

def emptiedPlace : Standpoint := ⟨.object [("x", .int 1)], [.object [("k", .getter 0)]]⟩

def emptiedRun : Run CallCounts where
  memory := []
  shelf := {}
  scope := (Scope.root (.object [("k", .getter 0)])).push (.object [("x", .int 1)])

theorem inverted_complements_block_emptied :
    emptiedSetup.options.ceiling = none ∧
    emptiedSetup.PureAt emptiedPlace "k" ∧
    emptiedRun.StandsAt emptiedPlace ∧
    (∃ after, ((Node.block "k" 0 6 [.text "a" 6 7] 7).write emptiedSetup (emptiedSetup.renderAt 1)
      (blockText none) 0).run emptiedRun = some (.ok "", after)) ∧
    ∃ after, ((Node.inverted "k" 0 6 [.text "b" 6 7] 7).write emptiedSetup (emptiedSetup.renderAt 1)
      (blockText none) 0).run emptiedRun = some (.ok "b", after) := by
  have hpure : emptiedSetup.PureAt emptiedPlace "k" := by
    intro handle _ _ _
    cases handle <;> rfl
  have hplace : emptiedRun.StandsAt emptiedPlace :=
    ⟨rfl, (Scope.faithful_root _).push _⟩
  have hdenotes : emptiedPlace.Denotes "k" (.getter 0) := Standpoint.find_iff.1 rfl
  obtain ⟨use, hidle, -, after, after', -, -, -, -, hblocks⟩ :=
    inverted_complements_block emptiedSetup rfl hpure hplace hplace
  have hnothing := hidle.2 (.answered hdenotes .noItems)
  obtain ⟨-, hblock, hinverted, -⟩ := hblocks (emptiedSetup.renderAt 1) (blockText none) 0
    0 6 7 0 6 7 [.text "a" 6 7] [.text "b" 6 7]
  exact ⟨rfl, hpure, hplace, ⟨after, hblock hnothing⟩, after', hinverted hnothing⟩

end TagTemplate
