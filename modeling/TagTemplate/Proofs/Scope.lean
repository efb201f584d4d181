import TagTemplate.Proofs.Value.Index
import TagTemplate.Scope

/-!
# What a name denotes

The meaning of a name in a view and in a chain of views, said without memory. Main statements:
`denotes_iff`, a search without memory finds what a name denotes; `Scope.Faithful.find`, so does a
search with memory if every frame remembers only what it would find again, and then the frames it
leaves do so too.
-/

namespace TagTemplate

/-! ## Names in one view -/

/-- A name that is a path: its first dot has something before it. -/
def Dotted (name : List Char) : Prop :=
  ∃ before after, before ≠ [] ∧ '.' ∉ before ∧ name = before ++ '.' :: after

namespace Value

/-- A field of an object or an item of an array, from which a path can go on. The key denotes the
index of the item, which fits in a word. -/
inductive HasPart (key : String) : Value → Value → Prop
  | field {fields : List (String × Value)} {v : Value} :
      field? key fields = some v → HasPart key (.object fields) v
  | item {items : List Value} {i : Nat} {v : Value} :
      IndexKey i key → i < wordLimit → items[i]? = some v → HasPart key (.array items) v

/-- A part, or the length of an array. -/
inductive HasProperty (key : String) : Value → Value → Prop
  | part {v w : Value} : HasPart key v w → HasProperty key v w
  | length {items : List Value} :
      key = lengthKey → HasProperty key (.array items) (.ofCount items.length)

/-- A property, or the length or a character of a string: where a path may end. -/
inductive HasEnd (key : String) : Value → Value → Prop
  | property {v w : Value} : HasProperty key v w → HasEnd key v w
  | length {s : String} : key = lengthKey → HasEnd key (.string s) (.ofCount s.length)
  | character {s : String} {i : Nat} {c : Char} :
      IndexKey i key → i < wordLimit → s.toList[i]? = some c →
      HasEnd key (.string s) (.string (String.singleton c))

/-- A path leads from a view to a value, segment by segment. -/
inductive Leads : List Char → Value → Value → Prop
  | last {key : List Char} {v w : Value} :
      '.' ∉ key → HasEnd (String.ofList key) v w → Leads key v w
  | step {key rest : List Char} {v part w : Value} :
      '.' ∉ key → HasPart (String.ofList key) v part → Leads rest part w →
      Leads (key ++ '.' :: rest) v w

/-- A view has a name, with the value that it denotes there. -/
inductive Holds (name : String) (v w : Value) : Prop
  | path : Dotted name.toList → Leads name.toList v w → Holds name v w
  | property : ¬Dotted name.toList → HasProperty name v w → Holds name v w

end Value

/-- What a name denotes in the first of several views that has it, null if none has. -/
inductive Denotes (name : String) : List Value → Value → Prop
  | here {v w : Value} {outer : List Value} : v.Holds name w → Denotes name (v :: outer) w
  | further {v w : Value} {outer : List Value} :
      (∀ x, ¬v.Holds name x) → Denotes name outer w → Denotes name (v :: outer) w
  | nowhere : Denotes name [] .null

/-! ## Cutting a name at its dots -/

/-- A text has no separator, or it is a part, a separator and more. -/
theorem first_separator (separator : Char) (cs : List Char) :
    separator ∉ cs ∨ ∃ part rest, separator ∉ part ∧ cs = part ++ separator :: rest := by
  by_cases h : separator ∈ cs
  · obtain ⟨part, rest, hcs, hpart⟩ := List.eq_append_cons_of_mem h
    exact .inr ⟨part, rest, hpart, hcs⟩
  · exact .inl h

theorem isPath_iff {name : List Char} : isPath name = true ↔ Dotted name := by
  simp only [isPath, Bool.and_eq_true, List.contains_iff_mem, bne_iff_ne]
  constructor
  · rintro ⟨hmem, hhead⟩
    obtain ⟨before, after, rfl, hbefore⟩ := List.eq_append_cons_of_mem hmem
    refine ⟨before, after, ?_, hbefore, rfl⟩
    rintro rfl
    exact hhead rfl
  · rintro ⟨before, after, hne, hbefore, rfl⟩
    obtain ⟨c, before, rfl⟩ := List.exists_cons_of_ne_nil hne
    refine ⟨List.mem_append_right _ List.mem_cons_self, fun h => hbefore ?_⟩
    cases h
    exact List.mem_cons_self

/-! ## Searching one view -/

namespace Value

theorem child?_iff {key : String} {v w : Value} : v.child? key = some w ↔ HasPart key v w := by
  constructor
  · intro h
    cases v with
    | object fields => exact .field h
    | array items =>
      obtain ⟨i, hi, hitem⟩ := Option.bind_eq_some_iff.1 h
      obtain ⟨hkey, hlimit⟩ := indexOfKey?_eq_some_iff.1 hi
      exact .item hkey hlimit hitem
    | _ => cases h
  · rintro (hfield | ⟨hkey, hlimit, hitem⟩)
    · exact hfield
    · exact Option.bind_eq_some_iff.2 ⟨_, indexOfKey?_eq_some_iff.2 ⟨hkey, hlimit⟩, hitem⟩

theorem HasPart.hasProperty {key : String} {v w : Value} (h : HasPart key v w) :
    v.hasProperty key = true ∧ v.property? key = some w := by
  have hchild := child?_iff.2 h
  cases h with
  | field hfield => exact ⟨Option.isSome_of_eq_some hfield, hchild⟩
  | @item items i w hkey hlimit hitem =>
    have hi := indexOfKey?_eq_some_iff.2 ⟨hkey, hlimit⟩
    have hne : key ≠ lengthKey := by
      rintro rfl
      exact not_indexKey_lengthKey hkey
    obtain ⟨hlt, -⟩ := List.getElem?_eq_some_iff.1 hitem
    refine ⟨by simp [Value.hasProperty, hi, hlt], ?_⟩
    rw [property?, if_neg hne, hchild]

theorem property?_iff {key : String} {v w : Value} :
    v.hasProperty key = true ∧ v.property? key = some w ↔ HasProperty key v w := by
  constructor
  · rintro ⟨hhas, h⟩
    cases v with
    | object fields => exact .part (child?_iff.1 h)
    | array items =>
      rw [property?] at h
      split at h
      · next hkey => exact Option.some.inj h ▸ .length hkey
      · exact .part (child?_iff.1 h)
    | _ => cases hhas
  · rintro (hpart | hkey)
    · exact hpart.hasProperty
    · exact ⟨by simp [Value.hasProperty, hkey], if_pos hkey⟩

theorem end?_iff {key : String} {v w : Value} :
    (v.hasProperty key || v.hasStringProperty key) = true ∧ v.property? key = some w ↔
      HasEnd key v w := by
  rw [Bool.or_eq_true]
  constructor
  · rintro ⟨hhas | hhas, h⟩
    · exact .property (property?_iff.1 ⟨hhas, h⟩)
    · cases v with
      | string s =>
        rw [property?] at h
        split at h
        · next hkey => exact Option.some.inj h ▸ .length hkey
        · obtain ⟨i, hi, h⟩ := Option.bind_eq_some_iff.1 h
          obtain ⟨c, hc, rfl⟩ := Option.map_eq_some_iff.1 h
          obtain ⟨hkey, hlimit⟩ := indexOfKey?_eq_some_iff.1 hi
          exact .character hkey hlimit hc
      | _ => cases hhas
  · rintro (hproperty | hkey | ⟨hkey, hlimit, hc⟩)
    · obtain ⟨hhas, h⟩ := property?_iff.2 hproperty
      exact ⟨.inl hhas, h⟩
    · exact ⟨.inr (by simp [Value.hasStringProperty, hkey]), if_pos hkey⟩
    · have hi := indexOfKey?_eq_some_iff.2 ⟨hkey, hlimit⟩
      have hne : key ≠ lengthKey := by
        rintro rfl
        exact not_indexKey_lengthKey hkey
      obtain ⟨hlt, -⟩ := List.getElem?_eq_some_iff.1 hc
      refine ⟨.inr ?_, ?_⟩
      · rw [String.length_toList] at hlt
        simp [Value.hasStringProperty, hi, hlt]
      · rw [property?, if_neg hne, hi, Option.bind_some, hc, Option.map_some]

theorem follow?_cons (v : Value) (segment : String) {more : List String} (h : more ≠ []) :
    v.follow? (segment :: more) = (v.child? segment).bind (·.follow? more) := by
  obtain ⟨next, more, rfl⟩ := List.exists_cons_of_ne_nil h
  rfl

theorem segments_ne_nil (path : List Char) : (pathSegments path).map String.ofList ≠ [] :=
  mt List.map_eq_nil_iff.1 (splitOn_ne_nil '.' path)

/-- Following the segments of a path leads where the path leads. -/
theorem follow?_iff {path : List Char} {v w : Value} :
    v.follow? ((pathSegments path).map String.ofList) = some w ↔ Leads path v w := by
  constructor
  · intro h
    -- on the length of the path, which is cut at its first dot
    induction hlen : path.length using Nat.strongRecOn generalizing path v with
    | ind n ih =>
      obtain hdot | ⟨key, rest, hkey, rfl⟩ := first_separator '.' path
      · rw [pathSegments, splitOn_of_not_mem hdot] at h
        simp only [List.map_cons, List.map_nil, follow?, Option.ite_none_right_eq_some] at h
        exact .last hdot (end?_iff.1 h)
      · rw [pathSegments, splitOn_append hkey, List.map_cons,
          follow?_cons _ _ (segments_ne_nil rest), Option.bind_eq_some_iff] at h
        obtain ⟨part, hpart, h⟩ := h
        exact .step hkey (child?_iff.1 hpart) (ih rest.length (by simp [← hlen]; omega) h rfl)
  · intro h
    induction h with
    | last hdot hend =>
      rw [pathSegments, splitOn_of_not_mem hdot]
      simp only [List.map_cons, List.map_nil, follow?, Option.ite_none_right_eq_some]
      exact end?_iff.2 hend
    | @step key rest v part w hkey hpart _ ih =>
      rw [pathSegments, splitOn_append hkey, List.map_cons, follow?_cons _ _ (segments_ne_nil rest),
        child?_iff.2 hpart, Option.bind_some, ih]

theorem resolve?_iff {name : String} {v w : Value} :
    v.resolve? name = some w ↔ v.Holds name w := by
  rw [resolve?]
  split
  · next hpath =>
    have hdotted := isPath_iff.1 hpath
    rw [follow?_iff]
    exact ⟨.path hdotted, fun | .path _ h => h | .property hplain _ => absurd hdotted hplain⟩
  · next hpath =>
    have hplain := mt isPath_iff.2 hpath
    rw [Option.ite_none_right_eq_some, property?_iff]
    exact ⟨.property hplain, fun | .path hdotted _ => absurd hdotted hplain | .property _ h => h⟩

end Value

/-! ## Searching a chain of views -/

/-- A search without memory finds what the name denotes, and nothing else. -/
theorem denotes_iff {name : String} {views : List Value} {w : Value} :
    Denotes name views w ↔ Scope.resolveIn name views = w := by
  induction views with
  | nil => exact ⟨fun | .nowhere => rfl, fun h => h ▸ .nowhere⟩
  | cons v outer ih =>
    rw [Scope.resolveIn]
    cases hv : v.resolve? name with
    | some x =>
      have hholds := Value.resolve?_iff.1 hv
      rw [Option.getD_some]
      constructor
      · rintro (hw | ⟨hnone, -⟩)
        · exact Option.some.inj (hv ▸ Value.resolve?_iff.2 hw)
        · exact absurd hholds (hnone x)
      · rintro rfl
        exact .here hholds
    | none =>
      have hnone (x : Value) : ¬v.Holds name x := fun h => by
        rw [Value.resolve?_iff.2 h] at hv
        cases hv
      rw [Option.getD_none, ← ih]
      exact ⟨fun | .here h => absurd h (hnone w) | .further _ h => h, .further hnone⟩

/-! ## Places -/

/-- A place in a chain of views: the view there and the views around it, the nearest first. -/
structure Standpoint where
  view : Value
  outer : List Value := []

namespace Standpoint

def views (here : Standpoint) : List Value := here.view :: here.outer

/-- The place with one more view inside. -/
def push (here : Standpoint) (view : Value) : Standpoint := ⟨view, here.views⟩

/-- The place without its innermost view; the last one stays. -/
def pop (here : Standpoint) : Standpoint :=
  match here.outer with
  | [] => here
  | view :: outer => ⟨view, outer⟩

/-- The place so many steps outward. -/
def outward (here : Standpoint) : Nat → Standpoint
  | 0 => here
  | steps + 1 => here.pop.outward steps

/-- What a name denotes here. -/
def find (here : Standpoint) (name : String) : Value :=
  if name = Scope.selfName then here.view else Scope.resolveIn name here.views

/-- A name denotes the view itself, or a value in one of the views. -/
inductive Denotes (here : Standpoint) (name : String) : Value → Prop
  | self : name = Scope.selfName → Denotes here name here.view
  | named {w : Value} :
      name ≠ Scope.selfName → TagTemplate.Denotes name here.views w → Denotes here name w

theorem find_iff {here : Standpoint} {name : String} {w : Value} :
    here.find name = w ↔ here.Denotes name w := by
  rw [find]
  split
  · next hself =>
    exact ⟨fun h => h ▸ .self hself, fun | .self _ => rfl | .named hne _ => absurd hself hne⟩
  · next hne =>
    rw [← denotes_iff]
    exact ⟨.named hne, fun | .self hself => absurd hself hne | .named _ h => h⟩

end Standpoint

/-! ## What is inherited -/

/-- A property of values that null has, and that a value hands on to all that a name can denote
in it. -/
structure Value.Inherited (P : Value → Prop) : Prop where
  null : P .null
  hasEnd : ∀ {key : String} {v w : Value}, P v → Value.HasEnd key v w → P w

namespace Value.Inherited

variable {P : Value → Prop} {name : String} {v w : Value}

theorem leads (hP : Inherited P) {path : List Char} (h : P v) (hleads : Leads path v w) : P w := by
  induction hleads with
  | last _ hend => exact hP.hasEnd h hend
  | step _ hpart _ ih => exact ih (hP.hasEnd h (.property (.part hpart)))

theorem holds (hP : Inherited P) (h : P v) (hholds : v.Holds name w) : P w := by
  cases hholds with
  | path _ hleads => exact hP.leads h hleads
  | property _ hproperty => exact hP.hasEnd h (.property hproperty)

theorem denotes (hP : Inherited P) {views : List Value} (h : ∀ v ∈ views, P v)
    (hdenotes : Denotes name views w) : P w := by
  induction hdenotes with
  | here hholds => exact hP.holds (h _ List.mem_cons_self) hholds
  | further _ _ ih => exact ih fun v hv => h v (List.mem_cons_of_mem _ hv)
  | nowhere => exact hP.null

/-- What all views of a place have, the value has that is found there. -/
theorem find (hP : Inherited P) {here : Standpoint} (h : ∀ v ∈ here.views, P v) (name : String) :
    P (here.find name) := by
  generalize hfind : here.find name = found
  cases Standpoint.find_iff.1 hfind with
  | self => exact h _ List.mem_cons_self
  | named _ hdenotes => exact hP.denotes h hdenotes

end Value.Inherited

/-! ## Frames that remember -/

/-- Each of the frames remembers only what it would find again. -/
def FaithfulFrames : List Frame → Prop
  | [] => True
  | frame :: outer =>
    (∀ entry ∈ frame.memo,
      entry.2 = Scope.resolveIn entry.1 (frame.view :: outer.map Frame.view)) ∧
    FaithfulFrames outer

namespace Scope

/-- Where a scope stands, whatever its frames remember. -/
def standpoint (s : Scope) : Standpoint := ⟨s.view, s.outer.map Frame.view⟩

def Faithful (s : Scope) : Prop := FaithfulFrames (s.frame :: s.outer)

theorem faithful_root (view : Value) : (Scope.root view).Faithful := by
  refine ⟨fun entry hentry => ?_, trivial⟩
  cases hentry

theorem Faithful.push {s : Scope} (h : s.Faithful) (view : Value) : (s.push view).Faithful := by
  refine ⟨fun entry hentry => ?_, h⟩
  cases hentry

theorem Faithful.pop {s : Scope} (h : s.Faithful) : s.pop.Faithful := by
  obtain ⟨frame, outer⟩ := s
  cases outer with
  | nil => exact h
  | cons => exact h.2

/-- A faithful scope finds what a search without memory finds, and stays faithful. -/
theorem Faithful.find {s : Scope} (h : s.Faithful) (name : String) :
    (s.find name).1 = s.standpoint.find name ∧ (s.find name).2.Faithful ∧
      (s.find name).2.standpoint = s.standpoint := by
  rw [Scope.find, Standpoint.find]
  split
  · exact ⟨rfl, h, rfl⟩
  · cases hfound : s.frame.remembered? name with
    | some found =>
      obtain ⟨entry, hentry, rfl⟩ := Option.map_eq_some_iff.1 hfound
      have hname : entry.1 = name := by simpa using List.find?_some hentry
      exact ⟨hname ▸ h.1 entry (List.mem_of_find?_eq_some hentry), h, rfl⟩
    | none => exact ⟨rfl, ⟨List.forall_mem_cons.2 ⟨rfl, h.1⟩, h.2⟩, rfl⟩

end Scope

end TagTemplate
