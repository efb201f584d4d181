import TagTemplate.Proofs.Engine.Discipline
import TagTemplate.Proofs.Engine.Mirror
import TagTemplate.Proofs.Template.Reflow

/-!
# Renderings that meet no surprise

A view without callables and templates that can be read, with all that they include. Main statement:
`guarded_render`, such a rendering fails at the ceiling only, and asks for no inclusions but those
that are named in these templates.
-/

namespace TagTemplate

/-! ## Values without callables -/

/-- No getter and no transformer stands anywhere in the value. -/
inductive Value.LambdaFree : Value → Prop
  | null : LambdaFree .null
  | bool (b : Bool) : LambdaFree (.bool b)
  | int (n : Int64) : LambdaFree (.int n)
  | float (x : Binary64) : LambdaFree (.float x)
  | string (s : String) : LambdaFree (.string s)
  | array {items : List Value} : (∀ item ∈ items, LambdaFree item) → LambdaFree (.array items)
  | object {fields : List (String × Value)} :
      (∀ field ∈ fields, LambdaFree field.2) → LambdaFree (.object fields)

namespace Value.LambdaFree

variable {key : String} {v w : Value}

theorem item {items : List Value} (h : LambdaFree (.array items)) {item : Value}
    (hitem : item ∈ items) : item.LambdaFree := by
  cases h with
  | array hitems => exact hitems item hitem

theorem hasPart (h : v.LambdaFree) (hpart : HasPart key v w) : w.LambdaFree := by
  cases hpart with
  | field hfield =>
    cases h with
    | object hfields =>
      obtain ⟨entry, found, rfl⟩ := Option.map_eq_some_iff.1 hfield
      exact hfields entry (List.mem_of_find?_eq_some found)
  | item _ _ hitem => exact h.item (List.mem_of_getElem? hitem)

theorem hasProperty (h : v.LambdaFree) (hproperty : HasProperty key v w) : w.LambdaFree := by
  cases hproperty with
  | part hpart => exact h.hasPart hpart
  | length => exact .int _

theorem hasEnd (h : v.LambdaFree) (hend : HasEnd key v w) : w.LambdaFree := by
  cases hend with
  | property hproperty => exact h.hasProperty hproperty
  | length => exact .int _
  | character => exact .string _

theorem inherited : Inherited LambdaFree := ⟨.null, hasEnd⟩

end Value.LambdaFree

/-- All views of the place are without callables. -/
def Standpoint.LambdaFree (here : Standpoint) : Prop := ∀ v ∈ here.views, v.LambdaFree

theorem Standpoint.LambdaFree.push {here : Standpoint} (h : here.LambdaFree) {view : Value}
    (hview : view.LambdaFree) : (here.push view).LambdaFree :=
  List.forall_mem_cons.2 ⟨hview, h⟩

/-! ## Templates that can be read -/

/-- The template can be read, and includes nothing but what is known. -/
def Readable (d : Delimiters) (Known : String → Prop) (template : String) : Prop :=
  ∃ nodes, parse d template = .ok nodes ∧ ∀ name ∈ includedNames nodes, Known name

/-- So is the template at every margin, if known names are on one line. -/
theorem Readable.includedText {d : Delimiters} {Known : String → Prop} {text : String}
    (h : Readable d Known text) (hd : d.BlankFree)
    (hline : ∀ name, Known name → '\n' ∉ name.toList) (margin : Margin) :
    Readable d Known (includedText margin text) := by
  rw [TagTemplate.includedText]
  split
  · obtain ⟨nodes, hparse, hknown⟩ := h
    obtain ⟨nodes', hparse', hnames⟩ := parse_indent (blanks_plainIndentation margin.indentation)
      hd hparse (!margin.afterText)
    rw [← reflow_eq] at hparse'
    refine ⟨nodes', hparse', fun name hname => ?_⟩
    rw [hnames] at hname
    obtain ⟨original, horiginal, rfl⟩ := List.mem_map.1 hname
    have hsame : indentKey (plainIndentation margin.indentation) original = original := by
      rw [indentKey, indent_line (hline original (hknown original horiginal)), String.ofList_toList]
    rw [hsame]
    exact hknown original horiginal
  · exact h

section

variable {σ : Type}

/-! ## Parts of a rendering -/

/-- Every result has a property, the ceiling is the only fault, and only known names are asked
for. -/
structure Guarded (Known : String → Prop) (ceiling : Option Nat) {α : Type} (V : α → Prop)
    (p : PlainM σ α) : Prop where
  result : ∀ {c a c'}, p.run c = some (.ok a, c') → V a
  fault : ∀ {c fault c'}, p.run c = some (.error fault, c') →
    ∃ limit, ceiling = some limit ∧ fault = .tooDeep limit
  asked : ∀ {c result c'}, p.run c = some (result, c') →
    ∃ names, c'.asked = names ++ c.asked ∧ ∀ name ∈ names, Known name

namespace Guarded

variable {Known : String → Prop} {ceiling : Option Nat} {α β : Type} {V : α → Prop} {W : β → Prop}

/-- A part with one result, which asks for nothing. -/
theorem of_run {p : PlainM σ α} (h : ∀ c, ∃ a, V a ∧ p.run c = some (.ok a, c)) :
    Guarded Known ceiling V p where
  result {c a c'} hrun := by
    obtain ⟨a', ha', hrun'⟩ := h c
    rw [hrun'] at hrun
    cases hrun
    exact ha'
  fault {c fault c'} hrun := by
    obtain ⟨a', -, hrun'⟩ := h c
    rw [hrun'] at hrun
    cases hrun
  asked {c result c'} hrun := by
    obtain ⟨a', -, hrun'⟩ := h c
    rw [hrun'] at hrun
    cases hrun
    exact ⟨[], rfl, List.forall_mem_nil Known⟩

theorem pure {a : α} (h : V a) : Guarded Known ceiling V (Pure.pure a : PlainM σ α) :=
  .of_run fun _ => ⟨a, h, rfl⟩

theorem bind {p : PlainM σ α} {f : α → PlainM σ β} (hp : Guarded Known ceiling V p)
    (hf : ∀ a, V a → Guarded Known ceiling W (f a)) : Guarded Known ceiling W (p >>= f) where
  result {c b c'} h := by
    rw [PlainM.run_bind] at h
    split at h
    · cases h
    · cases h
    · next hrun => exact (hf _ (hp.result hrun)).result h
  fault {c fault c'} h := by
    rw [PlainM.run_bind] at h
    split at h
    · cases h
    · next hrun =>
      cases h
      exact hp.fault hrun
    · next hrun => exact (hf _ (hp.result hrun)).fault h
  asked {c result c'} h := by
    rw [PlainM.run_bind] at h
    split at h
    · cases h
    · next hrun =>
      cases h
      exact hp.asked hrun
    · next hrun =>
      obtain ⟨names, hnames, hknown⟩ := hp.asked hrun
      obtain ⟨more, hmore, hknown'⟩ := (hf _ (hp.result hrun)).asked h
      refine ⟨more ++ names, ?_, List.forall_mem_append.2 ⟨hknown', hknown⟩⟩
      rw [hmore, hnames, List.append_assoc]

theorem exhausted : Guarded Known ceiling V (PlainM.exhausted : PlainM σ α) where
  result h := by cases h
  fault h := by cases h
  asked h := by cases h

theorem descend (o : Options) (depth : Nat) :
    Guarded Known o.ceiling (fun below => o.descend depth = .ok below)
      (PlainM.lift (o.descend depth) : PlainM σ Nat) where
  result h := by
    rw [PlainM.run_lift] at h
    exact (Prod.mk.inj (Option.some.inj h)).1
  fault {c fault c'} h := by
    rw [PlainM.run_lift] at h
    have hdescend := (Prod.mk.inj (Option.some.inj h)).1
    rw [Options.descend] at hdescend
    split at hdescend
    · next limit hlimit =>
      split at hdescend
      · cases hdescend
        exact ⟨limit, hlimit, rfl⟩
      · cases hdescend
    · cases hdescend
  asked h := by
    rw [PlainM.run_lift] at h
    cases h
    exact ⟨[], rfl, List.forall_mem_nil Known⟩

/-- A known name is asked for. -/
theorem ask (s : Setup σ) {name : String} (hname : Known name) :
    Guarded Known ceiling (fun found => ∀ text ∈ found, ∃ inclusions ∈ s.inclusions,
      inclusions name = some text) (s.ask name) := by
  rw [Setup.ask]
  cases s.inclusions with
  | none => exact .pure fun text htext => absurd htext (Option.not_mem_none text)
  | some inclusions =>
    exact {
      result := fun h => by
        cases h
        exact fun text htext => ⟨inclusions, rfl, htext⟩
      fault := fun h => by cases h
      asked := fun h => by
        cases h
        exact ⟨[name], rfl, List.forall_mem_singleton.2 hname⟩ }

end Guarded

/-- Guarded parts of a rendering, whatever the budget. -/
def Discipline.guarded (σ : Type) (Known : String → Prop) (ceiling : Option Nat) :
    Discipline σ where
  Keeps V p := ∀ budget, Guarded Known ceiling V (p budget)
  pure h _ := .pure h
  bind hp hf budget := (hp budget).bind fun a ha => hf a ha budget

/-! ## Whole renderings -/

variable {s : Setup σ} {Known : String → Prop}

/-- Writing a tree is guarded if all that it includes is known, and known texts are rendered so. -/
theorem guarded_covers {render : Standpoint → Nat → String → PlainM σ String} {body : BlockText}
    {nodes : List Node} (hnodes : ∀ name ∈ includedNames nodes, Known name)
    (hrender : ∀ name, Known name → ∀ inclusions ∈ s.inclusions, ∀ text ∈ inclusions name,
      ∀ (margin : Margin) (here : Standpoint) (depth : Nat), here.LambdaFree →
        Guarded Known s.options.ceiling (fun _ => True)
          (render here depth (includedText margin text))) :
    Covers (.guarded σ Known s.options.ceiling) s (fun _ => render) body 0 Standpoint.LambdaFree
      Value.LambdaFree (Node.flatten.flattenAll nodes) where
  push hplace hview := hplace.push hview
  item hitems hitem := hitems.item hitem
  seek {here} key hplace _ := by
    have hfound := Value.LambdaFree.inherited.find hplace key
    have hrun (c : Course σ) : (s.seek here key).run c = some (.ok (here.find key), c) := by
      rw [Setup.run_seek]
      generalize here.find key = value at hfound
      cases hfound <;> rfl
    exact .of_run fun c => ⟨here.find key, ⟨hfound, Setup.finds_of_run (hrun c)⟩, hrun c⟩
  descend depth _ := .descend s.options depth
  inclusion {here depth key start stop margin} _ hplace hmem _ := by
    have hknown : Known key := hnodes key (List.mem_filterMap.2 ⟨_, hmem, rfl⟩)
    rw [Node.writePlainly]
    refine (Guarded.ask s hknown).bind fun found hfound => ?_
    cases found with
    | none => exact .pure trivial
    | some text =>
      obtain ⟨inclusions, hinclusions, htext⟩ := hfound text rfl
      exact (Guarded.descend s.options depth).bind fun below _ =>
        hrender key hknown inclusions hinclusions text htext margin here below hplace
  transform _ _ hfine _ _ := by cases hfine

/-- A template that can be read, at a place without callables, is rendered without a surprise if
all that is known can be read in turn. -/
theorem guarded_render (hd : s.delimiters.BlankFree)
    (hline : ∀ name, Known name → '\n' ∉ name.toList)
    (hknown : ∀ name, Known name → ∀ inclusions ∈ s.inclusions, ∀ text ∈ inclusions name,
      Readable s.delimiters Known text)
    (budget : Nat) {here : Standpoint} (hplace : here.LambdaFree) (depth : Nat) {template : String}
    (htemplate : Readable s.delimiters Known template) :
    Guarded Known s.options.ceiling (fun _ => True)
      (s.renderPlainly budget here depth template) := by
  induction budget generalizing here depth template with
  | zero => exact .exhausted
  | succ budget ih =>
    obtain ⟨nodes, hparse, hnodes⟩ := htemplate
    rw [Setup.renderPlainly, hparse]
    have hcovers : Covers (.guarded σ Known s.options.ceiling) s (fun _ => s.renderPlainly budget)
        (blockText (some template)) 0 Standpoint.LambdaFree Value.LambdaFree
        (Node.flatten.flattenAll nodes) :=
      guarded_covers hnodes
        fun name hname inclusions hinclusions text htext margin here depth hplace =>
          ih hplace depth
            ((hknown name hname inclusions hinclusions text htext).includedText hd hline margin)
    exact hcovers.writeNodes (Nat.zero_le depth) hplace nodes (List.Subset.refl _) 0

end

end TagTemplate
