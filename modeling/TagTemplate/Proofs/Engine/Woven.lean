import TagTemplate.Callable.Recipe
import TagTemplate.Proofs.Engine.Faithful
import TagTemplate.Proofs.Engine.Guarded
import TagTemplate.Proofs.Engine.Offer
import TagTemplate.Proofs.Escape

/-!
# Where rendered text comes from

Rendered text is woven from texts that stand in templates and from escaped texts of values, if no
template writes a value as it is. Main statement: `escaped_output_harmless`, no view brings markup
into such a text.
-/

namespace TagTemplate

/-- A piece of rendered text. -/
inductive Fragment where
  /-- As it stands in a template. -/
  | fixed (text : String)
  /-- Made from a value. -/
  | value (text : String)
  deriving DecidableEq, Repr

namespace Fragment

def text : Fragment → String
  | fixed text | value text => text

def isFixed : Fragment → Bool
  | fixed _ => true
  | value _ => false

/-- The characters of some fragments, one after the other. -/
def written (fragments : List Fragment) : List Char := fragments.flatMap (·.text.toList)

theorem written_append (fs gs : List Fragment) : written (fs ++ gs) = written fs ++ written gs :=
  List.flatMap_append

end Fragment

open Fragment (written written_append)

section

variable (d : Delimiters) (inclusions : Option Inclusions)

/-- What may be written for a row of nodes: texts as they stand and escaped values in their places,
the inside of a block any number of times, that of an inverted block once or not at all, and for an
inclusion nothing or what the included template is written as. Nothing is written for a value that
would go unescaped. -/
inductive Woven : List Node → List Fragment → Prop
  | nil : Woven [] []
  | text {text : String} {start stop : Nat} {ns : List Node} {fs : List Fragment} :
      Woven ns fs → Woven (.text text start stop :: ns) (.fixed text :: fs)
  | escaped {key : String} {start stop : Nat} {ns : List Node} {fs : List Fragment} (raw : String) :
      Woven ns fs → Woven (.escaped key start stop :: ns) (.value (escapeHtml raw) :: fs)
  | done {key : String} {start bodyStart bodyStop : Nat} {children ns : List Node}
      {fs : List Fragment} :
      Woven ns fs → Woven (.block key start bodyStart children bodyStop :: ns) fs
  | again {key : String} {start bodyStart bodyStop : Nat} {children ns : List Node}
      {fs gs : List Fragment} :
      Woven children fs → Woven (.block key start bodyStart children bodyStop :: ns) gs →
      Woven (.block key start bodyStart children bodyStop :: ns) (fs ++ gs)
  | passed {key : String} {start bodyStart bodyStop : Nat} {children ns : List Node}
      {fs : List Fragment} :
      Woven ns fs → Woven (.inverted key start bodyStart children bodyStop :: ns) fs
  | taken {key : String} {start bodyStart bodyStop : Nat} {children ns : List Node}
      {fs gs : List Fragment} :
      Woven children fs → Woven ns gs →
      Woven (.inverted key start bodyStart children bodyStop :: ns) (fs ++ gs)
  | omitted {key : String} {start stop : Nat} {margin : Margin} {ns : List Node}
      {fs : List Fragment} :
      Woven ns fs → Woven (.inclusion key start stop margin :: ns) fs
  | included {key text : String} {start stop : Nat} {margin : Margin} {texts : Inclusions}
      {inner ns : List Node} {fs gs : List Fragment} :
      inclusions = some texts → texts key = some text →
      parse d (includedText margin text) = .ok inner → Woven inner fs → Woven ns gs →
      Woven (.inclusion key start stop margin :: ns) (fs ++ gs)

/-- The templates that a rendering of a template may come to: the template itself, and what these
include, at the margin where it is included. -/
inductive Reachable (template : String) : String → Prop
  | self : Reachable template template
  | included {outer key text : String} {start stop : Nat} {margin : Margin} {nodes : List Node}
      {texts : Inclusions} :
      Reachable template outer → parse d outer = .ok nodes →
      .inclusion key start stop margin ∈ Node.flatten.flattenAll nodes →
      inclusions = some texts → texts key = some text →
      Reachable template (includedText margin text)

/-- No template that a rendering may come to writes a value as it is. -/
def AllEscaped (template : String) : Prop :=
  ∀ inner nodes, Reachable d inclusions template inner → parse d inner = .ok nodes →
    ∀ key start stop, .unescaped key start stop ∉ Node.flatten.flattenAll nodes

/-- How a text was put together when a template was rendered. -/
structure Provenance (template text : String) (fragments : List Fragment) : Prop where
  woven : ∃ nodes, parse d template = .ok nodes ∧ Woven d inclusions nodes fragments
  whole : text.toList = written fragments
  /-- What is fixed is a text of some template. -/
  fixed : ∀ t, .fixed t ∈ fragments → ∃ inner nodes start stop,
    Reachable d inclusions template inner ∧ parse d inner = .ok nodes ∧
      .text t start stop ∈ Node.flatten.flattenAll nodes
  value : ∀ t, .value t ∈ fragments → Harmless t.toList
  /-- All markup comes from what is fixed. -/
  markup : ∀ c ∈ markupChars,
    text.toList.count c = (written (fragments.filter Fragment.isFixed)).count c

end

section

variable {d : Delimiters} {inclusions : Option Inclusions}

/-! ## Woven fragments -/

namespace Woven

/-- Rows of nodes are written one after the other. -/
theorem append {ns ms : List Node} {fs gs : List Fragment} (h : Woven d inclusions ns fs)
    (hms : Woven d inclusions ms gs) : Woven d inclusions (ns ++ ms) (fs ++ gs) := by
  induction h with
  | nil => exact hms
  | text _ ih => exact .text ih
  | escaped raw _ ih => exact .escaped raw ih
  | done _ ih => exact .done ih
  | again hchildren _ _ ih => exact List.append_assoc .. ▸ .again hchildren ih
  | passed _ ih => exact .passed ih
  | taken hchildren _ _ ih => exact List.append_assoc .. ▸ .taken hchildren ih
  | omitted _ ih => exact .omitted ih
  | included hinclusions htext hinner hfs _ _ ih =>
    exact List.append_assoc .. ▸ .included hinclusions htext hinner hfs ih

theorem value_harmless {ns : List Node} {fs : List Fragment} (h : Woven d inclusions ns fs)
    {t : String} (ht : .value t ∈ fs) : Harmless t.toList := by
  induction h with
  | nil => exact absurd ht List.not_mem_nil
  | text _ ih => exact ih ((List.mem_cons.1 ht).resolve_left nofun)
  | escaped raw _ ih =>
    obtain heq | ht := List.mem_cons.1 ht
    · cases heq
      exact harmless_escapeHtml raw
    · exact ih ht
  | done _ ih | passed _ ih | omitted _ ih => exact ih ht
  | again _ _ ih₁ ih₂ | taken _ _ ih₁ ih₂ | included _ _ _ _ _ ih₁ ih₂ =>
    exact (List.mem_append.1 ht).elim ih₁ ih₂

/-- What is fixed is a text of a template, if the nodes are nodes of one. -/
theorem fixed_mem {template : String} {ns : List Node} {fs : List Fragment}
    (h : Woven d inclusions ns fs) {outer : String} {all : List Node}
    (hreach : Reachable d inclusions template outer) (hparse : parse d outer = .ok all)
    (hns : Node.flatten.flattenAll ns ⊆ Node.flatten.flattenAll all) {t : String}
    (ht : .fixed t ∈ fs) :
    ∃ inner nodes start stop, Reachable d inclusions template inner ∧ parse d inner = .ok nodes ∧
      .text t start stop ∈ Node.flatten.flattenAll nodes := by
  induction h generalizing outer all with
  | nil => exact absurd ht List.not_mem_nil
  | @text text start stop ns fs _ ih =>
    obtain heq | ht := List.mem_cons.1 ht
    · cases heq
      exact ⟨outer, all, start, stop, hreach, hparse, hns List.mem_cons_self⟩
    · exact ih hreach hparse (fun n hn => hns (List.mem_append_right _ hn)) ht
  | escaped _ _ ih =>
    exact ih hreach hparse (fun n hn => hns (List.mem_append_right _ hn))
      ((List.mem_cons.1 ht).resolve_left nofun)
  | done _ ih | passed _ ih | omitted _ ih =>
    exact ih hreach hparse (fun n hn => hns (List.mem_append_right _ hn)) ht
  | again _ _ ihchildren ih =>
    obtain ht | ht := List.mem_append.1 ht
    · exact ihchildren hreach hparse
        (fun n hn => hns (List.mem_append_left _ (List.mem_cons_of_mem _ hn))) ht
    · exact ih hreach hparse hns ht
  | taken _ _ ihchildren ih =>
    obtain ht | ht := List.mem_append.1 ht
    · exact ihchildren hreach hparse
        (fun n hn => hns (List.mem_append_left _ (List.mem_cons_of_mem _ hn))) ht
    · exact ih hreach hparse (fun n hn => hns (List.mem_append_right _ hn)) ht
  | included hinclusions htext hinner _ _ ihinner ih =>
    obtain ht | ht := List.mem_append.1 ht
    · -- what is included is a template of its own
      exact ihinner (.included hreach hparse (hns List.mem_cons_self) hinclusions htext) hinner
        (List.Subset.refl _) ht
    · exact ih hreach hparse (fun n hn => hns (List.mem_append_right _ hn)) ht

end Woven

/-- Harmless values add no markup to what is fixed. -/
theorem Fragment.count_markup {fs : List Fragment} (h : ∀ t, .value t ∈ fs → Harmless t.toList)
    {c : Char} (hc : c ∈ markupChars) :
    (written fs).count c = (written (fs.filter isFixed)).count c := by
  induction fs with
  | nil => rfl
  | cons f fs ih =>
    have ih := ih fun t ht => h t (List.mem_cons_of_mem f ht)
    show (f.text.toList ++ written fs).count c = _
    rw [List.count_append, ih]
    cases f with
    | fixed t =>
      show _ = (t.toList ++ written (fs.filter isFixed)).count c
      rw [List.count_append]
      rfl
    | value t =>
      have hnone : t.toList.count c = 0 :=
        List.count_eq_zero.2 fun hmem => (h t List.mem_cons_self).markup c hmem hc
      show t.toList.count c + _ = _
      rw [hnone, Nat.zero_add]
      rfl

end

/-! ## Parts of a rendering -/

section

variable {σ : Type}

/-- Every text that the part gives is woven from the nodes. -/
def GivesWoven (s : Setup σ) (ns : List Node) (p : PlainM σ String) : Prop :=
  PlainM.Gives
    (fun text => ∃ fs, Woven s.delimiters s.inclusions ns fs ∧ text.toList = written fs) p

namespace GivesWoven

variable {s : Setup σ} {n : Node} {ns : List Node} {p q : PlainM σ String}

theorem nothing (h : Woven s.delimiters s.inclusions ns []) :
    GivesWoven s ns (pure "" : PlainM σ String) :=
  .pure ⟨[], h, rfl⟩

/-- Two parts, the nodes of which make one row when they stand one after the other. -/
theorem followed {ms all : List Node} (hp : GivesWoven s ns p) (hq : GivesWoven s ms q)
    (h : ∀ fs gs, Woven s.delimiters s.inclusions ns fs → Woven s.delimiters s.inclusions ms gs →
      Woven s.delimiters s.inclusions all (fs ++ gs)) :
    GivesWoven s all (do let first ← p; let rest ← q; return first ++ rest) := by
  refine .bind hp fun first hfirst => .bind hq fun rest hrest => .pure ?_
  obtain ⟨fs, hfs, hfirst⟩ := hfirst
  obtain ⟨gs, hgs, hrest⟩ := hrest
  refine ⟨fs ++ gs, h fs gs hfs hgs, ?_⟩
  rw [String.toList_append, hfirst, hrest, written_append]

theorem append (hp : GivesWoven s [n] p) (hq : GivesWoven s ns q) :
    GivesWoven s (n :: ns) (do let first ← p; let rest ← q; return first ++ rest) :=
  hp.followed hq fun _ _ hfs hgs => hfs.append hgs

variable {key : String} {start bodyStart bodyStop : Nat} {children : List Node}

/-- The inside of a block, written once. -/
theorem once (h : GivesWoven s children p) :
    GivesWoven s [.block key start bodyStart children bodyStop] p := by
  intro c text c' hrun
  obtain ⟨fs, hfs, htext⟩ := h hrun
  exact ⟨fs, List.append_nil fs ▸ .again hfs (.done .nil), htext⟩

theorem each {α : Type} {write : α → PlainM σ String} (xs : List α)
    (h : ∀ x ∈ xs, GivesWoven s children (write x)) :
    GivesWoven s [.block key start bodyStart children bodyStop] (PlainM.each write xs) := by
  induction xs with
  | nil => exact .nothing (.done .nil)
  | cons x xs ih =>
    have hrest := ih fun y hy => h y (List.mem_cons_of_mem x hy)
    exact (h x List.mem_cons_self).followed hrest fun _ _ hfs hgs => .again hfs hgs

theorem inverted (h : GivesWoven s children p) :
    GivesWoven s [.inverted key start bodyStart children bodyStop] p := by
  intro c text c' hrun
  obtain ⟨fs, hfs, htext⟩ := h hrun
  exact ⟨fs, List.append_nil fs ▸ .taken hfs .nil, htext⟩

end GivesWoven

/-- Every text that the part gives is woven from the tree of a template. -/
def GivesWovenTree (s : Setup σ) (template : String) (p : PlainM σ String) : Prop :=
  PlainM.Gives (fun text => ∃ nodes fs, parse s.delimiters template = .ok nodes ∧
    Woven s.delimiters s.inclusions nodes fs ∧ text.toList = written fs) p

/-- Nothing brings markup when some nodes are written: values are escaped, no node writes one as it
is, no transformer is at hand, and what is included is woven in turn. -/
structure Careful (s : Setup σ) (view : Value)
    (render : Standpoint → Nat → String → PlainM σ String) (nodes : List Node) : Prop where
  escape : s.options.escape = none
  offers : view.OffersNoTransformer s.callables
  unescaped : ∀ key start stop, .unescaped key start stop ∉ nodes
  included : ∀ {key start stop margin texts text} {here : Standpoint} (depth : Nat),
    here.Offering s.callables view → .inclusion key start stop margin ∈ nodes →
    s.inclusions = some texts → texts key = some text →
    GivesWovenTree s (includedText margin text) (render here depth (includedText margin text))

variable {s : Setup σ} {view : Value} {render : Standpoint → Nat → String → PlainM σ String}
  {body : BlockText} {all : List Node}

mutual

theorem Careful.write (h : Careful s view render all) (depth : Nat) {here : Standpoint}
    (hplace : here.Offering s.callables view) (n : Node) (hn : n.flatten ⊆ all) :
    GivesWoven s [n] (n.writePlainly s render body depth here) :=
  match n with
  | .text text _ _ => .pure ⟨[.fixed text], .text .nil, (List.append_nil _).symm⟩
  | .escaped key _ _ => by
    unfold Node.writePlainly
    refine PlainM.Gives.after fun value => .pure ?_
    rw [Options.escapedText_eq h.escape]
    exact ⟨[.value _], .escaped (Options.plainText value) .nil, (List.append_nil _).symm⟩
  | .unescaped key start stop => absurd (hn List.mem_cons_self) (h.unescaped key start stop)
  | .block key start bodyStart children bodyStop => by
    have hchildren (depth : Nat) {here : Standpoint} (hplace : here.Offering s.callables view) :
        GivesWoven s children (writePlainly s render body depth here children) :=
      h.writeNodes depth hplace children fun n hmem => hn (List.mem_cons_of_mem _ hmem)
    have hframe (inner : Value) (hinner : view.Offers s.callables inner) :
        GivesWoven s [.block key start bodyStart children bodyStop] (do
          let depth ← PlainM.lift (s.options.descend depth)
          writePlainly s render body depth (here.push inner) children) :=
      PlainM.Gives.after fun depth => GivesWoven.once (hchildren depth (hplace.push hinner))
    unfold Node.writePlainly
    refine PlainM.Gives.bind (hplace.seek key) fun value hvalue => ?_
    split
    · exact GivesWoven.nothing (.done .nil)
    · cases value with
      | array items =>
        refine PlainM.Gives.after fun depth => GivesWoven.each items fun item hitem => ?_
        exact hchildren depth (hplace.push (.item hvalue hitem))
      | object | string | int | float => exact hframe _ hvalue
      | transformer handle => exact absurd hvalue (h.offers handle)
      | null | bool | getter => exact GivesWoven.once (hchildren depth hplace)
  | .inverted key start bodyStart children bodyStop => by
    unfold Node.writePlainly
    refine PlainM.Gives.after fun value => ?_
    generalize (!value.isTruthy || _) = falsy
    cases falsy with
    | true =>
      have hchildren : GivesWoven s children (writePlainly s render body depth here children) :=
        h.writeNodes depth hplace children fun n hmem => hn (List.mem_cons_of_mem _ hmem)
      exact hchildren.inverted
    | false => exact GivesWoven.nothing (.passed .nil)
  | .inclusion key start stop margin => by
    have hguarded : Guarded (fun _ => True) none (fun found => ∀ text ∈ found,
        ∃ texts ∈ s.inclusions, texts key = some text) (s.ask key) := .ask s trivial
    have hask : PlainM.Gives (fun found => ∀ text ∈ found, ∃ texts ∈ s.inclusions,
        texts key = some text) (s.ask key) := fun _ _ _ hrun => hguarded.result hrun
    unfold Node.writePlainly
    refine PlainM.Gives.bind hask fun found hfound => ?_
    cases found with
    | none => exact GivesWoven.nothing (.omitted .nil)
    | some text =>
      obtain ⟨texts, hinclusions, htext⟩ := hfound text rfl
      refine PlainM.Gives.after fun depth => ?_
      intro c out c' hrun
      obtain ⟨nodes, fs, hparse, hfs, hout⟩ :=
        h.included depth hplace (hn List.mem_cons_self) hinclusions htext hrun
      exact ⟨fs, List.append_nil fs ▸ .included hinclusions htext hparse hfs .nil, hout⟩

/-- What is written for a row of nodes is woven from them. -/
theorem Careful.writeNodes (h : Careful s view render all) (depth : Nat) {here : Standpoint}
    (hplace : here.Offering s.callables view) (ns : List Node)
    (hns : Node.flatten.flattenAll ns ⊆ all) :
    GivesWoven s ns (writePlainly s render body depth here ns) :=
  match ns with
  | [] => .nothing .nil
  | n :: ns =>
    (h.write depth hplace n fun _ hn => hns (List.mem_append_left _ hn)).append
    (h.writeNodes depth hplace ns fun _ hn => hns (List.mem_append_right _ hn))

end

/-- Every text that a reachable template is rendered to is woven from its tree. -/
theorem givesWoven_render {template : String} (hescape : s.options.escape = none)
    (hoffers : view.OffersNoTransformer s.callables)
    (hescaped : AllEscaped s.delimiters s.inclusions template) (budget : Nat) {here : Standpoint}
    (hplace : here.Offering s.callables view) (depth : Nat) {inner : String}
    (hreach : Reachable s.delimiters s.inclusions template inner) :
    GivesWovenTree s inner (s.renderPlainly budget here depth inner) := by
  induction budget generalizing here depth inner with
  | zero => exact PlainM.Gives.exhausted
  | succ budget ih =>
    unfold Setup.renderPlainly
    refine PlainM.Gives.bind (.lift fun nodes hparse => hparse) fun nodes hparse => ?_
    have hcareful : Careful s view (s.renderPlainly budget) (Node.flatten.flattenAll nodes) := {
      escape := hescape
      offers := hoffers
      unescaped := hescaped inner nodes hreach hparse
      included := fun depth hplace hmem hinclusions htext =>
        ih hplace depth (.included hreach hparse hmem hinclusions htext) }
    intro c text c' hrun
    obtain ⟨fs, hfs, htext⟩ :=
      hcareful.writeNodes depth hplace nodes (List.Subset.refl _) hrun
    exact ⟨nodes, fs, hparse, hfs, htext⟩

/-- If no template writes a value as it is and the view offers no transformer, then a rendered text
consists of texts of these templates and of harmless texts in the places of values; so all of its
markup stands in the templates, whatever the view. -/
theorem escaped_output_harmless {session : Session σ}
    (hreaches : s.engine.Reaches s.callables session) {template : String}
    (hescape : s.options.escape = none) (hoffers : view.OffersNoTransformer s.callables)
    (hescaped : AllEscaped s.delimiters s.inclusions template) {budget : Nat} {text : String}
    {session' : Session σ}
    (hanswer : s.engine.answer budget s.callables session
      (.render template view s.inclusions s.options) = some (.ok (.text text), session')) :
    ∃ fragments, Provenance s.delimiters s.inclusions template text fragments := by
  have hplain := answer_plainReply s hreaches.sound budget template view
  rw [hanswer] at hplain
  obtain ⟨c, hrun, -⟩ := hplain.of_answer
  obtain ⟨nodes, fs, hparse, hfs, htext⟩ :=
    givesWoven_render hescape hoffers hescaped budget .root 0 .self hrun
  have hvalue : ∀ t, .value t ∈ fs → Harmless t.toList := fun t ht => hfs.value_harmless ht
  refine ⟨fs, ⟨⟨nodes, hparse, hfs⟩, htext, fun t ht => ?_, hvalue, fun c hc => ?_⟩⟩
  · exact hfs.fixed_mem .self hparse (List.Subset.refl _) ht
  · rw [htext]
    exact Fragment.count_markup hvalue hc

end

/-- A name and a getter for a quote before the text of the view. -/
def boldSetup : Setup CallCounts where
  engine := {}
  inclusions := some fun name =>
    if name = "p" then some "\x7b\x7bg\x7d\x7d /" else none
  callables := .ofRecipes #[.getter (.display "'")]

def boldView : Value := .object [("g", .getter 0), ("x", .string "<&>")]

def boldTemplate : String := "<b>\x7b\x7bx\x7d\x7d</b>\n  \x7b\x7b>p\x7d\x7d\n"

theorem boldView_offers : boldView.OffersNoTransformer boldSetup.callables := by
  refine Value.TransformerFree.offersNoTransformer ?_ fun handle memory receiver => ?_
  · exact .object (List.forall_mem_cons.2 ⟨.getter 0, List.forall_mem_singleton.2 (.string "<&>")⟩)
  · cases handle with
    | zero => exact .string _
    | succ handle => exact .null

theorem boldTemplate_escaped :
    AllEscaped boldSetup.delimiters boldSetup.inclusions boldTemplate := by
  have hbold : parse boldSetup.delimiters boldTemplate = .ok [.text "<b>" 0 3, .escaped "x" 3 8,
      .text "</b>\n" 8 13, .inclusion "p" 15 21 ⟨[' ', ' '], 0, false⟩] := by decide +kernel
  have hinner : parse boldSetup.delimiters "  \x7b\x7bg\x7d\x7d /" =
      .ok [.text "  " 0 2, .escaped "g" 2 7, .text " /" 7 9] := by decide +kernel
  have hall {inner : String}
      (hreach : Reachable boldSetup.delimiters boldSetup.inclusions boldTemplate inner) :
      inner = boldTemplate ∨ inner = "  \x7b\x7bg\x7d\x7d /" := by
    induction hreach with
    | self => exact .inl rfl
    | included _ hparse hmem hinclusions htext ih =>
      obtain rfl | rfl := ih
      · rw [hbold] at hparse
        cases hparse
        cases hinclusions
        simp [Node.flatten.flattenAll, Node.flatten] at hmem
        obtain ⟨rfl, rfl, rfl, rfl⟩ := hmem
        cases htext
        exact .inr (by decide +kernel)
      · rw [hinner] at hparse
        cases hparse
        simp [Node.flatten.flattenAll, Node.flatten] at hmem
  intro inner nodes hreach hparse key start stop hmem
  obtain rfl | rfl := hall hreach
  · rw [hbold] at hparse
    cases hparse
    simp [Node.flatten.flattenAll, Node.flatten] at hmem
  · rw [hinner] at hparse
    cases hparse
    simp [Node.flatten.flattenAll, Node.flatten] at hmem

def boldReply : Option (Except Fault Reply × Session CallCounts) :=
  boldSetup.engine.answer 2 boldSetup.callables (.fresh [] fun _ => .root .null)
    (.render boldTemplate boldView boldSetup.inclusions boldSetup.options)

/-- A string and the answer of a getter, both with markup in them, one of them in an included
template. -/
theorem escaped_output_harmless_bold :
    boldView.OffersNoTransformer boldSetup.callables ∧
    AllEscaped boldSetup.delimiters boldSetup.inclusions boldTemplate ∧
    (∃ session', boldReply =
      some (.ok (.text "<b>&lt;&amp;&gt;</b>\n  &#39;[object Object] /"), session')) ∧
    ∃ fragments, Provenance boldSetup.delimiters boldSetup.inclusions boldTemplate
      "<b>&lt;&amp;&gt;</b>\n  &#39;[object Object] /" fragments := by
  have htext : boldReply.map (fun answer => replyText? answer.1) =
      some (some "<b>&lt;&amp;&gt;</b>\n  &#39;[object Object] /") := by decide +kernel
  obtain ⟨⟨reply, session'⟩, hreply, htext⟩ := Option.map_eq_some_iff.1 htext
  obtain rfl := replyText?_eq_some htext
  exact ⟨boldView_offers, boldTemplate_escaped, ⟨session', hreply⟩,
    escaped_output_harmless (.fresh _ _) rfl boldView_offers boldTemplate_escaped hreply⟩

end TagTemplate
