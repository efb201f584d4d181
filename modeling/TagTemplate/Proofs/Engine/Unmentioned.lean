import TagTemplate.Proofs.Engine.Faithful
import TagTemplate.Proofs.Engine.Guarded
import TagTemplate.Proofs.Template.Offsets
import TagTemplate.Proofs.Template.Outline

/-!
# Fields that no tag mentions

Two runs of one template, with views that agree but for the field under one key. Main statement:
`unmentioned_field_unseen`, if neither the template nor a text that may be included has a tag that
mentions the key, then setting the field or removing it changes no reply.
-/

namespace TagTemplate

/-! ## Names that mention a key -/

/-- The name is the key, or the key with a dot and more behind it. -/
def Mentions (key name : String) : Prop := name = key ∨ key.toList ++ ['.'] <+: name.toList

instance (key name : String) : Decidable (Mentions key name) :=
  inferInstanceAs (Decidable (_ ∨ _))

/-- No tag of the text mentions the key, as far as the tags of the text can be read. -/
def Unmentioned (d : Delimiters) (key text : String) : Prop :=
  ∀ t ∈ tagsOf (Pieces.ofText d text).list, ¬Mentions key t.key

instance (d : Delimiters) (key text : String) : Decidable (Unmentioned d key text) :=
  List.decidableBAll _ (tagsOf (Pieces.ofText d text).list)

/-- White space that is put behind the line breaks of a name makes it mention nothing else, as long
as a key is on one line. -/
theorem Mentions.of_indentKey {margin : List Char} {key name : String} (hmargin : '\n' ∉ margin)
    (hline : '\n' ∉ key.toList) (h : Mentions key (indentKey margin name)) : Mentions key name := by
  rcases h with hsame | hprefix
  · have hkey : indentKey margin key = key := indentKey_line hline
    exact .inl (indentKey_injective hmargin (hsame.trans hkey.symm))
  · have hdot : '\n' ∉ key.toList ++ ['.'] := by
      intro hmem
      rcases List.mem_append.1 hmem with hmem | hmem
      · exact hline hmem
      · cases List.mem_singleton.1 hmem
    rw [indentKey, String.toList_ofList, prefix_indent_iff hdot] at hprefix
    exact .inr hprefix

/-- At no margin does an included text mention more than it does by itself. -/
theorem Unmentioned.includedText {d : Delimiters} {key text : String} (h : Unmentioned d key text)
    (hd : d.BlankFree) (hline : '\n' ∉ key.toList) (margin : Margin) :
    Unmentioned d key (includedText margin text) := by
  rw [TagTemplate.includedText]
  split
  · intro u hu hmentions
    rw [reflow_eq] at hu
    have htags := (Pieces.ofText_moved (blanks_plainIndentation margin.indentation) hd text
      (!margin.afterText)).tags
    have hlabel : u.label ∈ (tagsOf (Pieces.ofText d text).list).map fun t =>
        (t.kind, indentKey (plainIndentation margin.indentation) t.key) :=
      htags ▸ List.mem_map_of_mem hu
    obtain ⟨t, ht, hsame⟩ := List.mem_map.1 hlabel
    have hkey : u.key = indentKey (plainIndentation margin.indentation) t.key :=
      congrArg Prod.snd hsame.symm
    rw [hkey] at hmentions
    exact h t ht (hmentions.of_indentKey (plainIndentation_line _) hline)
  · exact h

/-- No node among some, or inside them, has a key that mentions this one. -/
def UnmentionedIn (key : String) (all : List Node) : Prop :=
  ∀ n ∈ all, ∀ name ∈ n.key?, ¬Mentions key name

theorem Origin.key_mem {ps : List Part} {n : Node} (h : Origin ps n) {name : String}
    (hname : n.key? = some name) : ∃ t ∈ partTags ps, t.key = name := by
  cases h with
  | text => cases hname
  | @leaf t m n hmem hleaf =>
    refine ⟨t, mem_partTags hmem, ?_⟩
    rw [Tag.leaf?] at hleaf
    split at hleaf
    all_goals cases hleaf
    all_goals exact Option.some.inj hname
  | @block before inside after o e m m' children hps ho he hkey hinside =>
    refine ⟨o, mem_partTags (m := m) (by rw [hps]; simp), ?_⟩
    rw [Tag.blockNode] at hname
    split at hname
    all_goals exact Option.some.inj hname

/-- A tree mentions what the tags of its template mention. -/
theorem Unmentioned.of_parse {d : Delimiters} {key template : String} {nodes : List Node}
    (h : Unmentioned d key template) (hparse : parse d template = .ok nodes) :
    UnmentionedIn key (Node.flatten.flattenAll nodes) := by
  intro n hn name hname
  obtain ⟨t, ht, rfl⟩ := ((forest_of_parse hparse).origin hn).key_mem hname
  rw [tagsOf_layout] at ht
  exact h t ht

/-! ## Views that agree but for one field -/

namespace Value

/-- Two values are the same, or they are objects with the same fields but for one key. -/
inductive AlikeBut (key : String) : Value → Value → Prop
  | same (v : Value) : AlikeBut key v v
  | fields {fs gs : List (String × Value)} :
      (∀ other, other ≠ key → field? other gs = field? other fs) →
      AlikeBut key (.object fs) (.object gs)

/-- The fields less those under a key. -/
def removeField (key : String) (fields : List (String × Value)) : List (String × Value) :=
  fields.filter (·.1 != key)

theorem field?_cons (key other : String) (v : Value) (fields : List (String × Value)) :
    field? other ((key, v) :: fields) = if key = other then some v else field? other fields := by
  rw [field?, List.find?_cons]
  by_cases hkey : key = other
  · rw [if_pos hkey, beq_iff_eq.2 hkey]
    rfl
  · rw [if_neg hkey, beq_false_of_ne hkey]
    rfl

theorem field?_insertField {key other : String} (h : other ≠ key) (x : Value)
    (fields : List (String × Value)) :
    field? other (insertField key x fields) = field? other fields := by
  induction fields with
  | nil => rw [insertField, field?_cons, if_neg h.symm]
  | cons field fields ih =>
    obtain ⟨k, v⟩ := field
    rw [insertField]
    split
    · rw [field?_cons, if_neg h.symm]
    · split
      · next hkey => rw [field?_cons, field?_cons, if_neg h.symm, if_neg (hkey ▸ h.symm)]
      · rw [field?_cons, field?_cons, ih]

theorem field?_removeField {key other : String} (h : other ≠ key)
    (fields : List (String × Value)) :
    field? other (removeField key fields) = field? other fields := by
  have hkeep (field : String × Value) :
      decide ((field.1 != key) = true ∧ (field.1 == other) = true) = (field.1 == other) := by
    by_cases hfield : field.1 = other
    · simp [hfield, h]
    · simp [hfield]
  rw [field?, field?, removeField, List.find?_filter, funext hkeep]

namespace AlikeBut

variable {key name : String} {v v' w : Value}

theorem symm (h : AlikeBut key v v') : AlikeBut key v' v := by
  cases h with
  | same => exact .same v
  | fields hfields => exact .fields fun other hne => (hfields other hne).symm

theorem display_eq (h : AlikeBut key v v') : v'.display = v.display := by
  cases h with
  | same => rfl
  | fields => rfl

theorem isNull_eq (h : AlikeBut key v v') : v'.isNull = v.isNull := by
  cases h with
  | same => rfl
  | fields => rfl

theorem isNumber_eq (h : AlikeBut key v v') : v'.isNumber = v.isNumber := by
  cases h with
  | same => rfl
  | fields => rfl

theorem hasPart {k : String} (h : AlikeBut key v v') (hk : k ≠ key) (hpart : HasPart k v w) :
    HasPart k v' w := by
  cases h with
  | same => exact hpart
  | fields hfields =>
    cases hpart with
    | field hfield => exact .field ((hfields k hk).trans hfield)

theorem hasProperty {k : String} (h : AlikeBut key v v') (hk : k ≠ key)
    (hproperty : HasProperty k v w) : HasProperty k v' w := by
  cases hproperty with
  | part hpart => exact .part (h.hasPart hk hpart)
  | length hlength =>
    cases h with
    | same => exact .length hlength

/-- A name that does not mention the key leads to the same value in both: it can start with another
field only. -/
theorem holds (h : AlikeBut key v v') (hname : ¬Mentions key name) (hholds : v.Holds name w) :
    v'.Holds name w := by
  cases hholds with
  | property hplain hproperty =>
    exact .property hplain (h.hasProperty (fun hkey => hname (.inl hkey)) hproperty)
  | path hdotted hleads =>
    refine .path hdotted ?_
    generalize hpath : name.toList = path at hleads
    cases hleads with
    | last hdot =>
      obtain ⟨before, after, -, -, hsplit⟩ := hdotted
      rw [← hpath, hsplit] at hdot
      exact absurd (List.mem_append_right _ List.mem_cons_self) hdot
    | @step k rest _ part _ hdot hpart hrest =>
      have hk : String.ofList k ≠ key := by
        rintro rfl
        refine hname (.inr ⟨rest, ?_⟩)
        rw [hpath, String.toList_ofList, List.append_assoc]
        rfl
      exact .step hdot (h.hasPart hk hpart) hrest

theorem resolve?_eq (h : AlikeBut key v v') (hname : ¬Mentions key name) :
    v'.resolve? name = v.resolve? name := by
  refine Option.ext fun w => ?_
  rw [resolve?_iff, resolve?_iff]
  exact ⟨h.symm.holds hname, h.holds hname⟩

end AlikeBut

end Value

/-- Two places with views that agree but for one field. -/
def Standpoint.AlikeBut (key : String) (here here' : Standpoint) : Prop :=
  List.Forall₂ (Value.AlikeBut key) here.views here'.views

namespace Standpoint.AlikeBut

variable {key name : String} {here here' : Standpoint}

theorem push (h : AlikeBut key here here') {v v' : Value} (hv : v.AlikeBut key v') :
    AlikeBut key (here.push v) (here'.push v') :=
  .cons hv h

theorem resolveIn_eq {vs vs' : List Value} (h : List.Forall₂ (Value.AlikeBut key) vs vs')
    (hname : ¬Mentions key name) : Scope.resolveIn name vs' = Scope.resolveIn name vs := by
  induction h with
  | nil => rfl
  | cons hv _ ih => rw [Scope.resolveIn, Scope.resolveIn, hv.resolve?_eq hname, ih]

/-- What is found under a name that does not mention the key agrees but for the field; it is the
same, unless it is the view itself. -/
theorem find (h : AlikeBut key here here') (hname : ¬Mentions key name) :
    (here.find name).AlikeBut key (here'.find name) := by
  rw [Standpoint.find, Standpoint.find]
  split
  · cases h with
    | cons hview => exact hview
  · rw [resolveIn_eq h hname]
    exact .same _

end Standpoint.AlikeBut

/-! ## Writing with the one and the other -/

section

variable {σ : Type} {s : Setup σ} {render : Standpoint → Nat → String → PlainM σ String}
  {body : BlockText} {key : String}

/-- At a place without callables a lookup does nothing but find. -/
theorem Setup.seek_eq_pure {here : Standpoint} {name : String}
    (h : ∀ handle, here.find name ≠ .getter handle) :
    s.seek here name = pure (here.find name) := by
  rw [seek]
  split
  · next handle hfound => exact absurd hfound (h handle)
  · rfl

/-- What is found at both places, where the first one is without callables. -/
theorem seek_alike {here here' : Standpoint} (hplace : here.LambdaFree)
    (halike : here.AlikeBut key here') {name : String} (hname : ¬Mentions key name) :
    ∃ v v', v.LambdaFree ∧ v.AlikeBut key v' ∧ s.seek here name = pure v ∧
      s.seek here' name = pure v' := by
  have hfree : (here.find name).LambdaFree := Value.LambdaFree.inherited.find hplace name
  have hfound := halike.find hname
  refine ⟨_, _, hfree, hfound, Setup.seek_eq_pure ?_, Setup.seek_eq_pure ?_⟩
  · intro handle hgetter
    rw [hgetter] at hfree
    cases hfree
  · intro handle hgetter
    rw [hgetter] at hfound
    generalize here.find name = v at hfree hfound
    cases hfound
    cases hfree

theorem PlainM.each_congr {α : Type} {write write' : α → PlainM σ String} {xs : List α}
    (h : ∀ x ∈ xs, write' x = write x) : PlainM.each write' xs = PlainM.each write xs := by
  induction xs with
  | nil => rfl
  | cons x xs ih =>
    obtain ⟨hx, hxs⟩ := List.forall_mem_cons.1 h
    rw [each, each, hx, ih hxs]

/-- What is included is rendered in the same way at two places that agree but for the field. -/
def SameInclusions (s : Setup σ) (key : String)
    (render : Standpoint → Nat → String → PlainM σ String) : Prop :=
  ∀ {here here' : Standpoint} (depth : Nat) (margin : Margin), here.LambdaFree →
    here.AlikeBut key here' → ∀ inclusions ∈ s.inclusions, ∀ name, ∀ text ∈ inclusions name,
      render here' depth (includedText margin text) = render here depth (includedText margin text)

mutual

theorem write_unmentioned {all : List Node} (hall : UnmentionedIn key all)
    (hrender : SameInclusions s key render) (depth : Nat) {here here' : Standpoint}
    (hplace : here.LambdaFree) (halike : here.AlikeBut key here') (n : Node)
    (hn : n.flatten ⊆ all) :
    n.writePlainly s render body depth here' = n.writePlainly s render body depth here :=
  match n with
  | .text text _ _ => by rw [Node.writePlainly, Node.writePlainly]
  | .escaped name _ _ => by
    obtain ⟨v, v', -, hv, hseek, hseek'⟩ :=
      seek_alike (s := s) hplace halike (hall _ (hn List.mem_cons_self) name rfl)
    have htext : s.options.escapedText v' = s.options.escapedText v := by
      unfold Options.escapedText
      rw [hv.isNull_eq, hv.isNumber_eq, hv.display_eq]
    rw [Node.writePlainly, Node.writePlainly, hseek, hseek', pure_bind, pure_bind, htext]
  | .unescaped name _ _ => by
    obtain ⟨v, v', -, hv, hseek, hseek'⟩ :=
      seek_alike (s := s) hplace halike (hall _ (hn List.mem_cons_self) name rfl)
    have htext : Options.plainText v' = Options.plainText v := by
      unfold Options.plainText
      rw [hv.isNull_eq, hv.display_eq]
    rw [Node.writePlainly, Node.writePlainly, hseek, hseek', pure_bind, pure_bind, htext]
  | .block name start bodyStart children bodyStop => by
    have hchildren (depth : Nat) {here here' : Standpoint} (hplace : here.LambdaFree)
        (halike : here.AlikeBut key here') :=
      writeNodes_unmentioned hall hrender depth hplace halike children
        fun n hmem => hn (List.mem_cons_of_mem _ hmem)
    obtain ⟨v, v', hfree, hv, hseek, hseek'⟩ :=
      seek_alike (s := s) hplace halike (hall _ (hn List.mem_cons_self) name rfl)
    rw [Node.writePlainly, Node.writePlainly, hseek, hseek', pure_bind, pure_bind]
    cases hv with
    | fields hfields =>
      -- the one view was found as the other was, and both are entered
      have hinner (depth : Nat) :=
        hchildren depth (hplace.push hfree) (halike.push (.fields hfields))
      show (PlainM.lift _ >>= _) = (PlainM.lift _ >>= _)
      simp only [hinner]
    | same =>
      cases v with
      | array items =>
        have hitems (depth : Nat) : PlainM.each (fun item =>
              writePlainly s render body depth (here'.push item) children) items =
            PlainM.each (fun item =>
              writePlainly s render body depth (here.push item) children) items :=
          PlainM.each_congr fun item hitem =>
            hchildren depth (hplace.push (hfree.item hitem)) (halike.push (.same item))
        simp only [hitems]
      | object | string | int | float =>
        have hinner (depth : Nat) := hchildren depth (hplace.push hfree) (halike.push (.same _))
        simp only [hinner]
      | null | bool | getter => simp only [hchildren depth hplace halike]
      | transformer handle => cases hfree
  | .inverted name start bodyStart children bodyStop => by
    have hchildren := writeNodes_unmentioned hall hrender depth hplace halike children
      fun n hmem => hn (List.mem_cons_of_mem _ hmem)
    obtain ⟨v, v', -, hv, hseek, hseek'⟩ :=
      seek_alike (s := s) hplace halike (hall _ (hn List.mem_cons_self) name rfl)
    rw [Node.writePlainly, Node.writePlainly, hseek, hseek', pure_bind, pure_bind, hchildren]
    cases hv with
    | same => rfl
    | fields => rfl
  | .inclusion name start stop margin => by
    rw [Node.writePlainly, Node.writePlainly, Setup.ask]
    cases hinclusions : s.inclusions with
    | none => rfl
    | some inclusions =>
      cases htext : inclusions name with
      | none => simp only [bind_assoc, pure_bind, htext]
      | some text =>
        have hinner (depth : Nat) :=
          hrender depth margin hplace halike inclusions hinclusions name text htext
        simp only [bind_assoc, pure_bind, htext, hinner]

/-- A tree that does not mention the key is written in the same way at both places. -/
theorem writeNodes_unmentioned {all : List Node} (hall : UnmentionedIn key all)
    (hrender : SameInclusions s key render) (depth : Nat) {here here' : Standpoint}
    (hplace : here.LambdaFree) (halike : here.AlikeBut key here') (ns : List Node)
    (hns : Node.flatten.flattenAll ns ⊆ all) :
    writePlainly s render body depth here' ns = writePlainly s render body depth here ns :=
  match ns with
  | [] => rfl
  | n :: ns => by
    rw [writePlainly, writePlainly,
      write_unmentioned hall hrender depth hplace halike n
        fun _ hmem => hns (List.mem_append_left _ hmem),
      writeNodes_unmentioned hall hrender depth hplace halike ns
        fun _ hmem => hns (List.mem_append_right _ hmem)]

end

/-! ## Rendering with the one and the other -/

/-- No text that may be included has a tag that mentions the key. -/
def Setup.UnmentionedInclusions (s : Setup σ) (key : String) : Prop :=
  ∀ inclusions ∈ s.inclusions, ∀ name, ∀ text ∈ inclusions name, Unmentioned s.delimiters key text

theorem renderPlainly_unmentioned (hd : s.delimiters.BlankFree) (hline : '\n' ∉ key.toList)
    (hincluded : s.UnmentionedInclusions key) (budget : Nat) {here here' : Standpoint}
    (hplace : here.LambdaFree) (halike : here.AlikeBut key here') (depth : Nat) {template : String}
    (htemplate : Unmentioned s.delimiters key template) :
    s.renderPlainly budget here' depth template = s.renderPlainly budget here depth template := by
  induction budget generalizing here here' depth template with
  | zero => rfl
  | succ budget ih =>
    have hrender : SameInclusions s key (s.renderPlainly budget) := by
      intro here here' depth margin hplace halike inclusions hinclusions name text htext
      exact ih hplace halike depth
        ((hincluded inclusions hinclusions name text htext).includedText hd hline margin)
    rw [Setup.renderPlainly, Setup.renderPlainly]
    cases hparse : parse s.delimiters template with
    | error fault => rfl
    | ok nodes =>
      exact writeNodes_unmentioned (htemplate.of_parse hparse) hrender depth hplace halike nodes
        (List.Subset.refl _)

/-- The reply to a call that renders a template with a view. -/
def Setup.replyWith (s : Setup σ) (budget : Nat) (session : Session σ) (template : String)
    (view : Value) : Option (Except Fault Reply) :=
  (s.engine.answer budget s.callables session
    (.render template view s.inclusions s.options)).map Prod.fst

theorem replyWith_eq {session : Session σ} (hreaches : s.engine.Reaches s.callables session)
    (budget : Nat) (template : String) (view : Value) :
    s.replyWith budget session template view =
      ((s.renderPlainly budget ⟨view, []⟩ 0 template).run
        ⟨session.memory, session.shelf.askedNames⟩).map fun (result, _) => result.map .text := by
  have hplain := answer_plainReply s hreaches.sound budget template view
  rw [Setup.replyWith]
  generalize s.engine.answer budget s.callables session _ = o₁,
    (s.renderPlainly budget ⟨view, []⟩ 0 template).run _ = o₂ at hplain ⊢
  cases hplain with
  | exhausted => rfl
  | replied => rfl

theorem map_replyText?_eq_some {reply : Option (Except Fault Reply)} {text : String}
    (h : reply.map replyText? = some (some text)) : reply = some (.ok (.text text)) := by
  obtain ⟨answer, rfl, htext⟩ := Option.map_eq_some_iff.1 h
  rw [replyText?_eq_some htext]

/-- Data that nothing mentions makes no difference. If no tag of the template or of a text that may
be included has the key, or a path that starts with it, then the field under the key can be set to
any value or be removed: the reply stays the same, be it a text or a fault. -/
theorem unmentioned_field_unseen (hd : s.delimiters.BlankFree) (hline : '\n' ∉ key.toList)
    {template : String} (htemplate : Unmentioned s.delimiters key template)
    (hincluded : s.UnmentionedInclusions key) {fields : List (String × Value)}
    (hview : (Value.object fields).LambdaFree) (x : Value) {session : Session σ}
    (hreaches : s.engine.Reaches s.callables session) (budget : Nat) :
    s.replyWith budget session template (.object (Value.insertField key x fields)) =
        s.replyWith budget session template (.object fields) ∧
      s.replyWith budget session template (.object (Value.removeField key fields)) =
        s.replyWith budget session template (.object fields) := by
  have hplace : Standpoint.LambdaFree ⟨.object fields, []⟩ := List.forall_mem_singleton.2 hview
  have hchange {changed : List (String × Value)}
      (hchanged : ∀ other, other ≠ key → Value.field? other changed = Value.field? other fields) :
      s.replyWith budget session template (.object changed) =
        s.replyWith budget session template (.object fields) := by
    have halike : Standpoint.AlikeBut key ⟨.object fields, []⟩ ⟨.object changed, []⟩ :=
      .cons (.fields hchanged) .nil
    rw [replyWith_eq hreaches, replyWith_eq hreaches,
      renderPlainly_unmentioned hd hline hincluded budget hplace halike 0 htemplate]
  exact ⟨hchange fun _ hother => Value.field?_insertField hother x fields,
    hchange fun _ hother => Value.field?_removeField hother fields⟩

end

/-- A text to include, with a line break in a name. -/
def partsSetup : Setup Unit where
  engine := {}
  inclusions := some fun name =>
    if name = "p" then some "\x7b\x7bc\nd\x7d\x7d\x7b\x7b.\x7d\x7d\n" else none
  callables := .none

def partsFields : List (String × Value) :=
  [("a", .object [("b", .int 1)]), ("b", .int 2)]

def partsTemplate : String :=
  "\x7b\x7b#a\x7d\x7d\n\t\x7b\x7b>p\x7d\x7d\n\x7b\x7b/a\x7d\x7d\x7b\x7ba.b\x7d\x7d"

/-- A path that ends with the key does not mention it. -/
theorem unmentioned_field_unseen_parts :
    partsSetup.replyWith 2 (.fresh () fun _ => .root .null) partsTemplate
        (.object (Value.insertField "b" (.array []) partsFields)) =
      some (.ok (.text "\t[object Object]\n1")) ∧
    partsSetup.replyWith 2 (.fresh () fun _ => .root .null) partsTemplate
        (.object (Value.removeField "b" partsFields)) =
      some (.ok (.text "\t[object Object]\n1")) := by
  have hincluded : partsSetup.UnmentionedInclusions "b" := by
    intro inclusions hinclusions name text htext
    obtain rfl := Option.some.inj hinclusions
    obtain ⟨-, hp⟩ := Option.ite_none_right_eq_some.1 htext
    obtain rfl := Option.some.inj hp
    decide +kernel
  have hview : (Value.object partsFields).LambdaFree :=
    .object (List.forall_mem_cons.2 ⟨.object (List.forall_mem_singleton.2 (.int 1)),
      List.forall_mem_singleton.2 (.int 2)⟩)
  have hreply : partsSetup.replyWith 2 (.fresh () fun _ => .root .null) partsTemplate
      (.object partsFields) = some (.ok (.text "\t[object Object]\n1")) :=
    map_replyText?_eq_some (by decide +kernel)
  have hd : partsSetup.delimiters.BlankFree := show Delimiters.standard.BlankFree by decide
  have htemplate : Unmentioned partsSetup.delimiters "b" partsTemplate := by decide +kernel
  obtain ⟨hset, hremoved⟩ := unmentioned_field_unseen hd (by decide) htemplate hincluded hview
    (.array []) (.fresh () fun _ => .root .null) 2
  exact ⟨hset.trans hreply, hremoved.trans hreply⟩

end TagTemplate
