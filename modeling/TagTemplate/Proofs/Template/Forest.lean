import TagTemplate.Proofs.Template.Reading

/-!
# Nesting as a grammar

`Forest ps ns`: the nodes `ns` are what the parts `ps` say when opening and closing tags are read
as brackets. Main statements: `Balanced.forest`, parts with balanced tags have a forest;
`Forest.nest_eq`, nesting the parts makes that forest; `Nesting.openBlocks_eq`, the stack of open
blocks follows the bracket word as the stack of keys does.
-/

namespace TagTemplate

namespace Tag

/-- The tag makes no node and is no bracket. -/
def Silent (t : Tag) : Prop := t.kind = .comment ∨ t.kind = .delimiters

/-- The node of a tag that makes one by itself. -/
def leaf? (t : Tag) (m : Margin) : Option Node :=
  match t.kind with
  | .escaped => some (.escaped t.key t.start t.stop)
  | .unescaped => some (.unescaped t.key t.start t.stop)
  | .inclusion => some (.inclusion t.key t.start t.stop m)
  | .block | .inverted | .blockEnd | .comment | .delimiters => none

/-- The node of an opening tag. -/
def blockNode (o : Tag) (children : List Node) (bodyStop : Nat) : Node :=
  if o.kind = .inverted then .inverted o.key o.start o.stop children bodyStop
  else .block o.key o.start o.stop children bodyStop

end Tag

/-- The nodes that some parts make. -/
inductive Forest : List Part → List Node → Prop
  | nil : Forest [] []
  | text {text : String} {start stop : Nat} {ps : List Part} {ns : List Node} :
      Forest ps ns → Forest (.text text start stop :: ps) (.text text start stop :: ns)
  | silent {t : Tag} {m : Margin} {ps : List Part} {ns : List Node} :
      t.Silent → Forest ps ns → Forest (.tag t m :: ps) ns
  | leaf {t : Tag} {m : Margin} {n : Node} {ps : List Part} {ns : List Node} :
      t.leaf? m = some n → Forest ps ns → Forest (.tag t m :: ps) (n :: ns)
  | block {o e : Tag} {m m' : Margin} {inside after : List Part} {children ns : List Node} :
      o.Opens → e.Closes → o.key = e.key → Forest inside children → Forest after ns →
      Forest (.tag o m :: (inside ++ .tag e m' :: after)) (o.blockNode children e.start :: ns)

/-! ## Balanced tags make a forest -/

/-- A tag that is no bracket makes a node or none. -/
theorem Tag.leaf_or_silent {t : Tag} (ho : ¬ t.Opens) (hc : ¬ t.Closes) (m : Margin) :
    (∃ n, t.leaf? m = some n) ∨ t.Silent := by
  unfold Tag.Opens at ho
  unfold Tag.Closes at hc
  unfold Tag.Silent
  cases hkind : t.kind <;> simp_all [Tag.leaf?]

theorem Forest.other {t : Tag} {m : Margin} {ps : List Part} {ns : List Node} (ho : ¬ t.Opens)
    (hc : ¬ t.Closes) (h : Forest ps ns) : ∃ ns', Forest (.tag t m :: ps) ns' := by
  rcases Tag.leaf_or_silent ho hc m with ⟨n, hleaf⟩ | hsilent
  · exact ⟨_, .leaf hleaf h⟩
  · exact ⟨_, .silent hsilent h⟩

theorem Forest.texts {ps rest : List Part} {ns : List Node} (hps : partTags ps = [])
    (h : Forest rest ns) : ∃ ns', Forest (ps ++ rest) ns' := by
  induction ps with
  | nil => exact ⟨ns, h⟩
  | cons p ps ih =>
    cases p with
    | tag => cases hps
    | text =>
      obtain ⟨ns', h'⟩ := ih hps
      exact ⟨_, .text h'⟩

theorem partTags_eq_cons {ps : List Part} {t : Tag} {ts : List Tag} (h : partTags ps = t :: ts) :
    ∃ texts m rest, ps = texts ++ .tag t m :: rest ∧ partTags texts = [] ∧ partTags rest = ts := by
  induction ps with
  | nil => cases h
  | cons p ps ih =>
    cases p with
    | tag t m =>
      cases h
      exact ⟨[], m, ps, rfl, rfl, rfl⟩
    | text text start stop =>
      obtain ⟨texts, m, rest, rfl, htexts, hrest⟩ := ih h
      exact ⟨.text text start stop :: texts, m, rest, rfl, htexts, hrest⟩

theorem partTags_eq_append {ps : List Part} {a b : List Tag} (h : partTags ps = a ++ b) :
    ∃ front rest, ps = front ++ rest ∧ partTags front = a ∧ partTags rest = b :=
  List.filterMap_eq_append_iff.1 h

/-- Parts with balanced tags make a forest. -/
theorem Balanced.forest {ts : List Tag} (h : Balanced ts) {ps : List Part}
    (hps : partTags ps = ts) : ∃ ns, Forest ps ns := by
  induction h generalizing ps with
  | nil => simpa using Forest.texts hps .nil
  | other ho hc _ ih =>
    obtain ⟨texts, m, rest, rfl, htexts, hrest⟩ := partTags_eq_cons hps
    obtain ⟨ns, hns⟩ := ih hrest
    obtain ⟨ns', hns'⟩ := hns.other ho hc
    exact Forest.texts htexts hns'
  | block ho he hkey _ _ ihinside ihafter =>
    obtain ⟨texts, m, rest, rfl, htexts, hrest⟩ := partTags_eq_cons hps
    obtain ⟨inside, closing, rfl, hinside, hclosing⟩ := partTags_eq_append hrest
    obtain ⟨more, m', after, rfl, hmore, hafter⟩ := partTags_eq_cons hclosing
    -- the texts before the closing tag stand inside the block
    have hbody := partTags_append inside more
    rw [hinside, hmore, List.append_nil] at hbody
    obtain ⟨children, hchildren⟩ := ihinside hbody
    obtain ⟨ns, hns⟩ := ihafter hafter
    rw [← List.append_assoc]
    exact Forest.texts htexts (.block ho he hkey hchildren hns)

/-! ## Nesting makes it -/

namespace Nesting

theorem step_leaf {t : Tag} {m : Margin} {node : Node} (h : t.leaf? m = some node) (n : Nesting) :
    n.step (.tag t m) = n.add node := by
  rw [Tag.leaf?] at h
  split at h
  · next hkind => cases h; simp only [step, hkind]
  · next hkind => cases h; simp only [step, hkind]
  · next hkind => cases h; simp only [step, hkind]
  all_goals cases h

theorem step_silent {t : Tag} {m : Margin} (h : t.Silent) (n : Nesting) :
    n.step (.tag t m) = n := by
  rcases h with h | h <;> simp only [step, h]

theorem step_opens {t : Tag} {m : Margin} (h : t.Opens) (n : Nesting) :
    n.step (.tag t m) = n.enter (t.kind = .inverted) t := by
  rcases h with h | h <;> simp [step, h]

theorem step_closes {t : Tag} {m : Margin} (h : t.Closes) (n : Nesting) :
    n.step (.tag t m) = n.leave t := by
  simp only [step, show t.kind = .blockEnd from h]

/-- Nodes added one by one to the innermost open block. -/
theorem foldl_add_inside (ns : List Node) (b : OpenBlock) (outer : List OpenBlock)
    (done : List Node) : ns.foldl add ⟨b :: outer, done⟩ =
      ⟨{ b with inside := ns.reverse ++ b.inside } :: outer, done⟩ := by
  induction ns generalizing b with
  | nil => rfl
  | cons n ns ih =>
    rw [List.foldl_cons, add, ih]
    simp

theorem foldl_add_done (ns done : List Node) :
    ns.foldl add ⟨[], done⟩ = ⟨[], ns.reverse ++ done⟩ := by
  induction ns generalizing done with
  | nil => rfl
  | cons n ns ih =>
    rw [List.foldl_cons, add, ih]
    simp

/-- Closing a block adds its node to what is around it. -/
theorem leave_block (n : Nesting) (o e : Tag) (children : List Node) :
    (children.foldl add (n.enter (o.kind = .inverted) o)).leave e =
      n.add (o.blockNode children e.start) := by
  rw [enter, foldl_add_inside, leave]
  simp [OpenBlock.close, Tag.blockNode]

end Nesting

theorem Forest.foldl_step {ps : List Part} {ns : List Node} (h : Forest ps ns) (n : Nesting) :
    ps.foldl Nesting.step n = ns.foldl Nesting.add n := by
  -- whatever is open around: the parts inside a block are nested with the block on top
  induction h generalizing n with
  | nil => rfl
  | text _ ih =>
    rw [List.foldl_cons, List.foldl_cons, ih]
    rfl
  | silent ht _ ih => rw [List.foldl_cons, Nesting.step_silent ht, ih]
  | leaf hleaf _ ih => rw [List.foldl_cons, List.foldl_cons, Nesting.step_leaf hleaf, ih]
  | block ho he _ _ _ ihinside ihafter =>
    rw [List.foldl_cons, Nesting.step_opens ho, List.foldl_append, ihinside, List.foldl_cons,
      Nesting.step_closes he, Nesting.leave_block, ihafter, List.foldl_cons]

theorem Forest.nest_eq {ps : List Part} {ns : List Node} (h : Forest ps ns) : nest ps = ns := by
  rw [nest, h.foldl_step, Nesting.foldl_add_done]
  simp

/-- The tree of a template is the forest of the layout of its pieces. -/
theorem forest_of_parse {d : Delimiters} {template : String} {nodes : List Node}
    (h : parse d template = .ok nodes) : Forest (layout (Pieces.ofText d template).list) nodes := by
  obtain ⟨-, hbalanced, rfl⟩ := parse_eq_ok_iff.1 h
  obtain ⟨ns, hns⟩ := hbalanced.forest (tagsOf_layout _)
  rw [hns.nest_eq]
  exact hns

/-! ## Where the nodes of a forest come from -/

theorem flattenAll_text (text : String) (start stop : Nat) (ns : List Node) :
    Node.flatten.flattenAll (.text text start stop :: ns) =
      .text text start stop :: Node.flatten.flattenAll ns := rfl

theorem flattenAll_leaf {t : Tag} {m : Margin} {n : Node} (h : t.leaf? m = some n)
    (ns : List Node) :
    Node.flatten.flattenAll (n :: ns) = n :: Node.flatten.flattenAll ns := by
  rw [Tag.leaf?] at h
  split at h
  all_goals cases h
  all_goals rfl

theorem flattenAll_block (o : Tag) (children : List Node) (bodyStop : Nat) (ns : List Node) :
    Node.flatten.flattenAll (o.blockNode children bodyStop :: ns) =
      o.blockNode children bodyStop ::
        (Node.flatten.flattenAll children ++ Node.flatten.flattenAll ns) := by
  rw [Tag.blockNode]
  split <;> rfl

/-- The part or the parts of which a node is made. -/
inductive Origin (ps : List Part) : Node → Prop
  | text {text : String} {start stop : Nat} :
      .text text start stop ∈ ps → Origin ps (.text text start stop)
  | leaf {t : Tag} {m : Margin} {n : Node} :
      .tag t m ∈ ps → t.leaf? m = some n → Origin ps n
  | block {before inside after : List Part} {o e : Tag} {m m' : Margin} {children : List Node} :
      ps = before ++ .tag o m :: (inside ++ .tag e m' :: after) → o.Opens → e.Closes →
      o.key = e.key → Forest inside children → Origin ps (o.blockNode children e.start)

theorem Origin.append {ps : List Part} {n : Node} (h : Origin ps n) (a b : List Part) :
    Origin (a ++ (ps ++ b)) n := by
  cases h with
  | text hp => exact .text (List.mem_append_right _ (List.mem_append_left _ hp))
  | leaf hp hleaf => exact .leaf (List.mem_append_right _ (List.mem_append_left _ hp)) hleaf
  | @block before inside after o e m m' children hps ho he hkey hinside =>
    have hsplit : a ++ (ps ++ b) =
        (a ++ before) ++ .tag o m :: (inside ++ .tag e m' :: (after ++ b)) := by
      rw [hps]
      simp
    exact .block hsplit ho he hkey hinside

theorem Origin.cons {ps : List Part} {n : Node} (h : Origin ps n) (p : Part) :
    Origin (p :: ps) n := by
  simpa using h.append [p] []

/-- Every node of a forest comes from its parts. -/
theorem Forest.origin {ps : List Part} {ns : List Node} (h : Forest ps ns) {n : Node}
    (hn : n ∈ Node.flatten.flattenAll ns) : Origin ps n := by
  induction h with
  | nil => cases hn
  | text _ ih =>
    rw [flattenAll_text] at hn
    rcases List.mem_cons.1 hn with rfl | hn
    · exact .text List.mem_cons_self
    · exact (ih hn).cons _
  | silent _ _ ih => exact (ih hn).cons _
  | leaf hleaf _ ih =>
    rw [flattenAll_leaf hleaf] at hn
    rcases List.mem_cons.1 hn with rfl | hn
    · exact .leaf List.mem_cons_self hleaf
    · exact (ih hn).cons _
  | @block o e m m' inside after children ns ho he hkey hinside _ ihinside ihafter =>
    rw [flattenAll_block] at hn
    rcases List.mem_cons.1 hn with rfl | hn
    · exact .block (List.nil_append _).symm ho he hkey hinside
    rcases List.mem_append.1 hn with hn | hn
    · exact (ihinside hn).append [.tag o m] (.tag e m' :: after)
    · simpa using ((ihafter hn).cons (.tag e m')).append (.tag o m :: inside) []

/-! ## The two stacks -/

namespace Nesting

/-- The keys of the open blocks, innermost first. -/
def keys (n : Nesting) : List String := n.openBlocks.map OpenBlock.key

theorem keys_add (n : Nesting) (node : Node) : (n.add node).keys = n.keys := by
  obtain ⟨openBlocks, done⟩ := n
  cases openBlocks <;> rfl

/-- One tag changes the open blocks as it changes the stack of keys. -/
theorem keys_step {n : Nesting} {t : Tag} {m : Margin} {source : String} {after : List String}
    (h : t.keysAfter source n.keys = .ok after) : (n.step (.tag t m)).keys = after := by
  by_cases ho : t.Opens
  · rw [Tag.keysAfter_opens ho] at h
    cases h
    rw [step_opens ho]
    rfl
  by_cases hc : t.Closes
  · rw [step_closes hc]
    obtain ⟨openBlocks, done⟩ := n
    -- the closing tag fits, so a block is open
    obtain ⟨b, outer, hblocks, -, rfl⟩ :=
      List.map_eq_cons_iff.1 (Tag.keysAfter_closes_eq_ok hc h)
    obtain rfl : openBlocks = b :: outer := hblocks
    rw [leave, keys_add]
    rfl
  · rw [Tag.keysAfter_other ho hc] at h
    cases h
    rcases Tag.leaf_or_silent ho hc m with ⟨node, hleaf⟩ | hsilent
    · rw [step_leaf hleaf, keys_add]
    · rw [step_silent hsilent]

/-- The open blocks after some parts have the keys that the stack of keys has after their tags. -/
theorem keys_foldl {ps : List Part} {n : Nesting} {source : String} {after : List String}
    (h : keysThrough source n.keys (partTags ps) = .ok after) :
    (ps.foldl step n).keys = after := by
  induction ps generalizing n with
  | nil =>
    cases h
    rfl
  | cons p ps ih =>
    rw [List.foldl_cons]
    cases p with
    | text text start stop =>
      refine ih ?_
      rw [step, keys_add]
      exact h
    | tag t m =>
      rw [partTags_tag, keysThrough_cons] at h
      obtain ⟨keys, hkeys, h⟩ := bind_eq_ok h
      refine ih ?_
      rw [keys_step hkeys]
      exact h

/-- The blocks open after some parts are those left open by their tags. -/
theorem openBlocks_eq {ps : List Part} {openers : List Tag} (h : OpenAfter (partTags ps) openers) :
    (ps.foldl step {}).openBlocks.map OpenBlock.key = openers.map Tag.key :=
  keys_foldl (n := {}) (h.keysThrough "")

end Nesting

end TagTemplate
