import TagTemplate.Proofs.Template.InForce
import TagTemplate.Proofs.Template.Layout

/-!
# Which templates are read, and as what

A template is read if every tag ends, every tag with delimiters names two, and the tags are
balanced. Its tree then has one node for every tag that makes one, inside the blocks around it.
Main statement: `parse_balanced`.
-/

namespace TagTemplate

def Tag.makesNode (t : Tag) : Bool :=
  match t.kind with
  | .escaped | .unescaped | .inclusion | .block | .inverted => true
  | .blockEnd | .comment | .delimiters => false

/-! ## The tags of a tree -/

namespace Node

/-- The tags that a node and the nodes inside it stand for, in document order, each with the
opening tags of the blocks around it, innermost first. -/
def lineage (above : List Tag) : Node → List (Tag × List Tag)
  | .text .. => []
  | .escaped key start stop => [(⟨.escaped, key, start, stop⟩, above)]
  | .unescaped key start stop => [(⟨.unescaped, key, start, stop⟩, above)]
  | .inclusion key start stop _ => [(⟨.inclusion, key, start, stop⟩, above)]
  | .block key start bodyStart children _ =>
    (⟨.block, key, start, bodyStart⟩, above) ::
      lineageAll (⟨.block, key, start, bodyStart⟩ :: above) children
  | .inverted key start bodyStart children _ =>
    (⟨.inverted, key, start, bodyStart⟩, above) ::
      lineageAll (⟨.inverted, key, start, bodyStart⟩ :: above) children
where
  lineageAll (above : List Tag) : List Node → List (Tag × List Tag)
    | [] => []
    | n :: ns => lineage above n ++ lineageAll above ns

end Node

def lineages (above : List Tag) (ns : List Node) : List (Tag × List Tag) :=
  Node.lineage.lineageAll above ns

theorem lineages_leaf {t : Tag} {m : Margin} {n : Node} (h : t.leaf? m = some n) (above : List Tag)
    (ns : List Node) : lineages above (n :: ns) = (t, above) :: lineages above ns := by
  obtain ⟨kind, key, start, stop⟩ := t
  cases kind <;> cases h <;> rfl

theorem lineages_block {o : Tag} (h : o.Opens) (above : List Tag) (children : List Node)
    (bodyStop : Nat) (ns : List Node) :
    lineages above (o.blockNode children bodyStop :: ns) =
      (o, above) :: (lineages (o :: above) children ++ lineages above ns) := by
  obtain ⟨kind, key, start, stop⟩ := o
  rcases h with h | h
  · obtain rfl : kind = .block := h
    rfl
  · obtain rfl : kind = .inverted := h
    rfl

theorem leaf_makesNode {t : Tag} {m : Margin} {n : Node} (h : t.leaf? m = some n) :
    t.makesNode = true := by
  unfold Tag.makesNode
  cases hkind : t.kind <;> simp_all [Tag.leaf?]

/-- A tree has a node for each tag that makes one, in their order, and for no other. -/
theorem Forest.lineages_fst {ps : List Part} {ns : List Node} (h : Forest ps ns)
    (above : List Tag) : (lineages above ns).map Prod.fst = (partTags ps).filter Tag.makesNode := by
  induction h generalizing above with
  | nil => rfl
  | text _ ih => exact ih above
  | @silent t m ps ns ht _ ih =>
    have hmakes : t.makesNode = false := by
      rcases ht with ht | ht <;> simp [Tag.makesNode, ht]
    rw [partTags_tag, List.filter_cons_of_neg (by simp [hmakes]), ih]
  | leaf hleaf _ ih =>
    rw [partTags_tag, List.filter_cons_of_pos (leaf_makesNode hleaf), lineages_leaf hleaf,
      List.map_cons, ih]
  | @block o e m m' inside after children ns ho he _ _ _ ihinside ihafter =>
    have hopener : o.makesNode = true := by
      rcases ho with ho | ho <;> simp [Tag.makesNode, ho]
    have hcloser : e.makesNode = false := by
      simp [Tag.makesNode, show e.kind = .blockEnd from he]
    rw [partTags_tag, List.filter_cons_of_pos hopener, lineages_block ho, List.map_cons,
      List.map_append, ihinside, ihafter, partTags_append, List.filter_append, partTags_tag,
      List.filter_cons_of_neg (by simp [hcloser])]

theorem Tag.Silent.not_opens {t : Tag} (h : t.Silent) : ¬ t.Opens := by
  rintro (ho | ho) <;> rcases h with h | h <;> exact nomatch h.symm.trans ho

theorem Tag.Silent.not_closes {t : Tag} (h : t.Silent) : ¬ t.Closes := by
  intro hc
  rcases h with h | h <;> exact nomatch h.symm.trans hc

theorem leaf_not_bracket {t : Tag} {m : Margin} {n : Node} (h : t.leaf? m = some n) :
    ¬ t.Opens ∧ ¬ t.Closes := by
  unfold Tag.Opens Tag.Closes
  cases hkind : t.kind <;> simp_all [Tag.leaf?]

theorem Forest.balanced {ps : List Part} {ns : List Node} (h : Forest ps ns) :
    Balanced (partTags ps) := by
  induction h with
  | nil => exact .nil
  | text _ ih => exact ih
  | silent ht _ ih => exact .other ht.not_opens ht.not_closes ih
  | leaf hleaf _ ih =>
    exact .other (leaf_not_bracket hleaf).1 (leaf_not_bracket hleaf).2 ih
  | block ho he hkey _ _ ihinside ihafter =>
    rw [partTags_tag, partTags_append, partTags_tag]
    exact .block ho he hkey ihinside ihafter

/-- Among some tags is one with just these blocks open around it, if `before` stands in front. -/
def FoundIn (before tags : List Tag) (t : Tag) (around : List Tag) : Prop :=
  ∃ front rest, tags = front ++ t :: rest ∧ OpenAfter (before ++ front) around

namespace FoundIn

variable {before tags around : List Tag} {t : Tag}

theorem head (h : OpenAfter before around) : FoundIn before (t :: tags) t around :=
  ⟨[], tags, rfl, by rwa [List.append_nil]⟩

theorem behind (mid : List Tag) (h : FoundIn (before ++ mid) tags t around) :
    FoundIn before (mid ++ tags) t around := by
  obtain ⟨front, rest, rfl, haround⟩ := h
  exact ⟨mid ++ front, rest, (List.append_assoc ..).symm, by rwa [← List.append_assoc]⟩

theorem append (h : FoundIn before tags t around) (more : List Tag) :
    FoundIn before (tags ++ more) t around := by
  obtain ⟨front, rest, rfl, haround⟩ := h
  exact ⟨front, rest ++ more, List.append_assoc .., haround⟩

end FoundIn

/-- A node stands inside the blocks that are open where its tag stands. -/
theorem Forest.lineages_open {ps : List Part} {ns : List Node} (h : Forest ps ns)
    {before above : List Tag} (hopen : OpenAfter before above) {t : Tag} {around : List Tag}
    (hmem : (t, around) ∈ lineages above ns) : FoundIn before (partTags ps) t around := by
  induction h generalizing before above with
  | nil => cases hmem
  | text _ ih => exact ih hopen hmem
  | @silent t' m ps ns ht _ ih =>
    exact (ih (hopen.append (.other ht.not_opens ht.not_closes .nil)) hmem).behind [t']
  | @leaf t' m n ps ns hleaf _ ih =>
    rw [lineages_leaf hleaf] at hmem
    rcases List.mem_cons.1 hmem with heq | hmem
    · cases heq
      exact .head hopen
    · obtain ⟨hopens, hcloses⟩ := leaf_not_bracket hleaf
      exact (ih (hopen.append (.other hopens hcloses .nil)) hmem).behind [t']
  | @block o e m m' inside after children ns ho he hkey hinside _ ihinside ihafter =>
    rw [lineages_block ho] at hmem
    rw [partTags_tag, partTags_append, partTags_tag]
    rcases List.mem_cons.1 hmem with heq | hmem
    · cases heq
      exact .head hopen
    rcases List.mem_append.1 hmem with hmem | hmem
    · -- inside the block `o` is the innermost open tag, behind it all is as before
      exact ((ihinside (hopen.enter ho .nil) hmem).append (e :: partTags after)).behind [o]
    · have hblock := hopen.append (.block ho he hkey hinside.balanced .nil)
      simpa using (ihafter hblock hmem).behind (o :: (partTags inside ++ [e]))

/-! ## Acceptance -/

/-- Every tag that is found ends. -/
def Pieces.AllEnd (ps : Pieces) : Prop := ∀ closing pos, ps.ending ≠ .unclosed closing pos

/-- What is wrong with a template: the first tag of its pieces that is no part of a balanced word,
does not end or does not name two delimiters, or else the innermost block left open. -/
inductive FirstFault (d : Delimiters) (template : String) (ps : Pieces) : Fault → Prop
  /-- A closing tag where no block is open. -/
  | unopened {before after : List Tag} {e : Tag} :
      tagsOf ps.list = before ++ e :: after → Balanced before → e.Closes →
      FirstFault d template ps (.malformed ⟨.unopenedBlock e.key, e.start, template⟩)
  /-- A closing tag with another key than the innermost open block. -/
  | crossed {before after outer : List Tag} {o e : Tag} :
      tagsOf ps.list = before ++ e :: after → OpenAfter before (o :: outer) → e.Closes →
      o.key ≠ e.key →
      FirstFault d template ps (.malformed ⟨.crossedBlock o.key e.key, e.start, template⟩)
  /-- A tag behind the last piece that does not end. -/
  | unclosedTag {openers : List Tag} {d' : Delimiters} :
      OpenAfter (tagsOf ps.list) openers → inForce d (tagsOf ps.list) = .ok d' →
      ps.ending = .unclosed d'.shownClosing (byteLength template.toList) →
      FirstFault d template ps
        (.malformed ⟨.unclosedTag d'.shownClosing, byteLength template.toList, template⟩)
  /-- A tag with delimiters, the last piece, that does not name two. -/
  | delimiters {openers : List Tag} {front : List Piece} {t : Tag} :
      OpenAfter (tagsOf ps.list) openers → ps.list = front ++ [.tag t] →
      (∀ t' ∈ tagsOf front, t'.NamesTwo) → ¬ t.NamesTwo →
      FirstFault d template ps (.invalid (.delimiterPair t.key))
  /-- Only the end is missing. -/
  | unclosedBlock {outer : List Tag} {o : Tag} :
      ps.ending = .finished (byteLength template.toList) → OpenAfter (tagsOf ps.list) (o :: outer) →
      FirstFault d template ps
        (.malformed ⟨.unclosedBlock o.key, byteLength template.toList, template⟩)

/-- The nodes of a tree are those of the tags, and inside the blocks around them. -/
structure Shaped (tags : List Tag) (nodes : List Node) : Prop where
  /-- There is one node for each tag that makes one, in document order, and no other. -/
  made : (lineages [] nodes).map Prod.fst = tags.filter Tag.makesNode
  /-- A node is inside the blocks that its tag finds open. -/
  inside : ∀ t around, (t, around) ∈ lineages [] nodes →
    ∃ before after, tags = before ++ t :: after ∧ OpenAfter before around
  /-- A tag is known by its start. -/
  rising : tags.Pairwise fun t u => t.start < u.start

/-- Nesting agrees with the stack of keys: no closing tag finds no open block, and in the end no
block is open. -/
structure NestsWell (parts : List Part) : Prop where
  closing : ∀ before e m after, parts = before ++ .tag e m :: after → e.Closes →
    ∃ b outer, (before.foldl Nesting.step {}).openBlocks = b :: outer ∧ b.key = e.key
  ending : (parts.foldl Nesting.step {}).openBlocks = []

theorem ofText_endsWell (d : Delimiters) (template : String) :
    (Pieces.ofText d template).EndsWell d (byteLength template.toList) := by
  have hend := Cursor.pieces_ending d (Cursor.start template.toList)
  rwa [show (Cursor.start template.toList).stop = byteLength template.toList from
    Nat.zero_add _] at hend

/-- The tags of a template name delimiters well if its pieces do not end at a refused tag. -/
theorem namesTwo_iff {d : Delimiters} {stop : Nat} {ps : Pieces} (h : ps.EndsWell d stop) :
    (∀ t ∈ tagsOf ps.list, t.NamesTwo) ↔ ∀ fault, ps.ending ≠ .refused fault := by
  obtain ⟨list, ending⟩ := ps
  cases ending with
  | finished pos =>
    obtain ⟨-, d', hforce⟩ := h
    exact ⟨fun _ => nofun, fun _ => inForce_ok_iff.1 ⟨d', hforce⟩⟩
  | unclosed closing pos =>
    obtain ⟨-, d', hforce, -⟩ := h
    exact ⟨fun _ => nofun, fun _ => inForce_ok_iff.1 ⟨d', hforce⟩⟩
  | refused fault =>
    obtain ⟨front, t, rfl, -, ht, -⟩ := h
    refine ⟨fun hall => absurd (hall t ?_) ht, fun hne => absurd rfl (hne fault)⟩
    rw [tagsOf_append]
    exact List.mem_append_right _ List.mem_cons_self

section

variable {d : Delimiters} {template : String}

theorem parse_accepts_iff : (∃ nodes, parse d template = .ok nodes) ↔
    (Pieces.ofText d template).AllEnd ∧
      (∀ t ∈ tagsOf (Pieces.ofText d template).list, t.NamesTwo) ∧
      Balanced (tagsOf (Pieces.ofText d template).list) := by
  rw [namesTwo_iff (ofText_endsWell d template)]
  simp only [parse_eq_ok_iff, Pieces.AllEnd]
  generalize Pieces.ofText d template = ps
  constructor
  · rintro ⟨nodes, ⟨pos, hend⟩, hbalanced, -⟩
    rw [hend]
    exact ⟨fun _ _ => nofun, fun _ => nofun, hbalanced⟩
  · rintro ⟨hclosed, hrefused, hbalanced⟩
    refine ⟨_, ?_, hbalanced, rfl⟩
    cases hend : ps.ending with
    | finished pos => exact ⟨pos, rfl⟩
    | unclosed closing pos => exact absurd hend (hclosed closing pos)
    | refused fault => exact absurd hend (hrefused fault)

theorem firstFault_of_error {fault : Fault} (h : parse d template = .error fault) :
    FirstFault d template (Pieces.ofText d template) fault := by
  have hends := ofText_endsWell d template
  obtain ⟨before, e, after, openers, htags, hopen, herror⟩ | ⟨openers, hopen, hend⟩ :=
    parse_eq_error_iff.1 h
  · obtain ⟨hcloses, ⟨hnil, rfl⟩ | ⟨key, outer, hkeys, hne, rfl⟩⟩ :=
      Tag.keysAfter_eq_error_iff.1 herror
    · rw [List.map_eq_nil_iff.1 hnil] at hopen
      exact .unopened htags (openAfter_nil hopen) hcloses
    · obtain ⟨o, openers', rfl, rfl, rfl⟩ := List.map_eq_cons_iff.1 hkeys
      exact .crossed htags hopen hcloses hne
  · generalize Pieces.ofText d template = ps at *
    obtain ⟨list, ending⟩ := ps
    cases ending with
    | refused f =>
      obtain ⟨front, t, hlist, hfront, ht, rfl⟩ := hends
      cases hend
      exact .delimiters hopen hlist hfront ht
    | unclosed closing pos =>
      obtain ⟨rfl, d', hforce, rfl⟩ := hends
      cases hend
      exact .unclosedTag hopen hforce rfl
    | finished pos =>
      obtain ⟨rfl, -⟩ := hends
      obtain ⟨o, outer, rfl, rfl⟩ := hend
      exact .unclosedBlock rfl hopen

/-- Pieces that end with a tag that does not name two delimiters are refused for it. -/
theorem ending_of_refused {stop : Nat} {ps : Pieces} (h : ps.EndsWell d stop)
    {front : List Piece} {t : Tag} (hlist : ps.list = front ++ [.tag t]) (ht : ¬ t.NamesTwo) :
    ps.ending = .refused (.invalid (.delimiterPair t.key)) := by
  -- a tag like that is read as the last one only
  have hrefused : ¬ ∀ fault, ps.ending ≠ .refused fault := by
    rw [← namesTwo_iff h]
    intro hall
    refine ht (hall t ?_)
    rw [hlist, tagsOf_append]
    exact List.mem_append_right _ List.mem_cons_self
  obtain ⟨list, ending⟩ := ps
  cases ending with
  | finished pos => exact absurd (fun _ => nofun) hrefused
  | unclosed closing pos => exact absurd (fun _ => nofun) hrefused
  | refused f =>
    obtain ⟨front', t', hlist', -, -, rfl⟩ := h
    obtain ⟨-, hlast⟩ := List.append_inj' (hlist.symm.trans hlist') rfl
    cases hlast
    rfl

theorem FirstFault.parse_eq {fault : Fault}
    (h : FirstFault d template (Pieces.ofText d template) fault) :
    parse d template = .error fault := by
  rw [parse_eq_error_iff]
  cases h with
  | unopened htags hbalanced hcloses =>
    exact .inl ⟨_, _, _, [], htags, .balanced hbalanced,
      Tag.keysAfter_eq_error_iff.2 ⟨hcloses, .inl ⟨rfl, rfl⟩⟩⟩
  | crossed htags hopen hcloses hne =>
    exact .inl ⟨_, _, _, _, htags, hopen,
      Tag.keysAfter_eq_error_iff.2 ⟨hcloses, .inr ⟨_, _, rfl, hne, rfl⟩⟩⟩
  | unclosedTag hopen _ hend =>
    refine .inr ⟨_, hopen, ?_⟩
    rw [hend]
    exact rfl
  | delimiters hopen hlist _ ht =>
    refine .inr ⟨_, hopen, ?_⟩
    rw [ending_of_refused (ofText_endsWell d template) hlist ht]
    exact rfl
  | unclosedBlock hend hopen =>
    refine .inr ⟨_, hopen, ?_⟩
    rw [hend]
    exact ⟨_, _, rfl, rfl⟩

theorem parse_fault_iff {fault : Fault} :
    parse d template = .error fault ↔ FirstFault d template (Pieces.ofText d template) fault :=
  ⟨firstFault_of_error, FirstFault.parse_eq⟩

end

/-! ## The shape of a tree -/

theorem nestsWell_of_balanced {parts : List Part} (h : Balanced (partTags parts)) :
    NestsWell parts := by
  constructor
  · intro before e m after hparts he
    rw [hparts, partTags_append, partTags_tag] at h
    obtain ⟨keys, outer, hbefore, hlast, -⟩ := keysThrough_split (h.keysThrough "" [])
    -- both stacks have the same keys, and on one of them the closing tag fits
    have hopen : (before.foldl Nesting.step {}).keys = keys := Nesting.keys_foldl hbefore
    rw [Tag.keysAfter_closes_eq_ok he hlast] at hopen
    obtain ⟨b, rest, hblocks, hkey, -⟩ := List.map_eq_cons_iff.1 hopen
    exact ⟨b, rest, hblocks, hkey⟩
  · simpa using Nesting.openBlocks_eq (.balanced h)

theorem tagsOf_rising {ps : List Piece} (h : ps.Pairwise fun p q => p.start < q.start) :
    (tagsOf ps).Pairwise fun t u => t.start < u.start := by
  refine List.Pairwise.filterMap _ (fun p q hlt t ht u hu => ?_) h
  cases p with
  | char => cases ht
  | tag =>
    cases q with
    | char => cases hu
    | tag =>
      cases ht
      cases hu
      exact hlt

theorem shaped_of_parse {d : Delimiters} {template : String} {nodes : List Node}
    (hd : d.BlankFree) (h : parse d template = .ok nodes) :
    Shaped (tagsOf (Pieces.ofText d template).list) nodes := by
  obtain ⟨⟨pos, hend⟩, -⟩ := parse_eq_ok_iff.1 h
  have hforest := forest_of_parse h
  refine ⟨?_, ?_, tagsOf_rising ((cut_ofText hd hend).placed [] rfl rfl).rising.2⟩
  · rw [hforest.lineages_fst, tagsOf_layout]
  · intro t around hmem
    obtain ⟨before, after, htags, hopen⟩ := hforest.lineages_open (.balanced .nil) hmem
    rw [tagsOf_layout] at htags
    exact ⟨before, after, htags, hopen⟩

/-- Which templates are read, what is wrong with the others, and what the tags of a template say
of its tree. -/
theorem parse_balanced {d : Delimiters} (hd : d.BlankFree) (template : String) :
    ((∃ nodes, parse d template = .ok nodes) ↔
      (Pieces.ofText d template).AllEnd ∧
        (∀ t ∈ tagsOf (Pieces.ofText d template).list, t.NamesTwo) ∧
        Balanced (tagsOf (Pieces.ofText d template).list)) ∧
    (∀ fault, parse d template = .error fault ↔
      FirstFault d template (Pieces.ofText d template) fault) ∧
    (∀ nodes, parse d template = .ok nodes →
      Shaped (tagsOf (Pieces.ofText d template).list) nodes) ∧
    (∀ draft, (Cursor.start template.toList).read template d {} = .ok draft →
      NestsWell draft.squash) := by
  refine ⟨parse_accepts_iff, fun _ => parse_fault_iff, fun _ => shaped_of_parse hd, ?_⟩
  intro draft hdraft
  obtain ⟨-, hbalanced, rfl⟩ := draft_eq_ok_iff.1 hdraft
  rw [Draft.squash_eq]
  refine nestsWell_of_balanced ?_
  rw [tagsOf_layout]
  exact hbalanced

/-- A closing tag for another block, and one for the block that is open. -/
theorem parse_balanced_crossed :
    Delimiters.standard.BlankFree ∧
    FirstFault .standard "\x7b\x7b#a\x7d\x7d\x7b\x7b/b\x7d\x7d"
      (Pieces.ofText .standard "\x7b\x7b#a\x7d\x7d\x7b\x7b/b\x7d\x7d")
      (.malformed ⟨.crossedBlock "a" "b", 6, "\x7b\x7b#a\x7d\x7d\x7b\x7b/b\x7d\x7d"⟩) ∧
    Shaped (tagsOf (Pieces.ofText .standard "\x7b\x7b#a\x7d\x7dx\x7b\x7bb\x7d\x7d\x7b\x7b/a\x7d\x7d").list)
      [.block "a" 0 6 [.text "x" 6 7, .escaped "b" 7 12] 12] := by
  have hd : Delimiters.standard.BlankFree := by decide
  exact ⟨hd, ((parse_balanced hd _).2.1 _).1 (by decide +kernel),
    (parse_balanced hd _).2.2.1 _ (by decide +kernel)⟩

end TagTemplate
