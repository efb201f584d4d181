import TagTemplate.Proofs.Template.Conservation

/-!
# Positions in a tree

The positions of a node are those of parts of the template, so they are boundaries, in the order
of the text, and the two of a tag cut out the tag as it is spelled. Main statement:
`parse_inPlace`.
-/

namespace TagTemplate

namespace Node

/-- Where a node starts and stops; a block stops, for this, behind its opening tag. -/
def span : Node → Nat × Nat
  | text _ start stop | escaped _ start stop | unescaped _ start stop | inclusion _ start stop _
  | block _ start stop _ _ | inverted _ start stop _ _ => (start, stop)

def offsets : Node → List Nat
  | text _ start stop | escaped _ start stop | unescaped _ start stop | inclusion _ start stop _ =>
    [start, stop]
  | block _ start bodyStart _ bodyStop | inverted _ start bodyStart _ bodyStop =>
    [start, bodyStart, bodyStop]

/-- The tag of a node; of a block, its opening tag. -/
def tag? : Node → Option Tag
  | text .. => none
  | escaped key start stop => some ⟨.escaped, key, start, stop⟩
  | unescaped key start stop => some ⟨.unescaped, key, start, stop⟩
  | inclusion key start stop _ => some ⟨.inclusion, key, start, stop⟩
  | block key start bodyStart _ _ => some ⟨.block, key, start, bodyStart⟩
  | inverted key start bodyStart _ _ => some ⟨.inverted, key, start, bodyStart⟩

end Node

/-- The body of a block: it starts behind the opening tag, holds all positions of the nodes inside,
and ends where a closing tag with the same key starts. -/
structure BodyInPlace (template : String) (tags : List Tag) (key : String) (start bodyStart : Nat)
    (children : List Node) (bodyStop : Nat) : Prop where
  opening : start < bodyStart
  body : bodyStart ≤ bodyStop
  inside : ∀ n ∈ Node.flatten.flattenAll children, ∀ i ∈ n.offsets, bodyStart ≤ i ∧ i ≤ bodyStop
  closing : ∃ t ∈ tags, t.Closes ∧ t.key = key ∧ t.start = bodyStop
  within : bodyStop < byteLength template.toList
  /-- The positions cut out the text between the two tags. -/
  raw : ∃ text, slice? template.toList bodyStart bodyStop = some text

namespace Part

def span : Part → Nat × Nat
  | text _ start stop => (start, stop)
  | tag t _ => (t.start, t.stop)

end Part

/-- The parts follow each other without overlap, and none is empty. -/
structure Ordered (ps : List Part) : Prop where
  nonempty : ∀ p ∈ ps, p.span.1 < p.span.2
  ordered : ps.Pairwise fun p q => p.span.2 ≤ q.span.1

theorem Laid.ordered {source : List Char} {pos : Nat} {ps : List Part} (h : Laid source pos ps) :
    (∀ p ∈ ps, pos ≤ p.span.1) ∧ Ordered ps := by
  induction h with
  | nil => exact ⟨by simp, by simp, .nil⟩
  | text hne _ _ ih =>
    obtain ⟨hle, hps⟩ := ih
    have hlen := byteLength_pos (fun h => hne (String.toList_eq_nil_iff.1 h))
    refine ⟨List.forall_mem_cons.2 ⟨le_rfl, fun p hp => by have := hle p hp; omega⟩,
      List.forall_mem_cons.2 ⟨?_, hps.nonempty⟩, List.pairwise_cons.2 ⟨hle, hps.ordered⟩⟩
    exact Nat.lt_add_of_pos_right hlen
  | tag hstart hlt hstop _ ih =>
    obtain ⟨hle, hps⟩ := ih
    exact ⟨List.forall_mem_cons.2 ⟨hstart, fun p hp => by have := hle p hp; omega⟩,
      List.forall_mem_cons.2 ⟨hlt, hps.nonempty⟩,
      List.pairwise_cons.2 ⟨fun p hp => le_trans hstop (hle p hp), hps.ordered⟩⟩

/-- A tag of a template that is cut into pieces stands in it as it is spelled. -/
theorem Cut.tag_stands {d : Delimiters} {source cs : List Char} {pos : Nat} {ps : List Piece}
    (h : Cut d pos cs ps) (before : List Char) (hsource : source = before ++ cs)
    (hpos : byteLength before = pos) {t : Tag} (ht : t ∈ tagsOf ps) :
    ∃ front rest d' lexeme, tagsOf ps = front ++ t :: rest ∧ inForce d front = .ok d' ∧
      Stands source lexeme t.start ∧ t.stop = t.start + byteLength lexeme ∧ Spells d' t lexeme := by
  induction h generalizing before with
  | nil => cases ht
  | @char d pos c cs ps _ _ ih =>
    refine ih (before ++ [c]) ?_ ?_ ht
    · rw [hsource, List.append_assoc, List.singleton_append]
    · rw [byteLength_append, hpos]
      rfl
  | @tag d d' u lexeme cs ps hspells hstop hafter _ ih =>
    rw [tagsOf_tag] at ht ⊢
    rcases List.mem_cons.1 ht with rfl | ht
    · exact ⟨[], tagsOf ps, d, lexeme, rfl, rfl, ⟨before, cs, hsource, hpos⟩, hstop, hspells⟩
    · obtain ⟨front, rest, last, lexeme', htags, hforce, hstands⟩ :=
        ih (before ++ lexeme) (by rw [hsource, List.append_assoc])
          (by rw [byteLength_append, hpos, hstop]) ht
      refine ⟨u :: front, rest, last, lexeme', by rw [htags, List.cons_append], ?_, hstands⟩
      rw [inForce_cons, hafter, ok_bind, hforce]

theorem mem_partTags {ps : List Part} {t : Tag} {m : Margin} (h : .tag t m ∈ ps) :
    t ∈ partTags ps := List.mem_filterMap.2 ⟨_, h, rfl⟩

/-! ## Positions of nodes -/

theorem leaf_span {t : Tag} {m : Margin} {n : Node} (h : t.leaf? m = some n) :
    n.span = (t.start, t.stop) ∧ n.offsets = [t.start, t.stop] ∧ n.tag? = some t := by
  obtain ⟨kind, key, start, stop⟩ := t
  cases kind <;> cases h <;> exact ⟨rfl, rfl, rfl⟩

theorem blockNode_span {o : Tag} (h : o.Opens) (children : List Node) (bodyStop : Nat) :
    (o.blockNode children bodyStop).span = (o.start, o.stop) ∧
      (o.blockNode children bodyStop).offsets = [o.start, o.stop, bodyStop] ∧
      (o.blockNode children bodyStop).tag? = some o := by
  obtain ⟨kind, key, start, stop⟩ := o
  rcases h with h | h
  · obtain rfl : kind = .block := h
    exact ⟨rfl, rfl, rfl⟩
  · obtain rfl : kind = .inverted := h
    exact ⟨rfl, rfl, rfl⟩

theorem Origin.offset_mem {ps : List Part} {n : Node} (h : Origin ps n) {i : Nat}
    (hi : i ∈ n.offsets) : ∃ p ∈ ps, i = p.span.1 ∨ i = p.span.2 := by
  cases h with
  | text hp =>
    refine ⟨_, hp, ?_⟩
    simpa [Node.offsets, Part.span] using hi
  | leaf hp hleaf =>
    refine ⟨_, hp, ?_⟩
    simpa [(leaf_span hleaf).2.1, Part.span] using hi
  | @block before inside after o e m m' children hps ho =>
    rw [(blockNode_span ho _ _).2.1] at hi
    rw [hps]
    rcases List.mem_cons.1 hi with rfl | hi
    · exact ⟨.tag o m, by simp, .inl rfl⟩
    rcases List.mem_cons.1 hi with rfl | hi
    · exact ⟨.tag o m, by simp, .inr rfl⟩
    · obtain rfl := List.mem_singleton.1 hi
      exact ⟨.tag e m', by simp, .inl rfl⟩

theorem block_of_blockNode {o : Tag} {children children' : List Node}
    {key : String} {start bodyStart bodyStop bodyStop' : Nat}
    (h : o.blockNode children bodyStop = .block key start bodyStart children' bodyStop' ∨
      o.blockNode children bodyStop = .inverted key start bodyStart children' bodyStop') :
    o.key = key ∧ o.start = start ∧ o.stop = bodyStart ∧ children = children' ∧
      bodyStop = bodyStop' := by
  rw [Tag.blockNode] at h
  split at h <;> simpa using h

/-- The body of a block is what its two tags enclose. -/
theorem Origin.body {ps : List Part} {key : String} {start bodyStart bodyStop : Nat}
    {children : List Node} {n : Node} (h : Origin ps n) (hps : Ordered ps)
    (hn : n = .block key start bodyStart children bodyStop ∨
      n = .inverted key start bodyStart children bodyStop) :
    start < bodyStart ∧ bodyStart ≤ bodyStop ∧
      (∀ n ∈ Node.flatten.flattenAll children, ∀ i ∈ n.offsets, bodyStart ≤ i ∧ i ≤ bodyStop) ∧
      ∃ t ∈ partTags ps, t.Closes ∧ t.key = key ∧ t.start = bodyStop ∧ t.start < t.stop := by
  cases h with
  | text => rcases hn with hn | hn <;> cases hn
  | leaf _ hleaf =>
    rw [Tag.leaf?] at hleaf
    rcases hn with rfl | rfl
    · split at hleaf <;> cases hleaf
    · split at hleaf <;> cases hleaf
  | @block before inside after o e m m' children hparts _ he hkey hinside =>
    obtain ⟨rfl, rfl, rfl, rfl, rfl⟩ := block_of_blockNode hn
    subst hparts
    -- what is inside stands behind the one tag and before the other
    have hpairs := (List.pairwise_append.1 hps.ordered).2.1
    obtain ⟨hopening, hrest⟩ := List.pairwise_cons.1 hpairs
    obtain ⟨-, -, hclosing⟩ := List.pairwise_append.1 hrest
    have hbefore (p : Part) (hp : p ∈ inside) : p.span.2 ≤ e.start :=
      hclosing p hp (.tag e m') List.mem_cons_self
    have hbehind (p : Part) (hp : p ∈ inside) : o.stop ≤ p.span.1 :=
      hopening p (List.mem_append_left _ hp)
    have hnonempty (p : Part) (hp : p ∈ inside) : p.span.1 < p.span.2 :=
      hps.nonempty p (by simp [hp])
    refine ⟨hps.nonempty (.tag o m) (by simp), hopening (.tag e m') (by simp), ?_, e,
      mem_partTags (m := m') (by simp), he, hkey.symm, rfl, hps.nonempty (.tag e m') (by simp)⟩
    intro n hn i hi
    obtain ⟨p, hp, rfl | rfl⟩ := (hinside.origin hn).offset_mem hi
    · exact ⟨hbehind p hp, le_trans (hnonempty p hp).le (hbefore p hp)⟩
    · exact ⟨le_trans (hbehind p hp) (hnonempty p hp).le, hbefore p hp⟩

section

variable {d : Delimiters} {template : String} {nodes : List Node}

/-- A tag of a template that is read stands in it as it is spelled, under the delimiters in force
there. -/
theorem tag_stands_of_parse (hd : d.BlankFree) (h : parse d template = .ok nodes) {t : Tag}
    (ht : t ∈ partTags (layout (Pieces.ofText d template).list)) :
    ∃ before after d' lexeme, tagsOf (Pieces.ofText d template).list = before ++ t :: after ∧
      inForce d before = .ok d' ∧ Stands template.toList lexeme t.start ∧
      t.stop = t.start + byteLength lexeme ∧ Spells d' t lexeme := by
  obtain ⟨⟨pos, hend⟩, -⟩ := parse_eq_ok_iff.1 h
  rw [tagsOf_layout] at ht
  exact (cut_ofText hd hend).tag_stands [] (List.nil_append template.toList).symm rfl ht

theorem laid_of_parse (hd : d.BlankFree) (h : parse d template = .ok nodes) :
    Laid template.toList 0 (layout (Pieces.ofText d template).list) := by
  obtain ⟨⟨pos, hend⟩, -⟩ := parse_eq_ok_iff.1 h
  exact laid_layout ((cut_ofText hd hend).placed [] (List.nil_append template.toList).symm rfl)

theorem part_boundary (hd : d.BlankFree) (h : parse d template = .ok nodes) {p : Part}
    (hp : p ∈ layout (Pieces.ofText d template).list) :
    Boundary template.toList p.span.1 ∧ Boundary template.toList p.span.2 := by
  cases p with
  | text text start stop =>
    obtain ⟨-, htext, rfl⟩ := (laid_of_parse hd h).text_mem hp
    exact ⟨htext.start_boundary, htext.stop_boundary⟩
  | tag t m =>
    obtain ⟨-, -, -, lexeme, -, -, htag, hstop, -⟩ := tag_stands_of_parse hd h (mem_partTags hp)
    refine ⟨htag.start_boundary, ?_⟩
    rw [Part.span, hstop]
    exact htag.stop_boundary

theorem node_boundary (hd : d.BlankFree) (h : parse d template = .ok nodes) {n : Node}
    (hn : n ∈ Node.flatten.flattenAll nodes) {i : Nat} (hi : i ∈ n.offsets) :
    Boundary template.toList i := by
  obtain ⟨p, hp, rfl | rfl⟩ := ((forest_of_parse h).origin hn).offset_mem hi
  · exact (part_boundary hd h hp).1
  · exact (part_boundary hd h hp).2

theorem body_of_parse (hd : d.BlankFree) (h : parse d template = .ok nodes) {key : String}
    {start bodyStart bodyStop : Nat} {children : List Node} {n : Node}
    (hn : n ∈ Node.flatten.flattenAll nodes)
    (hblock : n = .block key start bodyStart children bodyStop ∨
      n = .inverted key start bodyStart children bodyStop) :
    BodyInPlace template (tagsOf (Pieces.ofText d template).list) key start bodyStart children
      bodyStop := by
  obtain ⟨hopening, hbody, hinside, t, ht, hcloses, hkey, rfl, hlt⟩ :=
    ((forest_of_parse h).origin hn).body (laid_of_parse hd h).ordered.2 hblock
  have hoffsets : n.offsets = [start, bodyStart, t.start] := by
    rcases hblock with rfl | rfl <;> rfl
  have hraw := (node_boundary hd h hn (i := bodyStart) (by simp [hoffsets])).slice
    (node_boundary hd h hn (i := t.start) (by simp [hoffsets])) hbody
  obtain ⟨-, -, -, lexeme, -, -, htag, hstop, -⟩ := tag_stands_of_parse hd h ht
  have hle := htag.stop_boundary.le
  rw [tagsOf_layout] at ht
  exact ⟨hopening, hbody, hinside, ⟨t, ht, hcloses, hkey, rfl⟩, by omega, hraw⟩

end

end TagTemplate
