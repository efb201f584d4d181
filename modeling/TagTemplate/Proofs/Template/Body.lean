import TagTemplate.Proofs.Template.Between
import TagTemplate.Proofs.Template.Lexeme
import TagTemplate.Proofs.Template.Offsets
import TagTemplate.Proofs.Template.Shift

/-!
# Bodies read by themselves

The text of a block is cut into the same pieces by itself as in its template, since no piece depends
on what stands behind it. Main statements: `Cursor.pieces_split`; `body_of_selfContained`, the nodes
of a body that is read by itself beside those of the block.
-/

namespace TagTemplate

def Piece.isWithin (start stop : Nat) (p : Piece) : Bool := start ≤ p.start && p.start < stop

/-- The pieces of a template that start between two positions. -/
def piecesWithin (d : Delimiters) (template : String) (start stop : Nat) : List Piece :=
  (Pieces.ofText d template).list.filter (Piece.isWithin start stop)

/-- The tags of a template that start before a position. -/
def tagsBefore (d : Delimiters) (template : String) (pos : Nat) : List Tag :=
  (tagsOf (Pieces.ofText d template).list).filter fun t => t.start < pos

/-- No line feed of the pieces stands before the position. -/
def onFirstLine (ps : List Piece) (pos : Nat) : Bool :=
  ps.all fun p => !p.endsLine || pos < p.start

/-- A block that starts under the delimiters of the template. What its body has on the line of its
opening tag, and on that of its closing tag, shows something where it has white space. -/
structure SelfContained (d : Delimiters) (template : String) (start bodyStart bodyStop : Nat) :
    Prop where
  delimiters : inForce d (tagsBefore d template start) = .ok d
  opening : Firm (firstLine (piecesWithin d template bodyStart bodyStop))
  closing : Firm (lastLine (piecesWithin d template bodyStart bodyStop))

namespace Node

/-- The node without the margins of inclusions that start at some positions. -/
def unmargined (places : Nat → Bool) : Node → Node
  | block key start bodyStart children bodyStop =>
    block key start bodyStart (unmarginedAll places children) bodyStop
  | inverted key start bodyStart children bodyStop =>
    inverted key start bodyStart (unmarginedAll places children) bodyStop
  | inclusion key start stop margin =>
    inclusion key start stop (if places start then {} else margin)
  | n => n
where
  unmarginedAll (places : Nat → Bool) : List Node → List Node
    | [] => []
    | n :: ns => unmargined places n :: unmarginedAll places ns

end Node

/-! ## Pieces of a part of a text -/

section

variable {d : Delimiters}

/-- The first piece is a character that starts no tag, or a tag. -/
theorem Cursor.pieces_eq_cons {c : Cursor} {p : Piece} {ps : List Piece} {stop : Nat}
    (h : c.pieces d = ⟨p :: ps, .finished stop⟩) :
    (∃ x xs, c = ⟨c.pos, x :: xs⟩ ∧ p = .char x c.pos ∧
      d.openingPattern.matchLength? (x :: xs) = none ∧
      Cursor.pieces d ⟨c.pos + x.utf8Size, xs⟩ = ⟨ps, .finished stop⟩) ∨
    ∃ t next d', p = .tag t ∧ (d.openingPattern.matchLength? c.rest).isSome ∧
      c.readTag d = .ok (t, next) ∧ t.delimitersAfter d = .ok d' ∧
      next.pieces d' = ⟨ps, .finished stop⟩ := by
  have hsplit {q : Piece} {rest : Pieces} (h : rest.behind [q] = ⟨p :: ps, .finished stop⟩) :
      q = p ∧ rest = ⟨ps, .finished stop⟩ := by
    obtain ⟨list, ending⟩ := rest
    cases h
    exact ⟨rfl, rfl⟩
  induction d, c using Cursor.pieces_induction with
  | atEnd d c hend =>
    rw [pieces_atEnd hend] at h
    cases h
  | char d pos x xs hnone =>
    rw [pieces_char hnone] at h
    obtain ⟨rfl, hrest⟩ := hsplit h
    exact .inl ⟨x, xs, rfl, rfl, hnone, hrest⟩
  | unclosed d c pos hopen htag =>
    rw [pieces_unclosed hopen htag] at h
    cases h
  | refused d c t next fault hopen htag hafter =>
    rw [pieces_tag hopen htag, hafter] at h
    cases h
  | tag d d' c t next hopen htag hafter =>
    rw [pieces_tag hopen htag, hafter] at h
    obtain ⟨rfl, hrest⟩ := hsplit h
    exact .inr ⟨t, next, d', rfl, hopen, htag, hafter, hrest⟩

/-- A tag at the front is spelled by the text at the front. -/
theorem Cursor.pieces_eq_tag (hd : d.BlankFree) {c : Cursor} {t : Tag} {ps : List Piece}
    {stop : Nat} (h : c.pieces d = ⟨.tag t :: ps, .finished stop⟩) :
    ∃ lexeme more d', c.rest = lexeme ++ more ∧ Lexeme d t.kind t.key.toList lexeme ∧
      t = ⟨t.kind, String.ofList t.key.toList, c.pos, c.pos + byteLength lexeme⟩ ∧
      t.delimitersAfter d = .ok d' ∧
      Cursor.pieces d' ⟨c.pos + byteLength lexeme, more⟩ = ⟨ps, .finished stop⟩ := by
  rcases Cursor.pieces_eq_cons h with ⟨x, xs, -, htag, -⟩ |
      ⟨t, next, d', ⟨⟩, hopen, htag, hafter, hrest⟩
  · cases htag
  · obtain ⟨lexeme, hlexeme, hsplit⟩ :=
      lexeme_of_readTag hd (Delimiters.opening_matches_iff.1 hopen) htag
    have hread := readTag_lexeme hd hlexeme hsplit
    rw [htag] at hread
    obtain ⟨ht, hnext⟩ := Prod.mk.inj (Except.ok.inj hread)
    rw [hnext] at hrest
    exact ⟨lexeme, next.rest, d', hsplit, hlexeme, ht, hafter, hrest⟩

/-- Where a text is cut between two pieces, the front is cut into the pieces before by itself, and
the rest into those behind, under the delimiters in force there. -/
theorem Cursor.pieces_split (hd : d.BlankFree) {c : Cursor} {ps qs : List Piece} {stop : Nat}
    (h : c.pieces d = ⟨ps ++ qs, .finished stop⟩) :
    ∃ a b d', c.rest = a ++ b ∧
      Cursor.pieces d ⟨c.pos, a⟩ = ⟨ps, .finished (c.pos + byteLength a)⟩ ∧
      inForce d (tagsOf ps) = .ok d' ∧
      Cursor.pieces d' ⟨c.pos + byteLength a, b⟩ = ⟨qs, .finished stop⟩ := by
  induction ps generalizing d c with
  | nil => exact ⟨[], c.rest, d, rfl, pieces_atEnd rfl, rfl, h⟩
  | cons p ps ih =>
    cases p with
    | char x start =>
      rcases Cursor.pieces_eq_cons h with ⟨x, xs, hc, ⟨⟩, hnone, hrest⟩ | ⟨_, _, _, ⟨⟩, _⟩
      obtain ⟨a, b, d', hsplit, ha, hforce, hb⟩ := ih hd hrest
      obtain rfl : xs = a ++ b := hsplit
      rw [Delimiters.opening_unmatched_iff] at hnone
      have hnone' : d.openingPattern.matchLength? (x :: a) = none := by
        rw [Delimiters.opening_unmatched_iff]
        exact fun h => hnone (h.trans (List.prefix_append (x :: a) b))
      refine ⟨x :: a, b, d', by rw [hc]; rfl, ?_, hforce, ?_⟩
      · rw [pieces_char hnone', ha, byteLength_cons, ← Nat.add_assoc]
        rfl
      · rw [byteLength_cons, ← Nat.add_assoc]
        exact hb
    | tag t =>
      obtain ⟨lexeme, more, d₁, hlexemes, hlexeme, ht, hafter, hrest⟩ := Cursor.pieces_eq_tag hd h
      obtain ⟨a, b, d', hsplit, ha, hforce, hb⟩ := ih (delimitersAfter_blankFree hd hafter) hrest
      obtain rfl : more = a ++ b := hsplit
      refine ⟨lexeme ++ a, b, d', by rw [hlexemes, List.append_assoc], ?_, ?_, ?_⟩
      · rw [pieces_lexeme hd hlexeme (ht ▸ hafter), ← ht, ha, byteLength_append, ← Nat.add_assoc]
        rfl
      · rw [tagsOf_tag, inForce_cons, hafter]
        exact hforce
      · rw [byteLength_append, ← Nat.add_assoc]
        exact hb

end

/-! ## Blocks among pieces -/

/-- Where a block stands among the pieces of its template. -/
structure Enclosed (ps front inside rest : List Piece) (o e : Tag) (children : List Node) :
    Prop where
  pieces : ps = front ++ .tag o :: (inside ++ .tag e :: rest)
  opens : o.Opens
  forest : Forest (joinTexts (keptBetween (.tag o :: front.foldl lineBehind []) inside
    (.tag e :: rest))) children

theorem tagsOf_eq_append_cons {ps : List Piece} {before after : List Tag} {t : Tag}
    (h : tagsOf ps = before ++ t :: after) :
    ∃ front rest, ps = front ++ .tag t :: rest ∧ tagsOf front = before ∧ tagsOf rest = after := by
  obtain ⟨front, more, rfl, hfront, hmore⟩ := List.filterMap_eq_append_iff.1 h
  obtain ⟨chars, p, rest, rfl, hchars, hp, hrest⟩ := List.filterMap_eq_cons_iff.1 hmore
  cases p with
  | char => cases hp
  | tag u =>
    cases hp
    have hnone : tagsOf chars = [] := List.filterMap_eq_nil_iff.2 hchars
    refine ⟨front ++ chars, rest, (List.append_assoc ..).symm, ?_, hrest⟩
    rw [tagsOf_append, hnone, List.append_nil]
    exact hfront

/-- Parts are cut in one way at a tag that has certain tags before it. -/
theorem append_tag_inj {a a' b b' : List Part} {t t' : Tag} {m m' : Margin}
    (h : a ++ .tag t m :: b = a' ++ .tag t' m' :: b') (htags : partTags a = partTags a') :
    a = a' ∧ b = b' := by
  induction a generalizing a' with
  | nil =>
    cases a' with
    | nil => exact ⟨rfl, (List.cons.inj h).2⟩
    | cons p a' =>
      obtain ⟨rfl, -⟩ := List.cons.inj h
      cases htags
  | cons p a ih =>
    cases a' with
    | nil =>
      obtain ⟨rfl, -⟩ := List.cons.inj h
      cases htags
    | cons p' a' =>
      obtain ⟨rfl, htail⟩ := List.cons.inj h
      have htags' : partTags a = partTags a' := by
        cases p with
        | text => exact htags
        | tag t m => exact (List.cons.inj htags).2
      obtain ⟨rfl, rfl⟩ := ih htail htags'
      exact ⟨rfl, rfl⟩

/-- The layout of pieces that are cut at a tag. -/
theorem joinTexts_keptBetween_tag (before front : List Piece) (t : Tag) (rest after : List Piece) :
    joinTexts (keptBetween before (front ++ .tag t :: rest) after) =
      joinTexts (keptBetween before front (.tag t :: rest ++ after)) ++
        .tag t (.behind (front.foldl lineBehind before)) ::
          joinTexts (keptBetween (.tag t :: front.foldl lineBehind before) rest after) := by
  rw [keptBetween_append, keptBetween_tag, joinTexts_append_tag]

/-- The children of a block are the forest of the pieces between its two tags. -/
theorem Forest.enclosed {ps : List Piece} {nodes : List Node} (h : Forest (layout ps) nodes)
    {n : Node} (hmem : n ∈ Node.flatten.flattenAll nodes) {key : String}
    {start bodyStart bodyStop : Nat} {children : List Node}
    (hblock : n = .block key start bodyStart children bodyStop ∨
      n = .inverted key start bodyStart children bodyStop) :
    ∃ front inside rest o e, Enclosed ps front inside rest o e children ∧ o.start = start ∧
      o.stop = bodyStart ∧ e.start = bodyStop := by
  cases h.origin hmem with
  | text => rcases hblock with hn | hn <;> cases hn
  | leaf _ hleaf =>
    rw [Tag.leaf?] at hleaf
    rcases hblock with rfl | rfl
    · split at hleaf <;> cases hleaf
    · split at hleaf <;> cases hleaf
  | @block before parts after o e m m' children' hparts ho he hkey hinside =>
    obtain ⟨-, hstart, hbodyStart, rfl, hbodyStop⟩ := block_of_blockNode hblock
    have htags := tagsOf_layout ps
    rw [hparts, partTags_append, partTags_tag, partTags_append, partTags_tag] at htags
    obtain ⟨front, more, rfl, hfront, hmore⟩ := tagsOf_eq_append_cons htags.symm
    obtain ⟨inside, rest, rfl, hinside', -⟩ := tagsOf_eq_append_cons hmore
    -- both cuts of the layout are at the same tags
    rw [layout_eq_keptBetween, joinTexts_keptBetween_tag, joinTexts_keptBetween_tag] at hparts
    obtain ⟨-, hcut⟩ := append_tag_inj hparts (by
      rw [partTags_joinTexts, partTags_keptBetween, hfront])
    obtain ⟨rfl, -⟩ := append_tag_inj hcut (by
      rw [partTags_joinTexts, partTags_keptBetween, hinside'])
    rw [List.append_nil] at hinside
    exact ⟨front, inside, rest, o, e, ⟨rfl, ho, hinside⟩, hstart, hbodyStart, hbodyStop⟩

/-! ## Positions of a body -/

section

variable {source : List Char} {pos : Nat} {ps front inside rest : List Piece} {o e : Tag}
  {children : List Node}

/-- The pieces between the two tags of a block are those that start between them. -/
theorem Enclosed.filter_within (h : Enclosed ps front inside rest o e children)
    (hplaced : Placed source pos ps) : ps.filter (Piece.isWithin o.stop e.start) = inside := by
  obtain ⟨rfl, -, -⟩ := h
  obtain ⟨pos', hstart, hlt, hbody⟩ := hplaced.behind
  obtain ⟨hfrom, hrising⟩ := hbody.rising
  obtain ⟨-, hclosing, hbefore⟩ := List.pairwise_append.1 hrising
  have hfront : ∀ p ∈ front, ¬ p.isWithin o.stop e.start = true := by
    intro p hp
    have hlt' : p.start < o.start :=
      (List.pairwise_append.1 hplaced.rising.2).2.2 p hp (.tag o) List.mem_cons_self
    simp [Piece.isWithin]
    omega
  have hinside : ∀ p ∈ inside, p.isWithin o.stop e.start = true := by
    intro p hp
    have hfrom := hfrom p (List.mem_append_left _ hp)
    have hbefore : p.start < e.start := hbefore p hp (.tag e) List.mem_cons_self
    simp [Piece.isWithin, hfrom, hbefore]
  have hrest : ∀ p ∈ rest, ¬ p.isWithin o.stop e.start = true := by
    intro p hp
    have hbehind : e.start < p.start := (List.pairwise_cons.1 hclosing).1 p hp
    simp [Piece.isWithin]
    omega
  have hopening : ¬ (Piece.tag o).isWithin o.stop e.start = true := by
    simp [Piece.isWithin, Piece.start, Nat.not_le.2 hlt]
  have hclosing : ¬ (Piece.tag e).isWithin o.stop e.start = true := by
    simp [Piece.isWithin, Piece.start]
  rw [List.filter_append, List.filter_cons_of_neg hopening, List.filter_append,
    List.filter_cons_of_neg hclosing, List.filter_eq_nil_iff.2 hfront,
    List.filter_eq_self.2 hinside, List.filter_eq_nil_iff.2 hrest, List.append_nil, List.nil_append]

/-- The tags before a block are those that start before it. -/
theorem Enclosed.filter_before (h : Enclosed ps front inside rest o e children)
    (hplaced : Placed source pos ps) :
    (tagsOf ps).filter (fun t => t.start < o.start) = tagsOf front := by
  obtain ⟨rfl, -, -⟩ := h
  have hrising := hplaced.rising.2
  obtain ⟨-, hbehind, hfront⟩ := List.pairwise_append.1 hrising
  rw [tagsOf_append, List.filter_append, tagsOf_tag, List.filter_cons_of_neg (by simp),
    List.filter_eq_self.2, List.filter_eq_nil_iff.2, List.append_nil]
  · intro t ht
    have hlt : o.start < t.start := (List.pairwise_cons.1 hbehind).1 _ (mem_tagsOf.1 ht)
    simp
    omega
  · intro t ht
    have hlt : t.start < o.start := hfront _ (mem_tagsOf.1 ht) (.tag o) List.mem_cons_self
    simpa using hlt

theorem onFirstLine_of_mem {ps : List Piece} (hrising : ps.Pairwise fun p q => p.start < q.start)
    {t : Tag} (ht : .tag t ∈ firstLine ps) : onFirstLine ps t.start = true := by
  rw [onFirstLine, List.all_eq_true]
  intro p hp
  cases hend : p.endsLine with
  | false => rfl
  | true =>
    suffices h : t.start < p.start by simpa using h
    induction ps with
    | nil => cases hp
    | cons q ps ih =>
      obtain ⟨hbehind, hrising⟩ := List.pairwise_cons.1 hrising
      rw [firstLine_cons] at ht
      split at ht
      · next hq =>
        obtain rfl := List.mem_singleton.1 ht
        cases hq
      · next hq =>
        obtain rfl | hp' := List.mem_cons.1 hp
        · exact absurd hend hq
        rcases List.mem_cons.1 ht with rfl | ht'
        · exact hbehind p hp'
        · exact ih hrising ht' hp'

end

/-! ## Bodies by themselves -/

/-- The children of a block, and the nodes of its body by itself, moved to where the body is. -/
structure BodyForests (body : List Piece) (children alone : List Node) : Prop where
  rising : body.Pairwise fun p q => p.start < q.start
  within : ∃ o before after,
    Forest (joinTexts (keptBetween (.tag o :: before) body after)) children
  alone : Forest (joinTexts (keptBetween [] body [])) alone

section

variable {d : Delimiters} {template : String} {nodes children : List Node}
  {front inside rest : List Piece} {o e : Tag}

/-- A text that is cut further on is cut by itself into the same pieces, from the position zero. -/
theorem pieces_ofText_shift {k stop : Nat} {text : List Char} {inside : List Piece}
    (h : Cursor.pieces d ⟨k, text⟩ = ⟨inside, .finished stop⟩) :
    ∃ ps pos, Pieces.ofText d (String.ofList text) = ⟨ps, .finished pos⟩ ∧
      ps.map (Piece.shift k) = inside := by
  have hshift : (Pieces.ofText d (String.ofList text)).shift k = ⟨inside, .finished stop⟩ := by
    rw [Pieces.ofText, String.toList_ofList, ← Cursor.pieces_shift]
    exact h
  generalize Pieces.ofText d (String.ofList text) = alone at hshift
  obtain ⟨ps, ending⟩ := alone
  obtain ⟨hps, hending⟩ := Pieces.mk.inj hshift
  cases ending with
  | finished pos => exact ⟨ps, pos, rfl, hps⟩
  | unclosed => cases hending
  | refused => cases hending

/-- The text between the two tags of a block is cut by itself into the pieces between them. -/
theorem Enclosed.pieces_text (hd : d.BlankFree) {stop : Nat}
    (h : Enclosed (Pieces.ofText d template).list front inside rest o e children)
    (hend : (Pieces.ofText d template).ending = .finished stop)
    (hforce : inForce d (tagsOf front) = .ok d) :
    ∃ text ps pos, slice? template.toList o.stop e.start = some text ∧
      Pieces.ofText d (String.ofList text) = ⟨ps, .finished pos⟩ ∧
      ps.map (Piece.shift o.stop) = inside := by
  have hpieces : (Cursor.start template.toList).pieces d =
      ⟨front ++ .tag o :: (inside ++ .tag e :: rest), .finished stop⟩ := by
    rw [← h.pieces, ← hend]
    rfl
  -- in front of the opening tag, behind it, and in front of the closing tag
  obtain ⟨a, b, d₁, hab, -, hd₁, hb⟩ := Cursor.pieces_split hd hpieces
  obtain rfl : d = d₁ := Except.ok.inj (hforce.symm.trans hd₁)
  obtain ⟨lexeme, more, d₂, hlexeme, -, ho, hafter, hmore⟩ := Cursor.pieces_eq_tag hd hb
  have hd₂ : o.delimitersAfter d = .ok d := by
    rw [Tag.delimitersAfter, if_neg]
    rcases h.opens with hkind | hkind <;> simp [hkind]
  obtain rfl : d = d₂ := Except.ok.inj (hd₂.symm.trans hafter)
  obtain ⟨text, behind, d₃, htext, hinside, hd₃, hclosing⟩ := Cursor.pieces_split hd hmore
  obtain ⟨_, _, _, _, _, he, _⟩ := Cursor.pieces_eq_tag (inForce_blankFree hd hd₃) hclosing
  have hstop : o.stop = 0 + byteLength a + byteLength lexeme := congrArg Tag.stop ho
  have hstart : e.start = o.stop + byteLength text := hstop ▸ congrArg Tag.start he
  have hstands : Stands template.toList text o.stop := by
    refine ⟨a ++ lexeme, behind, ?_, by rw [hstop, byteLength_append, Nat.zero_add]⟩
    rw [show template.toList = a ++ b from hab, show b = lexeme ++ more from hlexeme,
      show more = text ++ behind from htext, List.append_assoc]
  have hcursor : (⟨o.stop, text⟩ : Cursor) = ⟨0 + byteLength a + byteLength lexeme, text⟩ := by
    rw [hstop]
  obtain ⟨ps, pos, hps, hshift⟩ := pieces_ofText_shift (hcursor ▸ hinside)
  exact ⟨text, ps, pos, slice?_eq_some_iff.2 ⟨hstands, hstart⟩, hps, hshift⟩

/-- A self-contained body is read by itself, into the nodes of the pieces between the two tags of
its block. -/
theorem body_of_selfContained (hd : d.BlankFree) (h : parse d template = .ok nodes) {n : Node}
    (hmem : n ∈ Node.flatten.flattenAll nodes) {key : String} {start bodyStart bodyStop : Nat}
    (hblock : n = .block key start bodyStart children bodyStop ∨
      n = .inverted key start bodyStart children bodyStop)
    (hself : SelfContained d template start bodyStart bodyStop) :
    ∃ text alone, slice? template.toList bodyStart bodyStop = some text ∧
      parse d (String.ofList text) = .ok alone ∧
      BodyForests (piecesWithin d template bodyStart bodyStop) children
        (alone.map (Node.shift bodyStart)) := by
  obtain ⟨⟨stop, hend⟩, -⟩ := parse_eq_ok_iff.1 h
  obtain ⟨front, inside, rest, o, e, henclosed, rfl, rfl, rfl⟩ :=
    (forest_of_parse h).enclosed hmem hblock
  have hplaced := (cut_ofText hd hend).placed [] (List.nil_append template.toList).symm rfl
  have hinside : piecesWithin d template o.stop e.start = inside := henclosed.filter_within hplaced
  have hforce := hself.delimiters
  rw [tagsBefore, henclosed.filter_before hplaced] at hforce
  obtain ⟨text, ps, pos, hslice, hps, hshift⟩ := henclosed.pieces_text hd hend hforce
  -- brackets that match further on match
  have hbalanced : Balanced (tagsOf ps) := by
    have hwithin := henclosed.forest.balanced
    rw [partTags_joinTexts, partTags_keptBetween, ← hshift, tagsOf_shift] at hwithin
    refine hwithin.of_labels (f := fun key => key) ?_
    rw [List.map_map]
    rfl
  have hparse : parse d (String.ofList text) = .ok (nest (layout ps)) := by
    refine parse_eq_ok_iff.2 ?_
    rw [hps]
    exact ⟨⟨pos, rfl⟩, hbalanced, rfl⟩
  have halone := (forest_of_parse hparse).shift o.stop
  rw [hps, ← layout_shift, hshift, layout_eq_keptBetween] at halone
  refine ⟨text, _, hslice, hparse, ?_⟩
  rw [hinside]
  refine ⟨?_, ⟨o, _, _, henclosed.forest⟩, halone⟩
  rw [← hinside]
  exact hplaced.rising.2.filter _

end

/-! ## Margins on the first line -/

section

variable {places : Nat → Bool}

theorem unmarginedAll_eq (places : Nat → Bool) (ns : List Node) :
    Node.unmargined.unmarginedAll places ns = ns.map (Node.unmargined places) := by
  induction ns with
  | nil => rfl
  | cons n ns ih => rw [Node.unmargined.unmarginedAll, ih, List.map_cons]

theorem Tag.leaf?_unmargined {t : Tag} {m : Margin} {n : Node} (h : t.leaf? m = some n) :
    t.leaf? (if places t.start then {} else m) = some (n.unmargined places) := by
  obtain ⟨kind, key, start, stop⟩ := t
  cases kind <;> cases h <;> rfl

theorem Tag.blockNode_unmargined (o : Tag) (children : List Node) (bodyStop : Nat) :
    o.blockNode (children.map (Node.unmargined places)) bodyStop =
      (o.blockNode children bodyStop).unmargined places := by
  obtain ⟨kind, key, start, stop⟩ := o
  cases kind <;> simp [blockNode, Node.unmargined, unmarginedAll_eq]

theorem Forest.unmargined {ps : List Part} {ns : List Node} (h : Forest ps ns) :
    Forest (ps.map (Part.unmargined places)) (ns.map (Node.unmargined places)) := by
  induction h with
  | nil => exact .nil
  | text _ ih => exact .text ih
  | silent ht _ ih => exact .silent ht ih
  | leaf hleaf _ ih => exact .leaf (Tag.leaf?_unmargined hleaf) ih
  | @block o e m m' inside after children ns ho he hkey _ _ ihinside ihafter =>
    rw [List.map_cons, List.map_append, List.map_cons, List.map_cons, ← Tag.blockNode_unmargined]
    exact .block ho he hkey ihinside ihafter

theorem joinTexts_unmargined (ps : List Part) :
    joinTexts (ps.map (Part.unmargined places)) = (joinTexts ps).map (Part.unmargined places) := by
  refine joinTexts_map (fun p ps => ?_) ps
  rcases ps with _ | ⟨_ | _, _⟩ <;> cases p <;> rfl

/-- A body by itself has the nodes that it has in its template, except for the margins on its first
line. -/
theorem BodyForests.unmargined {body : List Piece} {children alone : List Node}
    (h : BodyForests body children alone) (hfirst : Firm (firstLine body))
    (hlast : Firm (lastLine body)) :
    alone.map (Node.unmargined (onFirstLine body)) =
      children.map (Node.unmargined (onFirstLine body)) := by
  obtain ⟨hrising, ⟨o, before, after, hwithin⟩, halone⟩ := h
  have hkept := keptBetween_unmargined hfirst hlast (fun t => onFirstLine_of_mem hrising)
    (.tag o :: before) after
  have halone' := @Forest.unmargined (onFirstLine body) _ _ halone
  have hwithin' := @Forest.unmargined (onFirstLine body) _ _ hwithin
  rw [← joinTexts_unmargined, ← hkept, joinTexts_unmargined] at halone'
  rw [← halone'.nest_eq, hwithin'.nest_eq]

end

end TagTemplate
