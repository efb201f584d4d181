import TagTemplate.Proofs.Template.Lexeme
import TagTemplate.Proofs.Template.Offsets
import TagTemplate.Proofs.Template.Shift

/-!
# One template behind another

A template that ends with a line feed and changes no delimiters has no effect on what stands behind
it, apart from the positions. Main statements: `Cursor.pieces_append`, for the pieces;
`layout_append`, for their layout, where the two texts that meet are joined; `parse_append` and
`parse_append_error`, for the tree and the fault.
-/

namespace TagTemplate

/-! ## Pieces -/

section

variable {d d' : Delimiters}

/-- An opening delimiter does not reach over white space. -/
theorem opening_not_over_blank (hd : d.BlankFree) {a b : List Char} (hne : a ≠ [])
    (hlast : ∀ c ∈ a.getLast?, isBlank c = true) (h : d.opening.toList <+: a ++ b) :
    d.opening.toList <+: a := by
  obtain ⟨rest, hrest⟩ := h
  rcases List.append_eq_append_iff.1 hrest with ⟨more, rfl, -⟩ | ⟨more, hopening, -⟩
  · exact List.prefix_append _ _
  · have hblank := hlast _ (List.getLast?_eq_some_getLast hne)
    rw [hd.1 _ (hopening ▸ List.mem_append_left more (List.getLast_mem hne))] at hblank
    cases hblank

theorem getLast?_append_blank {a b : List Char} (h : ∀ c ∈ (a ++ b).getLast?, isBlank c = true) :
    ∀ c ∈ b.getLast?, isBlank c = true := by
  intro c hc
  refine h c ?_
  rw [List.getLast?_append, Option.mem_def.1 hc]
  rfl

/-- Behind a text that ends with white space, and is cut into pieces up to its end, the pieces are
those of what stands there. -/
theorem Cursor.pieces_append (hd : d.BlankFree) {pos stop : Nat} {a : List Char} (b : List Char)
    (hlast : ∀ c ∈ a.getLast?, isBlank c = true)
    (hend : (Cursor.pieces d ⟨pos, a⟩).ending = .finished stop)
    (hforce : inForce d (tagsOf (Cursor.pieces d ⟨pos, a⟩).list) = .ok d') :
    Cursor.pieces d ⟨pos, a ++ b⟩ =
      (Cursor.pieces d' ⟨stop, b⟩).behind (Cursor.pieces d ⟨pos, a⟩).list := by
  obtain ⟨c, rfl, rfl⟩ : ∃ c : Cursor, c.pos = pos ∧ c.rest = a := ⟨⟨pos, a⟩, rfl, rfl⟩
  induction d, c using Cursor.pieces_induction with
  | atEnd d c hnil =>
    rw [pieces_atEnd hnil] at hend hforce ⊢
    cases hend
    cases hforce
    rw [hnil]
    rfl
  | char d start x xs hnone ih =>
    have hnone' : d.openingPattern.matchLength? (x :: (xs ++ b)) = none := by
      rw [Delimiters.opening_unmatched_iff] at hnone ⊢
      exact fun h => hnone (opening_not_over_blank hd (by simp) hlast h)
    rw [pieces_char hnone] at hend hforce ⊢
    rw [List.cons_append, pieces_char hnone',
      ih hd (getLast?_append_blank (a := [x]) hlast) hend hforce, Pieces.behind_behind]
    rfl
  | unclosed d c stop hopen htag =>
    rw [pieces_unclosed hopen htag] at hend
    cases hend
  | refused d c t next fault hopen htag hafter =>
    rw [pieces_tag hopen htag, hafter] at hend
    cases hend
  | tag d d₁ c t next hopen htag hafter ih =>
    have hopening := Delimiters.opening_matches_iff.1 hopen
    obtain ⟨lexeme, -, hrest⟩ := lexeme_of_readTag hd hopening htag
    have htag' := readTag_append hd hopening htag b
    have hopen' : (d.openingPattern.matchLength? (c.rest ++ b)).isSome :=
      Delimiters.opening_matches_iff.2 (hopening.trans (List.prefix_append _ _))
    rw [pieces_tag hopen htag, hafter] at hend hforce ⊢
    rw [pieces_tag (c := ⟨c.pos, c.rest ++ b⟩) hopen' htag', hafter]
    have hforce' : inForce d₁ (tagsOf (next.pieces d₁).list) = .ok d' := by
      rwa [Pieces.behind_list, List.singleton_append, tagsOf_tag, inForce_cons, hafter, ok_bind]
        at hforce
    simp only
    rw [ih (delimitersAfter_blankFree hd hafter) (getLast?_append_blank (hrest ▸ hlast)) hend
      hforce', Pieces.behind_behind]
    rfl

theorem Spells.endsUnblank (hd : d.BlankFree) {t : Tag} {lexeme : List Char}
    (h : Spells d t lexeme) : EndsUnblank lexeme := by
  obtain ⟨sigil, -, a, b, c, ending, -, -, -, -, -, hending, rfl⟩ := h
  obtain ⟨front, rfl⟩ : ∃ front, ending = front ++ d.closing.toList := by
    cases hending with
    | plain => exact ⟨[], rfl⟩
    | brace => exact ⟨['}'], rfl⟩
    | @equals passed => exact ⟨'=' :: passed, rfl⟩
  intro x hx
  rw [← List.append_assoc, List.getLast?_append,
    List.getLast?_eq_some_getLast d.closing_toList_ne] at hx
  cases hx
  exact hd.2 _ (List.getLast_mem _)

theorem Cut.nil_iff {pos : Nat} {cs : List Char} {ps : List Piece} (h : Cut d pos cs ps) :
    ps = [] ↔ cs = [] := by
  cases h with
  | nil => simp
  | char => simp
  | tag hspells => simp [hspells.ne_nil]

/-- The line feed at the end of a text ends the last line of its pieces. -/
theorem Cut.endsLine {pos : Nat} {cs : List Char} {ps : List Piece} (h : Cut d pos cs ps)
    (hd : d.BlankFree) (hlast : ∀ c ∈ cs.getLast?, c = '\n') :
    ∀ p ∈ ps.getLast?, p.endsLine = true := by
  induction h with
  | nil => exact fun _ hp => nomatch hp
  | @char d pos c cs ps _ hcut ih =>
    by_cases hnil : ps = []
    · rw [hcut.nil_iff.1 hnil] at hlast
      rw [hnil]
      intro p hp
      cases hp
      exact decide_eq_true (hlast c rfl)
    · rw [List.getLast?_cons_of_ne_nil (mt hcut.nil_iff.2 hnil)] at hlast
      rw [List.getLast?_cons_of_ne_nil hnil]
      exact ih hd hlast
  | @tag d d' t lexeme cs ps hspells _ hafter hcut ih =>
    by_cases hnil : ps = []
    · -- a tag does not end with a line feed
      have hend := List.getLast?_eq_some_getLast hspells.ne_nil
      have hunblank := hspells.endsUnblank hd _ hend
      rw [hcut.nil_iff.1 hnil, List.append_nil] at hlast
      rw [hlast _ hend] at hunblank
      cases hunblank
    · rw [List.getLast?_append_of_ne_nil _ (mt hcut.nil_iff.2 hnil)] at hlast
      rw [List.getLast?_cons_of_ne_nil hnil]
      exact ih (delimitersAfter_blankFree hd hafter) hlast

end

/-! ## Parts -/

/-- Parts in front of others; two texts that meet are joined. -/
def meetParts : List Part → List Part → List Part
  | [], ps => ps
  | [p], ps => p.join ps
  | p :: q :: before, ps => p :: meetParts (q :: before) ps

theorem Part.join_meetParts (p : Part) (before ps : List Part) :
    p.join (meetParts before ps) = meetParts (p.join before) ps := by
  rcases before with _ | ⟨q, _ | ⟨r, before⟩⟩
  · cases p <;> rfl
  · cases p with
    | tag => rfl
    | text a i j =>
      cases q with
      | tag => rfl
      | text b k l => exact join_join a b i j k l ps
  · cases p with
    | tag => rfl
    | text => cases q <;> rfl

theorem joinTexts_append (a b : List Part) :
    joinTexts (a ++ b) = meetParts (joinTexts a) (joinTexts b) := by
  induction a with
  | nil => rfl
  | cons p a ih => rw [List.cons_append, joinTexts, ih, Part.join_meetParts, joinTexts]

/-- Behind a line feed the layout starts afresh, but for a text that meets another. -/
theorem layout_append {a : List Piece} (ha : ∀ p ∈ a.getLast?, p.endsLine = true)
    (b : List Piece) : layout (a ++ b) = meetParts (layout a) (layout b) := by
  rw [layout, pieceLines_append ha, List.flatMap_append, joinTexts_append, layout, layout]

/-! ## Nodes -/

/-- Nodes in front of others; two texts that meet are joined if the one stops where the other
starts. -/
def meetNodes : List Node → List Node → List Node
  | [], ns => ns
  | [.text a i j], .text b k l :: ns =>
    if j = k then .text (a ++ b) i l :: ns else .text a i j :: .text b k l :: ns
  | n :: before, ns => n :: meetNodes before ns

theorem meetNodes_cons {n : Node} (hn : ∀ a i j, n ≠ .text a i j) (before ns : List Node) :
    meetNodes (n :: before) ns = n :: meetNodes before ns := by
  cases n with
  | text a i j => exact absurd rfl (hn a i j)
  | _ => rfl

theorem meetNodes_text {n : Node} (hn : ∀ a i j, n ≠ .text a i j) (a : String) (i j : Nat)
    (ns : List Node) : meetNodes [.text a i j] (n :: ns) = .text a i j :: n :: ns := by
  cases n with
  | text b k l => exact absurd rfl (hn b k l)
  | _ => rfl

/-- Two texts with something between them are not joined. -/
theorem meetNodes_gap {a : String} {i j : Nat} {ns : List Node}
    (h : ∀ b k l, .text b k l ∈ ns.head? → j < k) :
    meetNodes [.text a i j] ns = .text a i j :: ns := by
  rcases ns with _ | ⟨n, ns⟩
  · rfl
  · cases n with
    | text b k l => exact if_neg (h b k l rfl).ne
    | _ => rfl

theorem Ordered.sublist {ps qs : List Part} (h : Ordered qs) (hsub : ps.Sublist qs) : Ordered ps :=
  ⟨fun p hp => h.nonempty p (hsub.subset hp), h.ordered.sublist hsub⟩

theorem Forest.head_mem {ps : List Part} {ns : List Node} (h : Forest ps ns) {a : String}
    {i j : Nat} (hhead : .text a i j ∈ ns.head?) : .text a i j ∈ ps := by
  obtain ⟨rest, rfl⟩ := List.head?_eq_some_iff.1 hhead
  exact h.text_mem List.mem_cons_self

/-- A tag between two texts keeps them apart. -/
theorem Ordered.gap {a b : String} {i j k l : Nat} {t : Tag} {m : Margin} {ps : List Part}
    (h : Ordered (.text a i j :: .tag t m :: ps)) (hb : .text b k l ∈ ps) : j < k := by
  obtain ⟨hbehind, hpairs⟩ := List.pairwise_cons.1 h.ordered
  have hbefore := hbehind (.tag t m) List.mem_cons_self
  have htag := h.nonempty (.tag t m) (by simp)
  exact lt_of_le_of_lt hbefore (lt_of_lt_of_le htag ((List.pairwise_cons.1 hpairs).1 _ hb))

/-- Of two parts that meet, if both are texts, the one stops where the other starts. -/
def Touch (ps qs : List Part) : Prop :=
  ∀ a i j b k l, .text a i j ∈ ps.getLast? → .text b k l ∈ qs.head? → j = k

theorem Touch.of_append {front ps qs : List Part} (h : Touch (front ++ ps) qs) : Touch ps qs :=
  fun a i j b k l ha => h a i j b k l (List.mem_getLast?_append_of_mem_getLast? ha)

theorem Touch.tail {p : Part} {ps qs : List Part} (h : Touch (p :: ps) qs) : Touch ps qs :=
  Touch.of_append (show Touch ([p] ++ ps) qs from h)

theorem meetParts_append (front : List Part) (p : Part) (before ps : List Part) :
    meetParts (front ++ p :: before) ps = front ++ meetParts (p :: before) ps := by
  induction front with
  | nil => rfl
  | cons q front ih =>
    cases front with
    | nil => rfl
    | cons r front => exact congrArg (q :: ·) ih

theorem meetParts_tag (t : Tag) (m : Margin) (before ps : List Part) :
    meetParts (.tag t m :: before) ps = .tag t m :: meetParts before ps := by
  cases before <;> rfl

theorem leaf_ne_text {t : Tag} {m : Margin} {n : Node} (h : t.leaf? m = some n) (a : String)
    (i j : Nat) : n ≠ .text a i j := by
  rintro rfl
  rw [Tag.leaf?] at h
  split at h <;> cases h

theorem blockNode_ne_text (o : Tag) (children : List Node) (bodyStop : Nat) (a : String)
    (i j : Nat) : o.blockNode children bodyStop ≠ .text a i j := by
  intro h
  rw [Tag.blockNode] at h
  split at h <;> cases h

/-- A text in front of parts that it is not joined to, or that it touches. -/
theorem Forest.meet_text {qs : List Part} {ms : List Node} (h : Forest qs ms) {a : String}
    {i j : Nat} (hordered : Ordered (.text a i j :: qs)) (htouch : Touch [.text a i j] qs) :
    Forest (Part.join (.text a i j) qs) (meetNodes [.text a i j] ms) := by
  cases h with
  | nil => exact .text .nil
  | @text b k l qs ms hqs =>
    rw [meetNodes, if_pos (htouch a i j b k l rfl rfl)]
    exact .text hqs
  | silent ht hqs =>
    rw [meetNodes_gap fun b k l hb => hordered.gap (hqs.head_mem hb)]
    exact .text (.silent ht hqs)
  | leaf hleaf hqs =>
    rw [meetNodes_text (leaf_ne_text hleaf)]
    exact .text (.leaf hleaf hqs)
  | block ho he hkey hinside hafter =>
    rw [meetNodes_text (blockNode_ne_text _ _ _)]
    exact .text (.block ho he hkey hinside hafter)

/-- If the texts that meet touch, parts in front of others make the nodes of the ones in front of
those of the others. -/
theorem Forest.meet {ps qs : List Part} {ns ms : List Node} (h : Forest ps ns) (h' : Forest qs ms)
    (hordered : Ordered (ps ++ qs)) (htouch : Touch ps qs) :
    Forest (meetParts ps qs) (meetNodes ns ms) := by
  induction h with
  | nil => exact h'
  | @text a i j ps ns hps ih =>
    cases ps with
    | nil =>
      cases hps
      exact h'.meet_text hordered htouch
    | cons p ps =>
      have hrest := ih (hordered.sublist (List.sublist_cons_self _ _)) htouch.tail
      cases ns with
      | cons n ns => exact .text hrest
      | nil =>
        -- what makes no node is a tag
        cases hps
        rw [meetNodes_gap fun b k l hb =>
          hordered.gap (List.mem_append_right _ (h'.head_mem hb))]
        exact .text hrest
  | @silent t m ps ns ht _ ih =>
    rw [meetParts_tag]
    exact .silent ht (ih (hordered.sublist (List.sublist_cons_self _ _)) htouch.tail)
  | @leaf t m n ps ns hleaf _ ih =>
    rw [meetParts_tag, meetNodes_cons (leaf_ne_text hleaf)]
    exact .leaf hleaf (ih (hordered.sublist (List.sublist_cons_self _ _)) htouch.tail)
  | @block o e m m' inside after children ns ho he hkey hinside _ _ ih =>
    have hsplit : Part.tag o m :: (inside ++ .tag e m' :: after) =
        (.tag o m :: (inside ++ [.tag e m'])) ++ after := by simp
    rw [hsplit] at hordered htouch
    rw [List.append_assoc] at hordered
    rw [meetParts_tag, meetParts_append, meetParts_tag, meetNodes_cons (blockNode_ne_text _ _ _)]
    exact .block ho he hkey hinside (ih (hordered.sublist (List.sublist_append_right _ _))
      htouch.of_append)

/-! ## Trees -/

/-- The template ends with a line feed, and no tag in it changes the delimiters. -/
structure EndsLine (d : Delimiters) (template : String) : Prop where
  lineFeed : template.toList.getLast? = some '\n'
  plain : ∀ t ∈ tagsOf (Pieces.ofText d template).list, t.kind ≠ .delimiters

/-- The template ends with a line feed, and its tags leave these delimiters in force. -/
structure LeavesLine (d d' : Delimiters) (template : String) : Prop where
  lineFeed : template.toList.getLast? = some '\n'
  inForce : inForce d (tagsOf (Pieces.ofText d template).list) = .ok d'

theorem EndsLine.leaves {d : Delimiters} {template : String} (h : EndsLine d template) :
    LeavesLine d d template := ⟨h.lineFeed, inForce_plain h.plain⟩

section

variable {d d' : Delimiters} {a b : String} {nodes : List Node}

/-- The pieces of a template behind another one are its own, further on. -/
theorem ofText_append (hd : d.BlankFree) (ha : parse d a = .ok nodes) (hline : LeavesLine d d' a)
    (b : String) : Pieces.ofText d (a ++ b) =
      ((Pieces.ofText d' b).shift (byteLength a.toList)).behind (Pieces.ofText d a).list := by
  obtain ⟨⟨stop, hend⟩, -⟩ := parse_eq_ok_iff.1 ha
  have hstop := ofText_endsWell d a
  rw [Pieces.EndsWell, hend] at hstop
  obtain ⟨rfl, -⟩ := hstop
  have hblank : ∀ c ∈ a.toList.getLast?, isBlank c = true := by
    rw [hline.lineFeed]
    rintro c ⟨⟩
    rfl
  have happ := Cursor.pieces_append hd b.toList hblank hend hline.inForce
  rw [← String.toList_append] at happ
  exact happ.trans (congrArg (Pieces.behind _) (Cursor.pieces_shift d' (Cursor.start b.toList)))

theorem layout_ofText_append (hd : d.BlankFree) (ha : parse d a = .ok nodes)
    (hline : LeavesLine d d' a) (b : String) : layout (Pieces.ofText d (a ++ b)).list =
      meetParts (layout (Pieces.ofText d a).list)
        ((layout (Pieces.ofText d' b).list).map (Part.shift (byteLength a.toList))) := by
  obtain ⟨⟨stop, hend⟩, -⟩ := parse_eq_ok_iff.1 ha
  have hlast := (cut_ofText hd hend).endsLine hd fun c hc => by
    rw [hline.lineFeed] at hc
    exact (Option.some.inj hc).symm
  rw [ofText_append hd ha hline, Pieces.behind_list, Pieces.shift, layout_append hlast,
    layout_shift]

theorem tagsOf_ofText_append (hd : d.BlankFree) (ha : parse d a = .ok nodes)
    (hline : LeavesLine d d' a) (b : String) : tagsOf (Pieces.ofText d (a ++ b)).list =
      tagsOf (Pieces.ofText d a).list ++
        (tagsOf (Pieces.ofText d' b).list).map (Tag.shift (byteLength a.toList)) := by
  rw [ofText_append hd ha hline, Pieces.behind_list, tagsOf_append, Pieces.shift, tagsOf_shift]

/-- The parts of a template stand before those of one further on. -/
theorem ordered_append (hd : d.BlankFree) (hd' : d'.BlankFree) (ha : parse d a = .ok nodes)
    {nodes' : List Node} (hb : parse d' b = .ok nodes') :
    Ordered (layout (Pieces.ofText d a).list ++
      (layout (Pieces.ofText d' b).list).map (Part.shift (byteLength a.toList))) := by
  have hfirst := (laid_of_parse hd ha).ordered.2
  have hsecond := (laid_of_parse hd' hb).ordered.2
  have hspan (p : Part) : (p.shift (byteLength a.toList)).span =
      (byteLength a.toList + p.span.1, byteLength a.toList + p.span.2) := by cases p <;> rfl
  constructor
  · intro p hp
    rcases List.mem_append.1 hp with hp | hp
    · exact hfirst.nonempty p hp
    · obtain ⟨q, hq, rfl⟩ := List.mem_map.1 hp
      rw [hspan]
      exact Nat.add_lt_add_left (hsecond.nonempty q hq) _
  · refine List.pairwise_append.2 ⟨hfirst.ordered, List.pairwise_map.2 ?_, fun p hp q hq => ?_⟩
    · refine hsecond.ordered.imp fun hle => ?_
      rw [hspan, hspan]
      exact Nat.add_le_add_left hle _
    · obtain ⟨q, -, rfl⟩ := List.mem_map.1 hq
      rw [hspan]
      exact le_trans (part_boundary hd ha hp).2.le (Nat.le_add_right _ _)

/-- The texts at the seam, which become one text of the whole template, touch. -/
theorem touch_append (hd : d.BlankFree) (ha : parse d a = .ok nodes) (hline : LeavesLine d d' a)
    {nodes' : List Node} (hb : parse d' b = .ok nodes') : Touch (layout (Pieces.ofText d a).list)
      ((layout (Pieces.ofText d' b).list).map (Part.shift (byteLength a.toList))) := by
  intro u i j v k l hlast hhead
  obtain ⟨⟨pos, hend⟩, -⟩ := parse_eq_ok_iff.1 hb
  have hwhole : (Pieces.ofText d (a ++ b)).ending = .finished (byteLength a.toList + pos) := by
    rw [ofText_append hd ha hline, Pieces.behind_ending, Pieces.shift, hend]
    rfl
  have hlaid := laid_layout ((cut_ofText hd hwhole).placed []
    (List.nil_append (a ++ b).toList).symm rfl)
  obtain ⟨front, hfront⟩ := List.getLast?_eq_some_iff.1 hlast
  obtain ⟨back, hback⟩ := List.head?_eq_some_iff.1 hhead
  rw [layout_ofText_append hd ha hline, hfront, hback, meetParts_append] at hlaid
  -- three texts in place: the two that meet, and the one that they become
  have hmem : .text (u ++ v) i l ∈ front ++ meetParts [.text u i j] (.text v k l :: back) :=
    List.mem_append_right _ List.mem_cons_self
  obtain ⟨-, -, hjoined⟩ := hlaid.text_mem hmem
  obtain ⟨-, -, hstop⟩ := (laid_of_parse hd ha).text_mem (List.mem_of_getLast? hlast)
  obtain ⟨p, hp, hshift⟩ := List.mem_map.1 (List.mem_of_head? hhead)
  cases p with
  | tag => cases hshift
  | text v' k' l' =>
    cases hshift
    have hd' : d'.BlankFree := inForce_blankFree hd hline.inForce
    obtain ⟨-, -, hstop'⟩ := (laid_of_parse hd' hb).text_mem hp
    rw [String.toList_append, byteLength_append] at hjoined
    omega

/-- The tree of a template behind another one is the tree of the other and its own, further on. -/
theorem parse_append (hd : d.BlankFree) (ha : parse d a = .ok nodes) (hline : LeavesLine d d' a)
    {nodes' : List Node} (hb : parse d' b = .ok nodes') : parse d (a ++ b) =
      .ok (meetNodes nodes (nodes'.map (Node.shift (byteLength a.toList)))) := by
  obtain ⟨-, hfirst, -⟩ := parse_eq_ok_iff.1 ha
  obtain ⟨⟨pos, hend⟩, hsecond, -⟩ := parse_eq_ok_iff.1 hb
  refine parse_eq_ok_iff.2 ⟨⟨byteLength a.toList + pos, ?_⟩, ?_, ?_⟩
  · rw [ofText_append hd ha hline, Pieces.behind_ending, Pieces.shift, hend]
    rfl
  · rw [tagsOf_ofText_append hd ha hline]
    exact hfirst.append (hsecond.of_labels (f := id) (List.map_map ..))
  · rw [layout_ofText_append hd ha hline]
    have hordered := ordered_append hd (inForce_blankFree hd hline.inForce) ha hb
    exact ((forest_of_parse ha).meet ((forest_of_parse hb).shift _) hordered
      (touch_append hd ha hline hb)).nest_eq

end

/-! ## Faults -/

/-- A fault of a template, in the same template behind another. -/
def Fault.behind (a : String) : Fault → Fault
  | .malformed f =>
    .malformed { f with pos := byteLength a.toList + f.pos, source := a ++ f.source }
  | fault => fault

theorem Tag.keysAfter_shift (t : Tag) (a b : String) (keys : List String) :
    (t.shift (byteLength a.toList)).keysAfter (a ++ b) keys =
      (t.keysAfter b keys).mapError (Fault.behind a) := by
  obtain ⟨kind, key, start, stop⟩ := t
  cases kind with
  | blockEnd =>
    cases keys with
    | nil => rfl
    | cons opened outer =>
      by_cases hkey : opened = key
      · simp [keysAfter, shift, hkey, Except.mapError]
      · simp [keysAfter, shift, hkey, Except.mapError, Fault.behind]
  | _ => rfl

theorem keysThrough_shift (a b : String) (keys : List String) (ts : List Tag) :
    keysThrough (a ++ b) keys (ts.map (Tag.shift (byteLength a.toList))) =
      (keysThrough b keys ts).mapError (Fault.behind a) := by
  induction ts generalizing keys with
  | nil => rfl
  | cons t ts ih =>
    rw [List.map_cons, keysThrough_cons, keysThrough_cons, Tag.keysAfter_shift]
    cases t.keysAfter b keys with
    | error fault => rfl
    | ok keys => exact ih keys

/-- What is wrong at the end of a template is wrong at its end further on. -/
theorem Ending.conclude_shift {d : Delimiters} {b : String} {ps : Pieces} {stop : Nat}
    (hends : ps.EndsWell d stop) (a : String) (draft draft' : Draft) (keys : List String)
    {fault : Fault} (h : ps.ending.conclude b ⟨draft, keys⟩ = .error fault) :
    (ps.ending.shift (byteLength a.toList)).conclude (a ++ b) ⟨draft', keys⟩ =
      .error (fault.behind a) := by
  obtain ⟨list, ending⟩ := ps
  cases ending with
  | finished pos =>
    cases keys with
    | nil => cases h
    | cons key outer =>
      cases h
      rfl
  | unclosed closing pos =>
    cases h
    rfl
  | refused refusal =>
    obtain ⟨front, t, -, -, -, hrefusal⟩ := hends
    cases h
    rw [hrefusal]
    rfl

/-- What is wrong with a template is wrong with it behind another one. -/
theorem parse_append_error {d d' : Delimiters} {a b : String} {nodes : List Node}
    (hd : d.BlankFree) (ha : parse d a = .ok nodes) (hline : LeavesLine d d' a) {fault : Fault}
    (hb : parse d' b = .error fault) : parse d (a ++ b) = .error (fault.behind a) := by
  obtain ⟨-, hbalanced, -⟩ := parse_eq_ok_iff.1 ha
  rw [parse_eq_error_iff_draft, draft_eq] at hb ⊢
  rw [tagsOf_ofText_append hd ha hline, keysThrough_append, hbalanced.keysThrough, ok_bind,
    keysThrough_shift]
  cases hkeys : keysThrough b [] (tagsOf (Pieces.ofText d' b).list) with
  | error f =>
    rw [hkeys] at hb
    cases hb
    rfl
  | ok keys =>
    rw [hkeys, ok_bind] at hb
    rw [ofText_append hd ha hline]
    exact Ending.conclude_shift (ofText_endsWell d' b) a _ _ keys hb

/-- Behind a line feed lines are counted on, and columns anew. -/
theorem lineColumn_append {a : List Char} (ha : a.getLast? = some '\n') (b : List Char)
    (pos : Nat) :
    lineColumn (a ++ b) (byteLength a + pos) =
      ⟨(lineColumn b pos).line + a.count '\n', (lineColumn b pos).column⟩ := by
  obtain ⟨front, rfl⟩ := List.getLast?_eq_some_iff.1 ha
  rw [lineColumn, beforeByte_append, lineColumn]
  generalize beforeByte b pos = before
  have hcolumn : (front ++ ['\n'] ++ before).reverse.takeWhile (· ≠ '\n') =
      before.reverse.takeWhile (· ≠ '\n') := by
    rw [List.reverse_append, List.reverse_append, List.reverse_singleton, List.singleton_append,
      List.takeWhile_append]
    split
    · next hall =>
      rw [List.takeWhile_cons_of_neg (by decide), List.append_nil]
      exact ((List.takeWhile_prefix _).eq_of_length hall).symm
    · rfl
  rw [hcolumn, List.count_append]
  simp only [LineColumn.mk.injEq, and_true]
  omega

/-- The fault of a template, and what it is in the template behind another one. -/
inductive FaultBehind (a b : String) : Fault → Fault → Prop
  | invalid {reason : BadArgument} : FaultBehind a b (.invalid reason) (.invalid reason)
  | malformed {f f' : SyntaxFault} :
      f'.problem = f.problem → f'.source = a ++ b → f'.pos = byteLength a.toList + f.pos →
      f'.place.line = f.place.line + a.toList.count '\n' → f'.place.column = f.place.column →
      FaultBehind a b (.malformed f) (.malformed f')

/-- A fault of a template is about its own text. -/
theorem parse_error_source {d : Delimiters} {template : String} {fault : Fault}
    (h : parse d template = .error fault) : (∃ reason, fault = .invalid reason) ∨
      ∃ problem pos, fault = .malformed ⟨problem, pos, template⟩ := by
  cases firstFault_of_error h with
  | delimiters => exact .inl ⟨_, rfl⟩
  | _ => exact .inr ⟨_, _, rfl⟩

/-- What is wrong with a template is wrong with it behind another one, further down. -/
theorem parse_append_faultBehind {d d' : Delimiters} {a b : String} {nodes : List Node}
    (hd : d.BlankFree) (ha : parse d a = .ok nodes) (hline : LeavesLine d d' a) {fault : Fault}
    (hb : parse d' b = .error fault) :
    ∃ fault', parse d (a ++ b) = .error fault' ∧ FaultBehind a b fault fault' := by
  refine ⟨_, parse_append_error hd ha hline hb, ?_⟩
  rcases parse_error_source hb with ⟨reason, rfl⟩ | ⟨problem, pos, rfl⟩
  · exact .invalid
  · have hplace : SyntaxFault.place ⟨problem, byteLength a.toList + pos, a ++ b⟩ =
        ⟨(lineColumn b.toList pos).line + a.toList.count '\n',
          (lineColumn b.toList pos).column⟩ := by
      rw [SyntaxFault.place, String.toList_append, lineColumn_append hline.lineFeed]
    have hbehind : FaultBehind a b (.malformed ⟨problem, pos, b⟩)
        (.malformed ⟨problem, byteLength a.toList + pos, a ++ b⟩) :=
      .malformed rfl rfl rfl (congrArg LineColumn.line hplace) (by rw [hplace]; rfl)
    exact hbehind

end TagTemplate
