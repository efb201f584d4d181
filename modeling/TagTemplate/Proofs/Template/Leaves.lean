import TagTemplate.Proofs.Template.Conservation
import TagTemplate.Proofs.Template.Reflow
import TagTemplate.Proofs.Template.Shift

/-!
# Templates without blocks

Without brackets among its tags, a template is read as a row of nodes, one for each part that makes
one. Main statements: `parse_leaves`, the tree of such a template; `leaves_keptParts`, if all tags
write values then nothing is struck out; `parse_inclusionLine`, the tree of a line that starts with
white space and an inclusion and goes on with values.
-/

namespace TagTemplate

/-- The node of a part that makes one by itself. -/
def Part.leaf? : Part → Option Node
  | .text words start stop => some (.text words start stop)
  | .tag t m => t.leaf? m

/-- The nodes of parts without brackets. -/
def leaves (ps : List Part) : List Node := ps.filterMap Part.leaf?

/-- The node of a piece, if its margin does not matter. -/
def Piece.leaf? : Piece → Option Node
  | .char c start => some (.text (String.singleton c) start (start + c.utf8Size))
  | .tag t => t.leaf? {}

/-- Every tag among some pieces writes a value. -/
def WriteValues (ps : List Piece) : Prop := ∀ t ∈ tagsOf ps, t.kind.interpolates = true

instance (ps : List Piece) : Decidable (WriteValues ps) := List.decidableBAll _ (tagsOf ps)

/-- The template can be read, and every tag in it writes a value. -/
structure OnlyValues (d : Delimiters) (template : String) : Prop where
  finished : ∃ stop, (Pieces.ofText d template).ending = .finished stop
  values : WriteValues (Pieces.ofText d template).list

/-! ## Parts without brackets -/

theorem leaves_append (a b : List Part) : leaves (a ++ b) = leaves a ++ leaves b :=
  List.filterMap_append

theorem forest_leaves {ps : List Part} (h : ∀ t ∈ partTags ps, ¬ t.Opens ∧ ¬ t.Closes) :
    Forest ps (leaves ps) := by
  induction ps with
  | nil => exact .nil
  | cons p ps ih =>
    cases p with
    | text text start stop => exact .text (ih h)
    | tag t m =>
      obtain ⟨⟨ho, hc⟩, hps⟩ := List.forall_mem_cons.1 h
      have hrest := ih hps
      rcases Tag.leaf_or_silent ho hc m with ⟨n, hleaf⟩ | hsilent
      · have hsome : (Part.tag t m).leaf? = some n := hleaf
        rw [leaves, List.filterMap_cons_some hsome]
        exact .leaf hleaf hrest
      · have hnone : (Part.tag t m).leaf? = none := by
          rcases hsilent with hkind | hkind <;> simp only [Part.leaf?, Tag.leaf?, hkind]
        rw [leaves, List.filterMap_cons_none hnone]
        exact .silent hsilent hrest

theorem balanced_of_flat {ts : List Tag} (h : ∀ t ∈ ts, ¬ t.Opens ∧ ¬ t.Closes) : Balanced ts := by
  induction ts with
  | nil => exact .nil
  | cons t ts ih =>
    obtain ⟨⟨ho, hc⟩, hts⟩ := List.forall_mem_cons.1 h
    exact .other ho hc (ih hts)

/-- Without brackets the nodes are those of the parts, one by one. -/
theorem parse_leaves {d : Delimiters} {template : String}
    (hend : ∃ stop, (Pieces.ofText d template).ending = .finished stop)
    (hflat : ∀ t ∈ tagsOf (Pieces.ofText d template).list, ¬ t.Opens ∧ ¬ t.Closes) :
    parse d template = .ok (leaves (layout (Pieces.ofText d template).list)) := by
  have hforest : Forest (layout (Pieces.ofText d template).list)
      (leaves (layout (Pieces.ofText d template).list)) :=
    forest_leaves (by rwa [tagsOf_layout])
  exact parse_eq_ok_iff.2 ⟨hend, balanced_of_flat hflat, hforest.nest_eq⟩

/-! ## Tags that write values -/

theorem Tag.flat_of_interpolates {t : Tag} (h : t.kind.interpolates = true) :
    ¬ t.Opens ∧ ¬ t.Closes := by
  unfold Tag.Opens Tag.Closes
  cases hkind : t.kind <;> simp_all [TagKind.interpolates]

/-- Only the node of an inclusion has a margin. -/
theorem Tag.leaf?_margin {t : Tag} (h : t.kind.interpolates = true) (m m' : Margin) :
    t.leaf? m = t.leaf? m' := by
  cases hkind : t.kind <;> simp_all [TagKind.interpolates, Tag.leaf?]

section

variable {line ps : List Piece}

/-- A line shows the values that are written on it. -/
theorem standsAlone_values (h : WriteValues line) : standsAlone line = false := by
  rw [← Bool.not_eq_true, standsAlone_iff]
  rintro ⟨⟨t, ht⟩, -, hsilent⟩
  obtain ⟨hescaped, hunescaped⟩ := hsilent t ht
  have hvalue := h t (mem_tagsOf.2 ht)
  revert hvalue
  cases hkind : t.kind <;> simp_all [TagKind.interpolates]

theorem leaves_lineParts (h : WriteValues line) (before : List Piece) :
    leaves (lineParts before line) = line.filterMap Piece.leaf? := by
  induction line generalizing before with
  | nil => rfl
  | cons p line ih =>
    cases p with
    | char c start => exact congrArg (_ :: ·) (ih h _)
    | tag t =>
      obtain ⟨ht, hline⟩ := List.forall_mem_cons.1 h
      have hrest := ih hline (.tag t :: before)
      rw [leaves] at hrest
      rw [leaves, lineParts, List.filterMap_cons, List.filterMap_cons, hrest, Piece.part,
        Part.leaf?, Piece.leaf?, Tag.leaf?_margin ht]

/-- Where all tags write values, nothing is struck out. -/
theorem leaves_keptParts (h : WriteValues ps) :
    leaves ((pieceLines ps).flatMap keptParts) = ps.filterMap Piece.leaf? := by
  have hflatten := pieceLines_flatten ps
  generalize pieceLines ps = lines at hflatten
  subst hflatten
  induction lines with
  | nil => rfl
  | cons line lines ih =>
    rw [List.flatten_cons, WriteValues, tagsOf_append] at h
    obtain ⟨hline, hlines⟩ := List.forall_mem_append.1 h
    have hkept : keptParts line = lineParts [] line := by
      simp [keptParts, standsAlone_values hline]
    rw [List.flatMap_cons, leaves_append, ih hlines, hkept, leaves_lineParts hline,
      List.flatten_cons, List.filterMap_append]

end

section

variable {d : Delimiters} {template : String}

theorem OnlyValues.parse_eq (h : OnlyValues d template) :
    parse d template = .ok (leaves (layout (Pieces.ofText d template).list)) :=
  parse_leaves h.finished fun t ht => Tag.flat_of_interpolates (h.values t ht)

/-! ## Texts -/

/-- Where no tag opens there are characters only. -/
theorem Cursor.pieces_text {cs : List Char} (h : ¬ d.opening.toList <:+: cs) (pos : Nat) :
    Cursor.pieces d ⟨pos, cs⟩ = ⟨charPieces pos cs, .finished (pos + byteLength cs)⟩ := by
  induction cs generalizing pos with
  | nil => exact pieces_atEnd rfl
  | cons c cs ih =>
    have hnone : d.openingPattern.matchLength? (c :: cs) = none := by
      rw [Delimiters.opening_unmatched_iff]
      exact fun hopening => h hopening.isInfix
    rw [pieces_char hnone, ih fun hin => h (hin.trans (List.suffix_cons c cs).isInfix),
      byteLength_cons, Nat.add_assoc]
    rfl

theorem ofText_text (h : ¬ d.opening.toList <:+: template.toList) :
    Pieces.ofText d template =
      ⟨charPieces 0 template.toList, .finished (0 + byteLength template.toList)⟩ :=
  Cursor.pieces_text h 0

theorem values_charPieces (start : Nat) (cs : List Char) : WriteValues (charPieces start cs) := by
  rw [WriteValues, tagsOf_charPieces]
  exact List.forall_mem_nil _

/-- A text without opening delimiters writes no values. -/
theorem OnlyValues.of_text (h : ¬ d.opening.toList <:+: template.toList) :
    OnlyValues d template where
  finished := by
    rw [ofText_text h]
    exact ⟨_, rfl⟩
  values := by
    rw [ofText_text h]
    exact values_charPieces 0 template.toList

/-- An opening delimiter does not stand in white space. -/
theorem Delimiters.BlankFree.not_infix_blanks (hd : d.BlankFree) {blanks : List Char}
    (h : Blanks blanks) : ¬ d.opening.toList <:+: blanks := by
  intro hin
  obtain ⟨c, hc⟩ := List.exists_mem_of_ne_nil _ d.opening_toList_ne
  have hunblank := hd.1 c hc
  rw [h c (hin.subset hc)] at hunblank
  cases hunblank

/-! ## Pieces that show something -/

/-- The characters outside tags are characters of the text. -/
theorem Cut.char_mem {pos : Nat} {cs : List Char} {ps : List Piece} (h : Cut d pos cs ps) {c : Char}
    {start : Nat} (hc : .char c start ∈ ps) : c ∈ cs := by
  induction h with
  | nil => cases hc
  | char _ _ ih =>
    rcases List.mem_cons.1 hc with heq | hc
    · cases heq
      exact List.mem_cons_self
    · exact List.mem_cons_of_mem _ (ih hc)
  | tag _ _ _ _ ih =>
    rcases List.mem_cons.1 hc with heq | hc
    · cases heq
    · exact List.mem_append_right _ (ih hc)

theorem Spells.opening_prefix {t : Tag} {lexeme : List Char} (h : Spells d t lexeme) :
    d.opening.toList <+: lexeme := by
  obtain ⟨sigil, -, a, b, c, ending, -, -, -, -, -, -, rfl⟩ := h
  simp only [List.append_assoc]
  exact List.prefix_append _ _

/-- Where all tags write values, nothing shows only if all is white space. -/
theorem Cut.all_isInvisible (hd : d.BlankFree) {pos : Nat} {cs : List Char} {ps : List Piece}
    (h : Cut d pos cs ps) (hvalues : WriteValues ps) :
    ps.all Piece.isInvisible = cs.all isBlank := by
  induction h with
  | nil => rfl
  | char _ _ ih =>
    rw [List.all_cons, List.all_cons, ih hd hvalues]
    rfl
  | @tag d d' t lexeme cs ps hspells _ _ _ _ =>
    have ht : t.kind.interpolates = true := hvalues t List.mem_cons_self
    have hvisible : (Piece.tag t).isInvisible = false := by rw [Piece.isInvisible, ht]; rfl
    -- the tag opens with a delimiter
    obtain ⟨c, hc⟩ := List.exists_mem_of_ne_nil _ d.opening_toList_ne
    have hunblank : isBlank c = false := hd.1 c hc
    rw [List.all_cons, hvisible, Bool.false_and, eq_comm, List.all_eq_false]
    exact ⟨c, List.mem_append_left cs (hspells.opening_prefix.subset hc), by simp [hunblank]⟩

end

/-! ## An inclusion behind white space -/

section

variable {margin : List Char}

theorem indentation?_blank {c : Char} (hc : isBlank c = true) (start : Nat) :
    (Piece.char c start).indentation? = some c := by
  rw [Piece.indentation?, if_pos hc]

theorem behind_blanks (hmargin : Blanks margin) (pos : Nat) :
    Margin.behind (charPieces pos margin).reverse = ⟨margin, 0, false⟩ := by
  have hall : ((charPieces pos margin).filterMap Piece.indentation? = margin) ∧
      (charPieces pos margin).countP Piece.isTag = 0 ∧
      (charPieces pos margin).any Piece.isWord = false := by
    induction margin generalizing pos with
    | nil => exact ⟨rfl, rfl, rfl⟩
    | cons c margin ih =>
      obtain ⟨hc, hmargin⟩ := List.forall_mem_cons.1 hmargin
      obtain ⟨hindent, hcount, hword⟩ := ih hmargin (pos + c.utf8Size)
      refine ⟨?_, ?_, ?_⟩
      · rw [charPieces, List.filterMap_cons_some (indentation?_blank hc pos), hindent]
      · rw [charPieces, List.countP_cons_of_neg (by simp [Piece.isTag]), hcount]
      · rw [charPieces, List.any_cons, hword, Piece.isWord, hc]
        rfl
  obtain ⟨hindent, hcount, hword⟩ := hall
  rw [Margin.behind, List.filterMap_reverse, List.reverse_reverse, List.countP_reverse,
    List.any_reverse, hindent, hcount, hword]

theorem filter_isTag_lineParts {line : List Piece} (h : tagsOf line = []) (before : List Piece) :
    (lineParts before line).filter Part.isTag = [] := by
  rw [List.filter_eq_nil_iff]
  rintro (_ | ⟨t, m⟩) hp htag
  · cases htag
  · have ht : t ∈ partTags (lineParts before line) := List.mem_filterMap.2 ⟨_, hp, rfl⟩
    rw [partTags_lineParts, h] at ht
    cases ht

variable {ps : List Piece}

/-- Where all tags write values, there is no tag if nothing shows. -/
theorem tagsOf_invisible (hps : WriteValues ps) (h : ps.all Piece.isInvisible = true) :
    tagsOf ps = [] := by
  rw [List.eq_nil_iff_forall_not_mem]
  intro t ht
  obtain ⟨_ | t', hmem, heq⟩ := List.mem_filterMap.1 ht
  · cases heq
  · cases heq
    have hinvisible := List.all_eq_true.1 h _ hmem
    rw [Piece.isInvisible, hps t ht] at hinvisible
    cases hinvisible

theorem all_isInvisible_blanks (hmargin : Blanks margin) (pos : Nat) :
    (charPieces pos margin).all Piece.isInvisible = true := by
  induction margin generalizing pos with
  | nil => rfl
  | cons c margin ih =>
    obtain ⟨hc, hmargin⟩ := List.forall_mem_cons.1 hmargin
    rw [charPieces, List.all_cons, ih hmargin, Piece.isInvisible, hc]
    rfl

/-- A line with an inclusion behind white space, on which all other tags write values: the inclusion
stands alone if nothing else shows, and otherwise all of the line stays. -/
theorem leaves_inclusion (hmargin : Blanks margin) {t : Tag} (ht : t.kind = .inclusion)
    (hps : WriteValues ps) (pos : Nat) :
    leaves (keptParts (charPieces pos margin ++ .tag t :: ps)) =
      if ps.all Piece.isInvisible then [.inclusion t.key t.start t.stop ⟨margin, 0, false⟩]
      else (charPieces pos margin).filterMap Piece.leaf? ++
        .inclusion t.key t.start t.stop ⟨margin, 0, false⟩ :: ps.filterMap Piece.leaf? := by
  have hbefore := tagsOf_charPieces pos margin
  have hparts : lineParts [] (charPieces pos margin ++ .tag t :: ps) =
      lineParts [] (charPieces pos margin) ++
        .tag t ⟨margin, 0, false⟩ :: lineParts (.tag t :: (charPieces pos margin).reverse) ps := by
    rw [lineParts_append, lineParts, List.append_nil, Piece.part, behind_blanks hmargin]
  have halone : standsAlone (charPieces pos margin ++ .tag t :: ps) =
      ps.all Piece.isInvisible := by
    have htag : (Piece.tag t).isInvisible = true := by rw [Piece.isInvisible, ht]; rfl
    simp [standsAlone, Piece.isTag, all_isInvisible_blanks hmargin, htag]
  have hleaf : (Part.tag t ⟨margin, 0, false⟩).leaf? =
      some (.inclusion t.key t.start t.stop ⟨margin, 0, false⟩) := by
    rw [Part.leaf?, Tag.leaf?, ht]
  rw [keptParts, hparts, halone]
  split
  · next hinvisible =>
    simp only [hinvisible, Bool.not_true, Bool.or_false]
    rw [List.filter_append, filter_isTag_lineParts hbefore, List.nil_append,
      List.filter_cons_of_pos rfl, filter_isTag_lineParts (tagsOf_invisible hps hinvisible)]
    exact List.filterMap_cons_some hleaf
  · next hvisible =>
    simp only [hvisible, Bool.not_false, Bool.or_true, List.filter_true]
    rw [leaves_append, leaves_lineParts (values_charPieces pos margin), leaves,
      List.filterMap_cons_some hleaf, ← leaves, leaves_lineParts hps]

end

/-! ## A line with an inclusion as a template -/

/-- White space, an inclusion and more, on one line. -/
def inclusionLine (margin tag rest : List Char) : String := String.ofList (margin ++ (tag ++ rest))

/-- Its inclusion. -/
def inclusionNode (margin tag : List Char) (key : String) : Node :=
  .inclusion key (byteLength margin) (byteLength margin + byteLength tag) ⟨margin, 0, false⟩

section

variable {d : Delimiters} {margin tag : List Char} {key rest : String}

theorem pieces_inclusionLine (hd : d.BlankFree) (hmargin : Blanks margin)
    (htag : Lexeme d .inclusion key.toList tag) (rest : String) :
    Pieces.ofText d (inclusionLine margin tag rest.toList) =
      ((Pieces.ofText d rest).shift (byteLength margin + byteLength tag)).behind
        (charPieces 0 margin ++ [.tag ⟨.inclusion, key, byteLength margin,
          byteLength margin + byteLength tag⟩]) := by
  have htagged : Cursor.pieces d ⟨byteLength margin, tag ++ rest.toList⟩ = _ :=
    Cursor.pieces_lexeme hd htag rfl
  rw [String.ofList_toList] at htagged
  have hshift := Cursor.pieces_shift (k := byteLength margin + byteLength tag) d
    (Cursor.start rest.toList)
  rw [Pieces.ofText, inclusionLine, String.toList_ofList, Cursor.start,
    Cursor.pieces_blanks hd hmargin, Nat.zero_add, htagged, ← Pieces.behind_behind]
  exact congrArg (fun ps : Pieces => (ps.behind _).behind _) hshift

theorem values_shift {ps : List Piece} (h : WriteValues ps) (k : Nat) :
    WriteValues (ps.map (Piece.shift k)) := by
  intro t ht
  rw [tagsOf_shift] at ht
  obtain ⟨u, hu, rfl⟩ := List.mem_map.1 ht
  exact h u hu

theorem all_isInvisible_shift (k : Nat) (ps : List Piece) :
    (ps.map (Piece.shift k)).all Piece.isInvisible = ps.all Piece.isInvisible := by
  rw [List.all_map]
  exact congrArg _ (funext (Piece.shift_isInvisible k))

/-- The pieces of a text on one line end no line. -/
theorem Cut.inLine {pos : Nat} {cs : List Char} {ps : List Piece} (h : Cut d pos cs ps)
    (hline : '\n' ∉ cs) : ∀ p ∈ ps, p.endsLine = false := by
  rintro (⟨c, start⟩ | t) hp
  · exact decide_eq_false fun hc => hline (hc ▸ h.char_mem hp)
  · rfl

theorem charPieces_inLine {cs : List Char} (hline : '\n' ∉ cs) (pos : Nat) :
    ∀ p ∈ charPieces pos cs, p.endsLine = false := by
  induction cs generalizing pos with
  | nil => exact fun _ hp => nomatch hp
  | cons c cs ih =>
    obtain ⟨hc, hcs⟩ := List.ne_and_not_mem_of_not_mem_cons hline
    exact List.forall_mem_cons.2 ⟨decide_eq_false (Ne.symm hc), ih hcs _⟩

/-- Pieces without a line feed are laid out as one line. -/
theorem layout_line {line : List Piece} (hne : line ≠ []) (h : ∀ p ∈ line, p.endsLine = false) :
    layout line = joinTexts (keptParts line) := by
  rw [layout, pieceLines_line hne fun p hp => h p (List.dropLast_subset _ hp),
    List.flatMap_singleton]

/-- The tree of a line with an inclusion behind white space and values behind it: the inclusion
alone if nothing follows but white space, and otherwise the white space too. -/
theorem parse_inclusionLine (hd : d.BlankFree) (hmargin : Blanks margin) (hline : '\n' ∉ margin)
    (htag : Lexeme d .inclusion key.toList tag) (hrest : OnlyValues d rest)
    (hone : '\n' ∉ rest.toList) :
    ∃ parts, parse d (inclusionLine margin tag rest.toList) = .ok (leaves (joinTexts parts)) ∧
      leaves parts =
        if rest.toList.all isBlank then [inclusionNode margin tag key]
        else (charPieces 0 margin).filterMap Piece.leaf? ++ inclusionNode margin tag key ::
          ((Pieces.ofText d rest).list.map
            (Piece.shift (byteLength margin + byteLength tag))).filterMap Piece.leaf? := by
  obtain ⟨stop, hend⟩ := hrest.finished
  have hcut := cut_ofText hd hend
  have hpieces := pieces_inclusionLine hd hmargin htag rest
  have hvalues := values_shift hrest.values (byteLength margin + byteLength tag)
  have hlist := congrArg Pieces.list hpieces
  rw [Pieces.behind_list, List.append_assoc, List.singleton_append, Pieces.shift] at hlist
  have hparse : parse d (inclusionLine margin tag rest.toList) =
      .ok (leaves (layout (Pieces.ofText d (inclusionLine margin tag rest.toList)).list)) := by
    refine parse_leaves ⟨byteLength margin + byteLength tag + stop, ?_⟩ ?_
    · rw [hpieces, Pieces.behind_ending, Pieces.shift, hend, Ending.shift]
    · rw [hlist, tagsOf_append, tagsOf_charPieces, List.nil_append, tagsOf_tag]
      refine List.forall_mem_cons.2 ⟨?_, fun t ht => Tag.flat_of_interpolates (hvalues t ht)⟩
      simp [Tag.Opens, Tag.Closes]
  -- all of it is one line
  have hinLine : ∀ p ∈ (Pieces.ofText d (inclusionLine margin tag rest.toList)).list,
      p.endsLine = false := by
    rw [hlist]
    refine List.forall_mem_append.2
      ⟨charPieces_inLine hline 0, List.forall_mem_cons.2 ⟨rfl, fun p hp => ?_⟩⟩
    obtain ⟨q, hq, rfl⟩ := List.mem_map.1 hp
    rw [Piece.shift_endsLine, hcut.inLine hone q hq]
  rw [layout_line (by simp [hlist]) hinLine, hlist] at hparse
  refine ⟨_, hparse, ?_⟩
  rw [leaves_inclusion hmargin rfl hvalues, all_isInvisible_shift,
    hcut.all_isInvisible hd hrest.values]
  rfl

end

end TagTemplate
