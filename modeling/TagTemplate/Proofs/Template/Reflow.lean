import TagTemplate.Proofs.Template.Forest
import TagTemplate.Proofs.Template.InForce
import TagTemplate.Proofs.Template.Unclosed

/-!
# Reading a template that is moved to the right

Main statements: `Cursor.pieces_moved`, the tags of a template that is moved are its tags, moved,
and end as they did; `parse_indent`, a template that can be read can be read after it was moved, and
it includes the same texts, if their names are on one line. By `includedNames_of_parse` the names
that a tree includes are those of the tags of the template.
-/

namespace TagTemplate

/-! ## Names of inclusions -/

def Node.includedName? : Node → Option String
  | .inclusion key .. => some key
  | _ => none

/-- The names of the inclusions among some nodes and the nodes inside them, in order. -/
def includedNames (ns : List Node) : List String :=
  (Node.flatten.flattenAll ns).filterMap Node.includedName?

def Tag.includedName? (t : Tag) : Option String := if t.kind = .inclusion then some t.key else none

theorem Tag.includedName?_leaf {t : Tag} {m : Margin} {n : Node} (h : t.leaf? m = some n) :
    n.includedName? = t.includedName? := by
  rw [Tag.leaf?] at h
  rw [Tag.includedName?]
  split at h
  all_goals cases h
  all_goals simp_all [Node.includedName?]

theorem Tag.includedName?_blockNode (o : Tag) (children : List Node) (bodyStop : Nat) :
    (o.blockNode children bodyStop).includedName? = none := by
  rw [Tag.blockNode]
  split <;> rfl

theorem Tag.includedName?_eq_none {t : Tag} (h : t.kind ≠ .inclusion) : t.includedName? = none :=
  if_neg h

theorem Tag.Opens.not_inclusion {t : Tag} (h : t.Opens) : t.kind ≠ .inclusion := by
  rcases h with h | h <;> rw [h] <;> decide

theorem Tag.Silent.not_inclusion {t : Tag} (h : t.Silent) : t.kind ≠ .inclusion := by
  rcases h with h | h <;> rw [h] <;> decide

theorem Tag.Closes.not_inclusion {t : Tag} (h : t.Closes) : t.kind ≠ .inclusion := by
  rw [show t.kind = .blockEnd from h]
  decide

/-- The names that a forest includes are those of the tags of its parts. -/
theorem Forest.includedNames_eq {ps : List Part} {ns : List Node} (h : Forest ps ns) :
    includedNames ns = (partTags ps).filterMap Tag.includedName? := by
  induction h with
  | nil => rfl
  | text _ ih => exact ih
  | silent ht _ ih =>
    rw [partTags_tag, List.filterMap_cons_none (Tag.includedName?_eq_none ht.not_inclusion), ih]
  | leaf hleaf _ ih =>
    rw [includedNames, flattenAll_leaf hleaf, partTags_tag, List.filterMap_cons,
      List.filterMap_cons, Tag.includedName?_leaf hleaf, ← ih]
    rfl
  | @block o e m m' inside after children ns ho he hkey _ _ ihinside ihafter =>
    rw [includedNames, flattenAll_block,
      List.filterMap_cons_none (Tag.includedName?_blockNode o children e.start),
      List.filterMap_append, partTags_tag, partTags_append, partTags_tag,
      List.filterMap_cons_none (Tag.includedName?_eq_none ho.not_inclusion),
      List.filterMap_append,
      List.filterMap_cons_none (Tag.includedName?_eq_none he.not_inclusion), ← ihinside, ← ihafter]
    rfl

/-- Tags that say the same, but for a change of all keys, include the same names, changed. -/
theorem includedNames_of_labels {f : String → String} {ts us : List Tag}
    (h : us.map Tag.label = ts.map fun t => (t.kind, f t.key)) :
    us.filterMap Tag.includedName? = (ts.filterMap Tag.includedName?).map f := by
  induction ts generalizing us with
  | nil => rw [List.map_eq_nil_iff.1 h]; rfl
  | cons t ts ih =>
    obtain ⟨u, us, rfl, hu, hus⟩ := List.map_eq_cons_iff.1 h
    have hname : u.includedName? = t.includedName?.map f := by
      rw [Tag.includedName?, Tag.includedName?, show u.kind = t.kind from congrArg Prod.fst hu,
        show u.key = f t.key from congrArg Prod.snd hu]
      split <;> rfl
    rw [List.filterMap_cons, List.filterMap_cons, hname, ih hus]
    cases t.includedName? <;> rfl

/-- The names that a tree includes are those of the tags of its template. -/
theorem includedNames_of_parse {d : Delimiters} {template : String} {nodes : List Node}
    (h : parse d template = .ok nodes) : includedNames nodes =
      (tagsOf (Pieces.ofText d template).list).filterMap Tag.includedName? := by
  rw [(forest_of_parse h).includedNames_eq, tagsOf_layout]

/-! ## Tags that are moved -/

section

variable {margin : List Char} {d d' : Delimiters}

/-- How pieces end, and how they end when they are moved. -/
inductive Ending.Moved (margin : List Char) : Ending → Ending → Prop
  | finished {pos pos' : Nat} : Moved margin (.finished pos) (.finished pos')
  | unclosed {closing : String} {pos pos' : Nat} :
      Moved margin (.unclosed closing pos) (.unclosed closing pos')
  | refused {key : String} :
      Moved margin (.refused (.invalid (.delimiterPair key)))
        (.refused (.invalid (.delimiterPair (indentKey margin key))))

/-- Some pieces have the tags of others, with their keys moved, and end in the same way. -/
structure Pieces.Moved (margin : List Char) (old new : Pieces) : Prop where
  ends : old.ending.Moved margin new.ending
  tags : (tagsOf new.list).map Tag.label =
    (tagsOf old.list).map fun t => (t.kind, indentKey margin t.key)

theorem Pieces.Moved.char {old new : Pieces} (h : Moved margin old new) (c : Char) (i j : Nat) :
    Moved margin (old.behind [.char c i]) (new.behind [.char c j]) := ⟨h.ends, h.tags⟩

theorem Pieces.Moved.tag {old new : Pieces} (h : Moved margin old new) {t u : Tag}
    (hkind : u.kind = t.kind) (hkey : u.key = indentKey margin t.key) :
    Moved margin (old.behind [.tag t]) (new.behind [.tag u]) := by
  refine ⟨h.ends, ?_⟩
  have hlabel : u.label = (t.kind, indentKey margin t.key) := by rw [Tag.label, hkind, hkey]
  rw [behind_list, behind_list, List.singleton_append, List.singleton_append, tagsOf_tag,
    tagsOf_tag, List.map_cons, List.map_cons, hlabel, h.tags]

theorem tagsOf_charPieces (start : Nat) (cs : List Char) : tagsOf (charPieces start cs) = [] := by
  induction cs generalizing start with
  | nil => rfl
  | cons c cs ih => exact ih (start + c.utf8Size)

/-- A tag with delimiters that is moved names the same two. -/
theorem Tag.delimitersAfter_moved (hmargin : Blanks margin) {t u : Tag} (hkind : u.kind = t.kind)
    (hkey : u.key = indentKey margin t.key) (h : t.delimitersAfter d = .ok d') :
    u.delimitersAfter d = .ok d' := by
  rw [delimitersAfter] at h ⊢
  rw [hkind]
  split at h
  · next hdelimiters =>
    rw [if_pos hdelimiters, ofText?_eq_ok_iff, hkey, indentKey, String.toList_ofList,
      words_indent hmargin]
    exact ofText?_eq_ok_iff.1 h
  · next hother => rw [if_neg hother, h]

/-- A tag that is moved names two delimiters only if it did. -/
theorem Tag.namesTwo_moved (hmargin : Blanks margin) {t u : Tag} (hkind : u.kind = t.kind)
    (hkey : u.key = indentKey margin t.key) : u.NamesTwo ↔ t.NamesTwo := by
  rw [NamesTwo, NamesTwo, hkind, hkey, indentKey, String.toList_ofList, words_indent hmargin]

/-- A text that is moved starts with white space and is then as if its first line stayed. -/
theorem indent_fresh (hmargin : Blanks margin) (fresh : Bool) (cs : List Char) :
    ∃ blanks, Blanks blanks ∧ indent margin fresh cs = blanks ++ indent margin false cs := by
  have hnone : Blanks [] := fun _ h => nomatch h
  cases cs with
  | nil => exact ⟨[], hnone, rfl⟩
  | cons c cs =>
    by_cases hc : c = '\n'
    · subst hc
      exact ⟨[], hnone, rfl⟩
    · rw [indent_cons hc, indent_cons hc]
      exact ⟨_, blanks_fresh hmargin fresh, rfl⟩

/-- Whether the first line is moved makes no difference to the tags. -/
theorem Pieces.Moved.of_line (hmargin : Blanks margin) (hd : d.BlankFree) {old : Pieces}
    {cs : List Char} (h : ∀ pos, Moved margin old (Cursor.pieces d ⟨pos, indent margin false cs⟩))
    (fresh : Bool) (pos : Nat) :
    Moved margin old (Cursor.pieces d ⟨pos, indent margin fresh cs⟩) := by
  obtain ⟨blanks, hblanks, hindent⟩ := indent_fresh hmargin fresh cs
  obtain ⟨hends, htags⟩ := h (pos + byteLength blanks)
  rw [hindent, Cursor.pieces_blanks hd hblanks]
  refine ⟨hends, ?_⟩
  rw [behind_list, tagsOf_append, tagsOf_charPieces, List.nil_append, htags]

/-- The tags of a text that is moved are its tags, moved, and end as they did. -/
theorem Cursor.pieces_moved (hmargin : Blanks margin) (hd : d.BlankFree) (c : Cursor)
    (fresh : Bool) (pos : Nat) :
    Pieces.Moved margin (c.pieces d) (Cursor.pieces d ⟨pos, indent margin fresh c.rest⟩) := by
  -- the opening delimiter stands in the text that is moved where it stood before
  have hopening {d : Delimiters} (hd : d.BlankFree) (cs : List Char) :
      (d.openingPattern.matchLength? (indent margin false cs)).isSome ↔
        (d.openingPattern.matchLength? cs).isSome := by
    rw [Delimiters.opening_matches_iff, Delimiters.opening_matches_iff,
      prefix_indent_iff hd.opening_solid.not_mem_lineFeed]
  -- so does a tag, and what follows it is moved as it stands there
  have hmoved {d : Delimiters} (hd : d.BlankFree) {c next : Cursor} {t : Tag}
      (hopen : (d.openingPattern.matchLength? c.rest).isSome) (htag : c.readTag d = .ok (t, next))
      (pos : Nat) : ∃ u pos' fresh', readTag d ⟨pos, indent margin false c.rest⟩ =
        .ok (u, ⟨pos', indent margin fresh' next.rest⟩) ∧ u.kind = t.kind ∧
          u.key = indentKey margin t.key := by
    obtain ⟨lexeme, hlexeme, hrest⟩ :=
      lexeme_of_readTag hd (Delimiters.opening_matches_iff.1 hopen) htag
    have hsplit : indent margin false c.rest = indent margin false lexeme ++
        indent margin (freshAfter false lexeme) next.rest := by rw [hrest, indent_append]
    exact ⟨_, _, _, readTag_lexeme hd (hlexeme.moved hmargin hd) hsplit, rfl, rfl⟩
  induction d, c using Cursor.pieces_induction generalizing fresh pos with
  | atEnd d c hnil =>
    rw [pieces_atEnd hnil, hnil, indent_nil, pieces_atEnd rfl]
    exact ⟨.finished, rfl⟩
  | char d start x xs hnone ih =>
    rw [pieces_char hnone]
    refine .of_line hmargin hd (fun pos => ?_) fresh pos
    rw [← Option.not_isSome_iff_eq_none, ← hopening hd, indent_false_cons,
      Option.not_isSome_iff_eq_none] at hnone
    rw [indent_false_cons, pieces_char hnone]
    exact (ih hd (x = '\n') _).char x start pos
  | unclosed d c stop hopen htag =>
    rw [pieces_unclosed hopen htag]
    refine .of_line hmargin hd (fun pos => ?_) fresh pos
    obtain ⟨stop', hread⟩ :=
      readTag_error_moved hmargin hd (Delimiters.opening_matches_iff.1 hopen) htag pos
    rw [pieces_unclosed ((hopening hd _).2 hopen) hread]
    exact ⟨.unclosed, rfl⟩
  | refused d c t next fault hopen htag hafter =>
    rw [pieces_tag hopen htag, hafter]
    refine .of_line hmargin hd (fun pos => ?_) fresh pos
    obtain ⟨u, pos', fresh', hread, hkind, hkey⟩ := hmoved hd hopen htag pos
    obtain ⟨hnot, rfl⟩ := delimitersAfter_eq_error_iff.1 hafter
    have hafter' : u.delimitersAfter d = .error (.invalid (.delimiterPair u.key)) :=
      delimitersAfter_eq_error_iff.2 ⟨mt (Tag.namesTwo_moved hmargin hkind hkey).1 hnot, rfl⟩
    rw [pieces_tag ((hopening hd _).2 hopen) hread, hafter', hkey]
    have hlabel : u.label = (t.kind, indentKey margin t.key) := by rw [Tag.label, hkind, hkey]
    exact ⟨.refused, congrArg (fun label => [label]) hlabel⟩
  | tag d d' c t next hopen htag hafter ih =>
    rw [pieces_tag hopen htag, hafter]
    refine .of_line hmargin hd (fun pos => ?_) fresh pos
    obtain ⟨u, pos', fresh', hread, hkind, hkey⟩ := hmoved hd hopen htag pos
    rw [pieces_tag ((hopening hd _).2 hopen) hread,
      Tag.delimitersAfter_moved hmargin hkind hkey hafter]
    exact (ih (delimitersAfter_blankFree hd hafter) fresh' pos').tag hkind hkey

/-- The pieces of a template that is moved are its pieces, moved. -/
theorem Pieces.ofText_moved (hmargin : Blanks margin) (hd : d.BlankFree) (template : String)
    (fresh : Bool) : Moved margin (ofText d template)
      (ofText d (String.ofList (indent margin fresh template.toList))) := by
  rw [ofText, ofText, String.toList_ofList]
  exact Cursor.pieces_moved hmargin hd (Cursor.start template.toList) fresh 0

/-- A template that is moved to the right can be read if it could be read before, and includes the
same, but for line breaks in names. -/
theorem parse_indent (hmargin : Blanks margin) (hd : d.BlankFree) {template : String}
    {nodes : List Node} (h : parse d template = .ok nodes) (fresh : Bool) :
    ∃ nodes', parse d (String.ofList (indent margin fresh template.toList)) = .ok nodes' ∧
      includedNames nodes' = (includedNames nodes).map (indentKey margin) := by
  obtain ⟨⟨stop, hend⟩, hbalanced, -⟩ := parse_eq_ok_iff.1 h
  obtain ⟨hends, htags⟩ := Pieces.ofText_moved hmargin hd template fresh
  have hend' : ∃ stop', (Pieces.ofText d
      (String.ofList (indent margin fresh template.toList))).ending = .finished stop' := by
    rw [hend] at hends
    generalize Pieces.ending _ = ending at hends
    cases hends
    exact ⟨_, rfl⟩
  have hparse := parse_eq_ok_iff.2 ⟨hend', hbalanced.of_labels htags, rfl⟩
  refine ⟨_, hparse, ?_⟩
  rw [includedNames_of_parse hparse, includedNames_of_parse h]
  exact includedNames_of_labels htags

end

end TagTemplate
