import TagTemplate.Proofs.Offset
import TagTemplate.Proofs.Template.InForce
import TagTemplate.Proofs.Template.Reading
import Mathlib.Data.Prod.Lex
import Mathlib.Order.Bounds.Basic

/-!
# Places of problems

A line and a column say where a position is: whoever goes to the line, and from its start as many
characters on as the column says, stands there (`lineColumn_leadsTo`). So places are in the order of
the positions (`place_strictMonoOn`). Positions inside a character and behind the end are counted as
the boundary before them (`floor_isGreatest`); the problems of a template are at boundaries
(`parse_error_boundary`). Main statement: `place_locates`.
-/

namespace TagTemplate

/-! ## Boundaries -/

/-- The last boundary that is not behind a position. -/
def floorByte (source : List Char) (pos : Nat) : Nat := byteLength (beforeByte source pos)

theorem beforeByte_zero (cs : List Char) : beforeByte cs 0 = [] := by
  cases cs with
  | nil => rfl
  | cons c cs =>
    have hpos := c.utf8Size_pos
    unfold beforeByte
    exact if_neg (by omega)

theorem floorByte_le (source : List Char) (pos : Nat) : floorByte source pos ≤ pos := by
  unfold floorByte
  induction source generalizing pos with
  | nil => exact Nat.zero_le pos
  | cons c cs ih =>
    unfold beforeByte
    split
    · next hle =>
      have hrest := ih (pos - c.utf8Size)
      rw [byteLength_cons]
      omega
    · exact Nat.zero_le pos

theorem floorByte_boundary (source : List Char) (pos : Nat) :
    Boundary source (floorByte source pos) := by
  obtain ⟨after, hsource⟩ := prefix_beforeByte source pos
  exact ⟨beforeByte source pos, after, hsource.symm, rfl⟩

/-- A position at a boundary has before it what the boundary has. -/
theorem beforeByte_boundary (before after : List Char) :
    beforeByte (before ++ after) (byteLength before) = before := by
  have happend := beforeByte_append before after 0
  rwa [Nat.add_zero, beforeByte_zero, List.append_nil] at happend

theorem floor_isGreatest (source : List Char) (pos : Nat) :
    IsGreatest {b | Boundary source b ∧ b ≤ min pos (byteLength source)} (floorByte source pos) := by
  have hboundary := floorByte_boundary source pos
  refine ⟨⟨hboundary, Nat.le_min.2 ⟨floorByte_le source pos, hboundary.le⟩⟩, ?_⟩
  rintro b ⟨⟨before, after, rfl, rfl⟩, hle⟩
  obtain ⟨more, rfl⟩ := Nat.exists_eq_add_of_le (Nat.le_min.1 hle).1
  unfold floorByte
  rw [beforeByte_append, byteLength_append]
  exact Nat.le_add_right ..

/-! ## Lines and columns -/

/-- Nothing, or whole lines. -/
def WholeLines (cs : List Char) : Prop := cs = [] ∨ cs.getLast? = some '\n'

/-- A place leads to a position of a source: behind the line feeds of all lines before, or from the
start, as many characters on as the column says, all on one line. -/
def LineColumn.LeadsTo (place : LineColumn) (source : List Char) (pos : Nat) : Prop :=
  ∃ lines characters after, source = lines ++ characters ++ after ∧
    WholeLines lines ∧ lines.count '\n' = place.line - 1 ∧
    '\n' ∉ characters ∧ characters.length = place.column - 1 ∧
    pos = byteLength (lines ++ characters)

/-- Every text is whole lines and then characters of one line. -/
theorem exists_wholeLines (cs : List Char) :
    ∃ lines characters, cs = lines ++ characters ∧ WholeLines lines ∧ '\n' ∉ characters := by
  induction cs using List.reverseRecOn with
  | nil => exact ⟨[], [], rfl, .inl rfl, List.not_mem_nil⟩
  | append_singleton cs c ih =>
    by_cases hc : c = '\n'
    · subst hc
      exact ⟨cs ++ ['\n'], [], (List.append_nil _).symm, .inr List.getLast?_concat,
        List.not_mem_nil⟩
    · obtain ⟨lines, characters, rfl, hlines, hline⟩ := ih
      refine ⟨lines, characters ++ [c], List.append_assoc .., hlines, ?_⟩
      rw [List.mem_append, List.mem_singleton]
      exact not_or.2 ⟨hline, Ne.symm hc⟩

/-- The place behind whole lines and characters of one line. -/
theorem lineColumn_eq {lines characters : List Char} (hlines : WholeLines lines)
    (hline : '\n' ∉ characters) {source : List Char} {pos : Nat}
    (hbefore : beforeByte source pos = lines ++ characters) :
    lineColumn source pos = ⟨lines.count '\n' + 1, characters.length + 1⟩ := by
  have hfree : ∀ c ∈ characters.reverse, decide (c ≠ '\n') = true := by
    intro c hc
    exact decide_eq_true fun heq => hline (heq ▸ List.mem_reverse.1 hc)
  have hcount : characters.count '\n' = 0 := List.count_eq_zero.2 hline
  have hcolumn : (lines ++ characters).reverse.takeWhile (fun c => decide (c ≠ '\n')) =
      characters.reverse := by
    rw [List.reverse_append, List.takeWhile_append_of_pos hfree]
    rcases hlines with rfl | hlast
    · rw [List.reverse_nil, List.takeWhile_nil, List.append_nil]
    · obtain ⟨front, rfl⟩ := List.getLast?_eq_some_iff.1 hlast
      rw [List.reverse_append, List.reverse_singleton, List.singleton_append,
        List.takeWhile_cons_of_neg (by decide), List.append_nil]
  unfold lineColumn
  rw [hbefore]
  dsimp only
  rw [hcolumn, List.count_append, hcount, List.length_reverse, Nat.add_zero]

/-- The place of a position leads to the last boundary that is not behind the position. -/
theorem lineColumn_leadsTo (source : List Char) (pos : Nat) :
    (lineColumn source pos).LeadsTo source (floorByte source pos) := by
  obtain ⟨after, hsource⟩ := prefix_beforeByte source pos
  obtain ⟨lines, characters, hbefore, hlines, hline⟩ := exists_wholeLines (beforeByte source pos)
  rw [lineColumn_eq hlines hline hbefore]
  refine ⟨lines, characters, after, ?_, hlines, rfl, hline, rfl, ?_⟩
  · rw [← hbefore, hsource]
  · rw [floorByte, hbefore]

/-- Whole lines that go on have one more line feed, their last character. -/
theorem WholeLines.eq_nil_of_count {lines more : List Char} (h : WholeLines (lines ++ more))
    (hcount : (lines ++ more).count '\n' = lines.count '\n') : more = [] := by
  induction more using List.reverseRecOn with
  | nil => rfl
  | append_singleton more last =>
    rw [← List.append_assoc] at h hcount
    rcases h with hnil | hlast
    · simp at hnil
    · rw [List.getLast?_concat] at hlast
      rw [Option.some.inj hlast, List.count_append, List.count_append,
        List.count_singleton_self] at hcount
      omega

/-- A place leads nowhere else. -/
theorem LineColumn.LeadsTo.unique {place : LineColumn} {source : List Char} {pos pos' : Nat}
    (h : place.LeadsTo source pos) (h' : place.LeadsTo source pos') : pos = pos' := by
  obtain ⟨lines, characters, after, hsource, hlines, hcount, -, hlength, rfl⟩ := h
  obtain ⟨lines', characters', after', hsource', hlines', hcount', -, hlength', rfl⟩ := h'
  have hcounts : lines.count '\n' = lines'.count '\n' := hcount.trans hcount'.symm
  have hsplit := hsource.symm.trans hsource'
  rw [List.append_assoc, List.append_assoc] at hsplit
  have hsame : lines = lines' := by
    rcases List.append_eq_append_iff.1 hsplit with ⟨more, rfl, -⟩ | ⟨more, rfl, -⟩
    · rw [hlines'.eq_nil_of_count hcounts.symm, List.append_nil]
    · rw [hlines.eq_nil_of_count hcounts, List.append_nil]
  subst hsame
  have hrest := List.append_cancel_left hsplit
  rw [(List.append_inj hrest (hlength.trans hlength'.symm)).1]

/-- A place as a pair, to be compared by its line first. -/
def LineColumn.key (place : LineColumn) : ℕ ×ₗ ℕ := toLex (place.line, place.column)

/-- Of two boundaries the later one has the later place. -/
theorem place_strictMonoOn (source : List Char) :
    StrictMonoOn (fun b => (lineColumn source b).key) {b | Boundary source b} := by
  rintro _ ⟨before, after, hsource, rfl⟩ _ ⟨before', after', hsource', rfl⟩ hlt
  obtain ⟨more, rfl, hmore⟩ : ∃ more, before' = before ++ more ∧ more ≠ [] := by
    rcases List.append_eq_append_iff.1 (hsource.symm.trans hsource') with
      ⟨more, rfl, -⟩ | ⟨more, rfl, -⟩
    · refine ⟨more, rfl, ?_⟩
      rintro rfl
      rw [List.append_nil] at hlt
      exact absurd hlt (Nat.lt_irrefl _)
    · rw [byteLength_append] at hlt
      omega
  have hbefore : beforeByte source (byteLength before) = before := by
    rw [hsource, beforeByte_boundary]
  have hbefore' : beforeByte source (byteLength (before ++ more)) = before ++ more := by
    rw [hsource', beforeByte_boundary]
  show toLex _ < toLex _
  rw [Prod.Lex.toLex_lt_toLex]
  by_cases hfeed : '\n' ∈ more
  · -- a line feed between the two, so the later one is on a later line
    have hcount : 0 < more.count '\n' := List.count_pos_iff.2 hfeed
    left
    show (beforeByte source _).count '\n' + 1 < (beforeByte source _).count '\n' + 1
    rw [hbefore, hbefore', List.count_append]
    omega
  · obtain ⟨lines, characters, rfl, hlines, hline⟩ := exists_wholeLines before
    have hlonger : '\n' ∉ characters ++ more := by
      rw [List.mem_append]
      exact not_or.2 ⟨hline, hfeed⟩
    have hlength := List.length_pos_iff.2 hmore
    rw [List.append_assoc] at hbefore'
    rw [lineColumn_eq hlines hline hbefore, List.append_assoc,
      lineColumn_eq hlines hlonger hbefore', List.length_append]
    right
    refine ⟨rfl, ?_⟩
    show characters.length + 1 < characters.length + more.length + 1
    omega

/-! ## Positions of problems -/

/-- The cursor stands in a source: what is left to read is what the source has from its position
on. -/
def Cursor.Within (source : List Char) (c : Cursor) : Prop :=
  ∃ before, source = before ++ c.rest ∧ byteLength before = c.pos

namespace Cursor

variable {source : List Char} {c : Cursor}

theorem Within.boundary (h : c.Within source) : Boundary source c.pos := by
  obtain ⟨before, hsource, hpos⟩ := h
  exact ⟨before, c.rest, hsource, hpos⟩

theorem Within.advance (h : c.Within source) (n : Nat) : (c.advance n).2.Within source := by
  obtain ⟨before, hsource, hpos⟩ := h
  refine ⟨before ++ (c.advance n).1, ?_, ?_⟩
  · rw [List.append_assoc, advance_rest, hsource]
  · rw [byteLength_append, hpos, advance_pos]

theorem Within.scan (h : c.Within source) (p : Pattern) : (c.scan p).2.Within source :=
  h.advance _

theorem Within.scanUntil (h : c.Within source) (p : Pattern) : (c.scanUntil p).2.Within source :=
  h.advance _

theorem Within.readKey (h : c.Within source) (d : Delimiters) (sigil : List Char) :
    (c.readKey d sigil).2.Within source := by
  unfold Cursor.readKey
  split
  · exact ((h.scanUntil _).scan _).scanUntil _
  · exact ((h.scanUntil _).scan _).scanUntil _
  · exact h.scanUntil _

/-- A tag starts where the cursor stands, and the cursor behind it stands in the source too. -/
theorem Within.readTag (h : c.Within source) {d : Delimiters} {t : Tag} {next : Cursor}
    (htag : c.readTag d = .ok (t, next)) : t.start = c.pos ∧ next.Within source := by
  unfold Cursor.readTag at htag
  dsimp only at htag
  split at htag
  · cases htag
  · cases htag
    exact ⟨rfl, ((((h.scan _).scan _).scan _).readKey d _).scan _⟩

/-- All tags that are found start at a boundary. -/
theorem Within.tag_boundary (h : c.Within source) (d : Delimiters) :
    ∀ t ∈ tagsOf (c.pieces d).list, Boundary source t.start := by
  induction d, c using pieces_induction with
  | atEnd d c hend =>
    rw [pieces_atEnd hend]
    exact fun t ht => nomatch ht
  | char d pos x xs hnone ih =>
    obtain ⟨before, hsource, hpos⟩ := h
    rw [pieces_char hnone]
    refine ih ⟨before ++ [x], ?_, ?_⟩
    · rw [hsource, List.append_assoc]
      rfl
    · rw [byteLength_append, hpos]
      rfl
  | unclosed d c pos hopen htag =>
    rw [pieces_unclosed hopen htag]
    exact fun t ht => nomatch ht
  | refused d c t next fault hopen htag hafter =>
    rw [pieces_tag hopen htag, hafter]
    intro t' ht'
    rw [List.mem_singleton.1 ht', (h.readTag htag).1]
    exact h.boundary
  | tag d d' c t next hopen htag hafter ih =>
    obtain ⟨hstart, hnext⟩ := h.readTag htag
    rw [pieces_tag hopen htag, hafter]
    refine List.forall_mem_cons.2 ⟨?_, ih hnext⟩
    rw [hstart]
    exact h.boundary

end Cursor

/-- What is wrong with a template is wrong at a boundary of it: where a tag starts, or at the
end. -/
theorem parse_error_boundary {d : Delimiters} {template : String} {f : SyntaxFault}
    (h : parse d template = .error (.malformed f)) :
    f.source = template ∧ Boundary template.toList f.pos := by
  have hstart : (Cursor.start template.toList).Within template.toList := ⟨[], rfl, rfl⟩
  have hend : Boundary template.toList (Cursor.start template.toList).stop :=
    ⟨template.toList, [], (List.append_nil _).symm, (Nat.zero_add _).symm⟩
  rcases parse_eq_error_iff.1 h with ⟨before, t, after, openers, htags, -, hfault⟩ |
    ⟨openers, -, hfault⟩
  · have ht : Boundary template.toList t.start :=
      hstart.tag_boundary d t (htags ▸ List.mem_append_right before List.mem_cons_self)
    rcases (Tag.keysAfter_eq_error_iff.1 hfault).2 with ⟨-, heq⟩ | ⟨key, outer, -, -, heq⟩
    · cases heq
      exact ⟨rfl, ht⟩
    · cases heq
      exact ⟨rfl, ht⟩
  · have hwell := Cursor.pieces_ending d (Cursor.start template.toList)
    unfold Pieces.EndsWell at hwell
    unfold Pieces.ofText at hfault
    cases hending : ((Cursor.start template.toList).pieces d).ending with
    | finished pos =>
      rw [hending] at hwell hfault
      obtain ⟨o, outer, -, heq⟩ := hfault
      cases heq
      exact ⟨rfl, hwell.1 ▸ hend⟩
    | unclosed closing pos =>
      rw [hending] at hwell hfault
      cases hfault
      exact ⟨rfl, hwell.1 ▸ hend⟩
    | refused fault =>
      rw [hending] at hwell hfault
      obtain ⟨front, t, -, -, -, rfl⟩ := hwell
      cases hfault

/-- The place that is shown for a position leads to the position, or to the last boundary before it,
if it is inside a character or behind the end, and leads nowhere else. So the places of boundaries
are in their order, and the problems of a template are at boundaries. -/
theorem place_locates (source : String) (pos : Nat) (problem : SyntaxProblem) :
    (∃ q, IsGreatest {b | Boundary source.toList b ∧ b ≤ min pos (byteLength source.toList)} q ∧
      ∀ p, (SyntaxFault.place ⟨problem, pos, source⟩).LeadsTo source.toList p ↔ p = q) ∧
    StrictMonoOn (fun b => (SyntaxFault.place ⟨problem, b, source⟩).key)
      {b | Boundary source.toList b} ∧
    ∀ d f, parse d source = .error (.malformed f) →
      f.source = source ∧ Boundary source.toList f.pos := by
  have hleads := lineColumn_leadsTo source.toList pos
  refine ⟨⟨floorByte source.toList pos, floor_isGreatest .., fun p => ⟨?_, ?_⟩⟩,
    place_strictMonoOn source.toList, fun d f => parse_error_boundary⟩
  · exact fun h => h.unique hleads
  · rintro rfl
    exact hleads

/-- A character of two bytes, a line feed and a block that stays open. -/
def openBlockLine : String := "é\n\x7b\x7b#a\x7d\x7d"

theorem place_locates_openBlockLine :
    (SyntaxFault.place ⟨.custom "", 1, openBlockLine⟩).LeadsTo openBlockLine.toList 0 ∧
    (SyntaxFault.place ⟨.custom "", 0, openBlockLine⟩).key <
      (SyntaxFault.place ⟨.custom "", 2, openBlockLine⟩).key ∧
    ∃ f, parse .standard openBlockLine = .error (.malformed f) ∧ f.pos = 9 ∧
      f.place = ⟨2, 7⟩ ∧ Boundary openBlockLine.toList f.pos := by
  obtain ⟨⟨q, hgreatest, hleads⟩, hmono, hfault⟩ := place_locates openBlockLine 1 (.custom "")
  have hq : q = 0 := hgreatest.unique (floor_isGreatest openBlockLine.toList 1)
  have hparse : parse .standard openBlockLine =
      .error (.malformed ⟨.unclosedBlock "a", 9, openBlockLine⟩) := by decide +kernel
  refine ⟨(hleads 0).2 hq.symm, hmono ⟨[], _, rfl, rfl⟩ ⟨['é'], _, rfl, rfl⟩ (by decide), _, hparse,
    rfl, ?_, (hfault _ _ hparse).2⟩
  decide +kernel

end TagTemplate
