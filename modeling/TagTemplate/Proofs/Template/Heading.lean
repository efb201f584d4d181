import TagTemplate.Proofs.Template.Append

/-!
# Delimiters set in the first line

Delimiters can be chosen in advance, or by a first line that holds nothing but a tag with the two.
Main statement: `parse_heading`, either way the rest of the template is read in the same way.
-/

namespace TagTemplate

/-! ## A pair of words -/

/-- A word ends where white space or nothing follows. -/
theorem words_solid_append {w rest : List Char} (hw : Solid w)
    (hrest : ∀ c ∈ rest.head?, isBlank c = true) : words (w ++ rest) = w :: words rest := by
  obtain ⟨hne, hsolid⟩ := hw
  induction w with
  | nil => exact absurd rfl hne
  | cons c w ih =>
    obtain ⟨hc, hw⟩ := List.forall_mem_cons.1 hsolid
    have hnot : ¬isBlank c = true := by simp [hc]
    cases w with
    | nil =>
      have hends : (rest.head?.map isBlank).getD true = true := by
        cases rest with
        | nil => rfl
        | cons x rest => exact hrest x rfl
      rw [List.singleton_append, words, if_neg hnot, if_pos hends]
    | cons c' w =>
      have hgoes : ¬(((c' :: w ++ rest).head?.map isBlank).getD true = true) := by
        show ¬isBlank c' = true
        simp [hw c' List.mem_cons_self]
      rw [List.cons_append, words, if_neg hnot, if_neg hgoes, ih (List.cons_ne_nil c' w) hw]

theorem words_pair {a b : List Char} (ha : Solid a) (hb : Solid b) :
    words (a ++ ' ' :: b) = [a, b] := by
  have hblank : words (' ' :: b) = words b := rfl
  have hlast : words (b ++ []) = b :: words [] := words_solid_append hb fun _ h => nomatch h
  rw [List.append_nil] at hlast
  rw [words_solid_append ha (by rintro c ⟨⟩; rfl), hblank, hlast]
  rfl

namespace Delimiters

theorem display_toList (d : Delimiters) :
    d.display.toList = d.opening.toList ++ ' ' :: d.closing.toList := by
  rw [display, String.toList_append, String.toList_append, List.append_assoc]
  rfl

/-- Delimiters written as two words are read back. -/
theorem ofText?_display {d : Delimiters} (hd : d.BlankFree) : ofText? d.display = .ok d := by
  rw [ofText?_eq_ok_iff, display_toList, words_pair hd.opening_solid hd.closing_solid]

/-! ## The first line -/

/-- A tag under the delimiters `d` that puts `d'` in force. -/
def setting (d d' : Delimiters) : String :=
  d.opening ++ "=" ++ d'.opening ++ " " ++ d'.closing ++ "=" ++ d.closing

/-- The line with this tag alone. -/
def heading (d d' : Delimiters) : String := d.setting d' ++ "\n"

/-- Neither delimiter holds the sign that a tag with delimiters has around them. -/
def EqualsFree (d : Delimiters) : Prop := '=' ∉ d.opening.toList ∧ '=' ∉ d.closing.toList

instance (d : Delimiters) : Decidable d.EqualsFree := inferInstanceAs (Decidable (_ ∧ _))

section

variable {d d' : Delimiters}

theorem setting_toList (d d' : Delimiters) : (d.setting d').toList =
    d.opening.toList ++ ([] ++ (['='] ++ ([] ++
      (d'.display.toList ++ ([] ++ '=' :: ([] ++ ([] ++ d.closing.toList))))))) := by
  simp [setting, display_toList, String.toList_append]

/-- No equals sign is found in two words that have none. -/
theorem EqualsFree.unmatched (hd : d.BlankFree) (h : d.EqualsFree) :
    Unmatched ['='] d.display.toList ([] ++ ['=']) := by
  intro front rest hsplit hne hprefix
  -- the last character of the two words is not blank, so white space ends before the sign
  have hsolid : d.closing.toList <:+ d.display.toList := by
    rw [display_toList]
    exact (List.suffix_cons ' ' _).trans (List.suffix_append _ _)
  obtain ⟨last, hlast⟩ : ∃ last, rest.getLast? = some last :=
    ⟨_, List.getLast?_eq_some_getLast hne⟩
  have hunblank : isBlank last = false := by
    refine hd.2 last (List.mem_of_getLast? ?_)
    obtain ⟨before, hbefore⟩ := hsolid
    have hwhole := congrArg List.getLast? (hbefore.trans hsplit)
    rw [List.getLast?_append_of_ne_nil _ d.closing_toList_ne,
      List.getLast?_append_of_ne_nil _ hne] at hwhole
    rw [hwhole, hlast]
  have hdrop : rest.dropWhile isBlank ≠ [] := by
    intro hnil
    have hblank := List.dropWhile_eq_nil_iff.1 hnil last (List.mem_of_getLast? hlast)
    rw [hunblank] at hblank
    cases hblank
  rw [List.nil_append, List.dropWhile_append, if_neg (by simpa using hdrop)] at hprefix
  obtain ⟨c, cs, hcs⟩ := List.exists_cons_of_ne_nil hdrop
  rw [hcs, List.cons_append, List.cons_prefix_cons] at hprefix
  obtain ⟨rfl, -⟩ := hprefix
  have hmem : '=' ∈ d.display.toList := by
    rw [hsplit]
    exact List.mem_append_right _ ((List.dropWhile_sublist _).subset (hcs ▸ List.mem_cons_self))
  rw [display_toList, List.mem_append, List.mem_cons] at hmem
  rcases hmem with hmem | hmem | hmem
  · exact h.1 hmem
  · cases hmem
  · exact h.2 hmem

/-- The tag is a lexeme, whatever the delimiters around it. -/
theorem setting_lexeme (hd' : d'.BlankFree) (hfree : d'.EqualsFree) :
    Lexeme d .delimiters d'.display.toList (d.setting d').toList := by
  have hstart : StartsUnblank (d'.display.toList ++
      ([] ++ '=' :: ([] ++ ([] ++ d.closing.toList)))) := by
    rw [display_toList, List.append_assoc]
    exact startsUnblank_append d'.opening_toList_ne hd'.1 _
  have hnone : Blanks [] := fun _ h => nomatch h
  refine ⟨['='], List.mem_singleton_self _, [], [], _, hnone, hnone, ?_, hstart, ?_,
    .equals hnone hnone (hfree.unmatched hd') ?_, setting_toList d d'⟩
  · intro c hc
    cases hc
    rfl
  · intro hnil
    cases hnil
  · intro front rest hsplit hne
    exact absurd (List.append_eq_nil_iff.1 hsplit.symm).2 hne

end

end Delimiters

section

variable {d d' : Delimiters}

/-- The tag of the first line. -/
def headingTag (d d' : Delimiters) : Tag :=
  ⟨.delimiters, d'.display, 0, byteLength (d.setting d').toList⟩

theorem headingTag_delimitersAfter (hd' : d'.BlankFree) :
    (headingTag d d').delimitersAfter d = .ok d' := by
  rw [Tag.delimitersAfter, headingTag, if_pos rfl, Delimiters.ofText?_display hd']

/-- The first line is the tag and a line feed. -/
theorem pieces_heading (hd : d.BlankFree) (hd' : d'.BlankFree) (hfree : d'.EqualsFree) :
    Pieces.ofText d (d.heading d') =
      ⟨[.tag (headingTag d d'), .char '\n' (headingTag d d').stop],
        .finished ((headingTag d d').stop + 1)⟩ := by
  have hblank : Blanks ['\n'] := List.forall_mem_singleton.2 rfl
  have htag : Tag.delimitersAfter ⟨.delimiters, String.ofList d'.display.toList, 0,
      0 + byteLength (d.setting d').toList⟩ d = .ok d' := by
    rw [String.ofList_toList, Nat.zero_add]
    exact headingTag_delimitersAfter hd'
  have htext : (d.heading d').toList = (d.setting d').toList ++ ['\n'] := by
    rw [Delimiters.heading, String.toList_append]
    rfl
  have hrest (pos : Nat) :
      Cursor.pieces d' ⟨pos, ['\n']⟩ = ⟨[.char '\n' pos], .finished (pos + 1)⟩ := by
    have hline := Cursor.pieces_blanks hd' hblank pos []
    rwa [List.append_nil, Cursor.pieces_atEnd (c := ⟨pos + byteLength ['\n'], []⟩) rfl] at hline
  rw [Pieces.ofText, htext, Cursor.start,
    Cursor.pieces_lexeme hd (Delimiters.setting_lexeme hd' hfree) htag, hrest, String.ofList_toList,
    Nat.zero_add]
  rfl

/-- Nothing is left of the first line but the tag. -/
theorem layout_heading (t : Tag) (ht : t.kind = .delimiters) (pos : Nat) :
    layout [.tag t, .char '\n' pos] = [.tag t (.behind [])] := by
  have hlines : pieceLines [.tag t, .char '\n' pos] = [[.tag t, .char '\n' pos]] := rfl
  have halone : standsAlone [.tag t, .char '\n' pos] = true := by
    simp [standsAlone, Piece.isTag, Piece.isInvisible, ht, TagKind.interpolates]
    rfl
  rw [layout, hlines, List.flatMap_singleton, keptParts, halone]
  rfl

/-- The first line makes no node. -/
theorem parse_heading_alone (hd : d.BlankFree) (hd' : d'.BlankFree) (hfree : d'.EqualsFree) :
    parse d (d.heading d') = .ok [] := by
  have hpieces := pieces_heading hd hd' hfree
  have hflat : ¬(headingTag d d').Opens ∧ ¬(headingTag d d').Closes := by
    constructor
    · rintro (h | h) <;> cases h
    · intro h
      cases h
  refine parse_eq_ok_iff.2 ⟨⟨_, by rw [hpieces]⟩, ?_, ?_⟩
  · rw [hpieces]
    exact .other hflat.1 hflat.2 .nil
  · rw [hpieces, layout_heading _ rfl]
    exact (Forest.silent (.inr rfl) .nil).nest_eq

theorem heading_leaves (hd : d.BlankFree) (hd' : d'.BlankFree) (hfree : d'.EqualsFree) :
    LeavesLine d d' (d.heading d') := by
  constructor
  · rw [Delimiters.heading, String.toList_append]
    exact List.getLast?_concat
  · rw [pieces_heading hd hd' hfree]
    show inForce d [headingTag d d'] = .ok d'
    rw [inForce_cons, headingTag_delimitersAfter hd', ok_bind]
    rfl

/-- The first line is one line. -/
theorem heading_count (hd : d.BlankFree) (hd' : d'.BlankFree) :
    (d.heading d').toList.count '\n' = 1 := by
  have hline {w : List Char} (hw : Solid w) : w.count '\n' = 0 :=
    List.count_eq_zero.2 hw.not_mem_lineFeed
  simp [Delimiters.heading, Delimiters.setting, String.toList_append, List.count_append,
    hline hd.opening_solid, hline hd.closing_solid, hline hd'.opening_solid,
    hline hd'.closing_solid]

/-- Delimiters can be chosen in advance or by a first line that holds nothing but a tag with them:
the tree of the rest is the same, further on, and so is what is wrong with it, one line further
down. -/
theorem parse_heading (hd : d.BlankFree) (hd' : d'.BlankFree) (hfree : d'.EqualsFree)
    (template : String) :
    (∀ nodes, parse d' template = .ok nodes → parse d (d.heading d' ++ template) =
      .ok (nodes.map (Node.shift (byteLength (d.heading d').toList)))) ∧
    (∀ fault, parse d' template = .error fault →
      ∃ fault', parse d (d.heading d' ++ template) = .error fault' ∧
        FaultBehind (d.heading d') template fault fault') ∧
    (d.heading d').toList.count '\n' = 1 := by
  have halone := parse_heading_alone hd hd' hfree
  have hleaves := heading_leaves hd hd' hfree
  refine ⟨fun nodes hnodes => ?_, fun fault hfault => ?_, heading_count hd hd'⟩
  · have hparse := parse_append hd halone hleaves hnodes
    rwa [meetNodes] at hparse
  · exact parse_append_faultBehind hd halone hleaves hfault

end

/-- Delimiters that look like the sign in a tag with delimiters. -/
def equalsSigns : Delimiters := ⟨"=", "=", by decide, by decide⟩

def percentSigns : Delimiters := ⟨"<%", "%>", by decide, by decide⟩

theorem parse_heading_signs :
    equalsSigns.heading percentSigns = "==<% %>==\n" ∧
    parse equalsSigns (equalsSigns.heading percentSigns ++ "=<%a%>") =
      .ok [.text "=" 10 11, .escaped "a" 11 16] ∧
    ∃ fault', parse equalsSigns (equalsSigns.heading percentSigns ++ "\n<%a") = .error fault' ∧
      FaultBehind (equalsSigns.heading percentSigns) "\n<%a"
        (.malformed ⟨.unclosedTag "%>", 4, "\n<%a"⟩) fault' := by
  have hread := @parse_heading equalsSigns percentSigns (by decide) (by decide) (by decide)
  have hnodes : parse percentSigns "=<%a%>" = .ok [.text "=" 0 1, .escaped "a" 1 6] := by
    decide +kernel
  have hfault : parse percentSigns "\n<%a" =
      .error (.malformed ⟨.unclosedTag "%>", 4, "\n<%a"⟩) := by decide +kernel
  exact ⟨by decide +kernel, (hread "=<%a%>").1 _ hnodes, (hread "\n<%a").2.1 _ hfault⟩

end TagTemplate
