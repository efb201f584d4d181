import Mathlib.Data.List.Nodup
import Mathlib.Data.List.Pairwise
import TagTemplate.Proofs.Template.Layout

/-!
# What becomes of the text

A character outside tags is struck out if it is white space on a line on which tags stand alone,
and otherwise it is in the tree, once. Main statement: `parse_conserves_text`.
-/

namespace TagTemplate

def Node.characters : Node → List Piece
  | text words start _ => charPieces start words.toList
  | _ => []

/-- The characters of all texts of a tree, in document order. -/
def textCharacters (nodes : List Node) : List Piece :=
  (Node.flatten.flattenAll nodes).flatMap Node.characters

/-- A line with a tag, with no character outside tags that is not blank, and with no tag that
writes a value. -/
structure TagsAlone (line : List Piece) : Prop where
  tag : ∃ t, .tag t ∈ line
  blank : ∀ c start, .char c start ∈ line → isBlank c = true
  silent : ∀ t, .tag t ∈ line → t.kind ≠ .escaped ∧ t.kind ≠ .unescaped

/-- What becomes of the characters outside tags when a template is read as a tree. -/
structure Conserved (d : Delimiters) (template : String) (nodes : List Node) : Prop where
  /-- The template is tags and characters outside tags. -/
  cut : Cut d 0 template.toList (Pieces.ofText d template).list
  /-- Each of them has a line. -/
  lined : ∀ p ∈ (Pieces.ofText d template).list,
    ∃ line, IsLine (Pieces.ofText d template).list line ∧ p ∈ line
  /-- What is missing is white space on lines on which tags stand alone. -/
  missing : ∀ line, IsLine (Pieces.ofText d template).list line →
    ∀ c start, .char c start ∈ line →
      (.char c start ∉ textCharacters nodes ↔ isBlank c = true ∧ TagsAlone line)
  /-- Every other character is in one text, once. -/
  once : ∀ p ∈ textCharacters nodes, (textCharacters nodes).count p = 1
  /-- The texts hold nothing else, and keep the order. -/
  ordered : (textCharacters nodes).Sublist (Pieces.ofText d template).list
  rising : (Pieces.ofText d template).list.Pairwise fun p q => p.start < q.start
  /-- Each text is a piece of the template, and not empty. -/
  sliced : ∀ text start stop, .text text start stop ∈ Node.flatten.flattenAll nodes →
    text ≠ "" ∧ slice? template.toList start stop = some text.toList

/-! ## Texts of a forest -/

theorem leaf_characters {t : Tag} {m : Margin} {n : Node} (h : t.leaf? m = some n) :
    n.characters = [] := by
  rw [Tag.leaf?] at h
  split at h
  all_goals cases h
  all_goals rfl

theorem blockNode_characters (o : Tag) (children : List Node) (bodyStop : Nat) :
    (o.blockNode children bodyStop).characters = [] := by
  rw [Tag.blockNode]
  split <;> rfl

theorem Forest.textCharacters_eq {ps : List Part} {ns : List Node} (h : Forest ps ns) :
    textCharacters ns = ps.flatMap Part.characters := by
  induction h with
  | nil => rfl
  | text _ ih =>
    rw [textCharacters, flattenAll_text, List.flatMap_cons, List.flatMap_cons, ← ih]
    rfl
  | silent _ _ ih => exact ih
  | leaf hleaf _ ih =>
    rw [textCharacters, flattenAll_leaf hleaf, List.flatMap_cons, leaf_characters hleaf]
    exact ih
  | block _ _ _ _ _ ihinside ihafter =>
    rw [textCharacters, flattenAll_block, List.flatMap_cons, blockNode_characters,
      List.flatMap_append, List.flatMap_cons, List.flatMap_append, List.flatMap_cons, ← ihinside,
      ← ihafter]
    rfl

theorem Forest.text_mem {ps : List Part} {ns : List Node} (h : Forest ps ns) {text : String}
    {start stop : Nat} (hmem : .text text start stop ∈ Node.flatten.flattenAll ns) :
    .text text start stop ∈ ps := by
  generalize hn : Node.text text start stop = n at hmem
  cases h.origin hmem with
  | text hp =>
    cases hn
    exact hp
  | leaf _ hleaf =>
    subst hn
    rw [Tag.leaf?] at hleaf
    split at hleaf <;> cases hleaf
  | block =>
    rw [Tag.blockNode] at hn
    split at hn <;> cases hn

/-! ## Characters kept and characters struck out -/

theorem standsAlone_iff {line : List Piece} : standsAlone line = true ↔ TagsAlone line := by
  rw [standsAlone, Bool.and_eq_true, List.any_eq_true, List.all_eq_true]
  constructor
  · rintro ⟨⟨p, hp, htag⟩, hall⟩
    refine ⟨?_, fun c start hc => hall _ hc, fun t ht => ?_⟩
    · cases p with
      | char => cases htag
      | tag t => exact ⟨t, hp⟩
    · have hsilent : (!t.kind.interpolates) = true := hall _ ht
      constructor
      · intro hkind
        rw [hkind] at hsilent
        cases hsilent
      · intro hkind
        rw [hkind] at hsilent
        cases hsilent
  · rintro ⟨⟨t, ht⟩, hblank, hsilent⟩
    refine ⟨⟨_, ht, rfl⟩, fun p hp => ?_⟩
    cases p with
    | char c start => exact hblank c start hp
    | tag t =>
      obtain ⟨hescaped, hunescaped⟩ := hsilent t hp
      show (!t.kind.interpolates) = true
      cases hkind : t.kind <;> simp_all [TagKind.interpolates]

theorem keptCharacters_sublist (ps : List Piece) :
    ((pieceLines ps).flatMap keptCharacters).Sublist ps := by
  have hlines : ((pieceLines ps).flatMap keptCharacters).Sublist (pieceLines ps).flatten := by
    induction pieceLines ps with
    | nil => exact List.Sublist.refl _
    | cons line lines ih => exact List.filter_sublist.append ih
  rwa [pieceLines_flatten] at hlines

/-- A character is missing among those kept if tags stand alone on its line. -/
theorem keptCharacters_missing {ps line : List Piece} (hps : ps.Nodup)
    (hline : line ∈ pieceLines ps) {c : Char} {start : Nat} (hc : .char c start ∈ line) :
    .char c start ∉ (pieceLines ps).flatMap keptCharacters ↔ standsAlone line = true := by
  rw [← pieceLines_flatten ps, List.nodup_flatten] at hps
  constructor
  · intro h
    by_contra halone
    refine h (List.mem_flatMap.2 ⟨line, hline, List.mem_filter.2 ⟨hc, ?_⟩⟩)
    simpa [Piece.isTag] using halone
  · intro halone h
    obtain ⟨line', hline', hc'⟩ := List.mem_flatMap.1 h
    obtain ⟨hc', hkept⟩ := List.mem_filter.1 hc'
    -- a character stands on one line only
    have hsame : line = line' := by
      by_contra hne
      have : Std.Symm (List.Disjoint (α := Piece)) := ⟨fun _ _ => List.disjoint_symm⟩
      exact hps.2.forall hline hline' hne hc hc'
    rw [← hsame, halone] at hkept
    cases hkept

/-- A template that is read keeps its text, apart from the white space of lines on which tags
stand alone. -/
theorem parse_conserves_text {d : Delimiters} {template : String} {nodes : List Node}
    (hd : d.BlankFree) (h : parse d template = .ok nodes) : Conserved d template nodes := by
  obtain ⟨⟨pos, hend⟩, -⟩ := parse_eq_ok_iff.1 h
  have hcut := cut_ofText hd hend
  have hforest := forest_of_parse h
  generalize hps : (Pieces.ofText d template).list = ps at hcut hforest
  have hplaced : Placed template.toList 0 ps := hcut.placed [] rfl rfl
  -- the tree has the texts of the layout, which has the characters that lines keep
  have hchars : textCharacters nodes = (pieceLines ps).flatMap keptCharacters := by
    rw [hforest.textCharacters_eq, characters_layout hplaced]
  have hsublist := keptCharacters_sublist ps
  rw [← hchars] at hsublist
  refine ⟨hps ▸ hcut, ?_, ?_, ?_, hps ▸ hsublist, hps ▸ hplaced.rising.2, ?_⟩
  · intro p hp
    rw [hps, ← pieceLines_flatten ps] at hp
    obtain ⟨line, hline, hp⟩ := List.mem_flatten.1 hp
    exact ⟨line, hps ▸ mem_pieceLines_iff.1 hline, hp⟩
  · intro line hline c start hc
    rw [hps] at hline
    rw [hchars, keptCharacters_missing hplaced.nodup (mem_pieceLines_iff.2 hline) hc,
      standsAlone_iff]
    exact ⟨fun halone => ⟨halone.blank c start hc, halone⟩, fun h => h.2⟩
  · intro p hp
    exact List.count_eq_one_of_mem (hplaced.nodup.sublist hsublist) hp
  · intro text start stop hmem
    obtain ⟨hne, hstands, rfl⟩ := (laid_layout hplaced).text_mem (hforest.text_mem hmem)
    exact ⟨hne, hstands.slice⟩

/-- An opening tag alone on its line, and a closing tag that is not. -/
theorem parse_conserves_text_block :
    parse .standard "a\n \x7b\x7b#s\x7d\x7d \n b\x7b\x7b/s\x7d\x7d" = .ok
      [.text "a\n" 0 2, .block "s" 3 9 [.text " b" 11 13] 13] ∧
    Conserved .standard "a\n \x7b\x7b#s\x7d\x7d \n b\x7b\x7b/s\x7d\x7d"
      [.text "a\n" 0 2, .block "s" 3 9 [.text " b" 11 13] 13] := by
  have h : parse .standard "a\n \x7b\x7b#s\x7d\x7d \n b\x7b\x7b/s\x7d\x7d" = .ok
      [.text "a\n" 0 2, .block "s" 3 9 [.text " b" 11 13] 13] := by decide +kernel
  exact ⟨h, parse_conserves_text (by decide) h⟩

end TagTemplate
