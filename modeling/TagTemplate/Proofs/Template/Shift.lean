import TagTemplate.Proofs.Template.Acceptance

/-!
# Templates further on

A template that starts some bytes further on: each position in it grows by these bytes, and nothing
else changes. Main statements: `Cursor.pieces_shift`, `layout_shift` and `Forest.shift`, for the
pieces of a template, their layout and the nodes.
-/

namespace TagTemplate

/-! ## Positions further on -/

def Tag.shift (k : Nat) (t : Tag) : Tag := { t with start := k + t.start, stop := k + t.stop }

def Cursor.shift (k : Nat) (c : Cursor) : Cursor := { c with pos := k + c.pos }

def Piece.shift (k : Nat) : Piece → Piece
  | char c start => char c (k + start)
  | tag t => tag (t.shift k)

def Ending.shift (k : Nat) : Ending → Ending
  | finished pos => finished (k + pos)
  | unclosed closing pos => unclosed closing (k + pos)
  | refused fault => refused fault

def Pieces.shift (k : Nat) (ps : Pieces) : Pieces :=
  ⟨ps.list.map (Piece.shift k), ps.ending.shift k⟩

def Part.shift (k : Nat) : Part → Part
  | text words start stop => text words (k + start) (k + stop)
  | tag t m => tag (t.shift k) m

namespace Node

def shift (k : Nat) : Node → Node
  | text words start stop => text words (k + start) (k + stop)
  | escaped key start stop => escaped key (k + start) (k + stop)
  | unescaped key start stop => unescaped key (k + start) (k + stop)
  | block key start bodyStart children bodyStop =>
    block key (k + start) (k + bodyStart) (shiftAll k children) (k + bodyStop)
  | inverted key start bodyStart children bodyStop =>
    inverted key (k + start) (k + bodyStart) (shiftAll k children) (k + bodyStop)
  | inclusion key start stop margin => inclusion key (k + start) (k + stop) margin
where
  shiftAll (k : Nat) : List Node → List Node
    | [] => []
    | n :: ns => shift k n :: shiftAll k ns

end Node

theorem shiftAll_eq (k : Nat) (ns : List Node) :
    Node.shift.shiftAll k ns = ns.map (Node.shift k) := by
  induction ns with
  | nil => rfl
  | cons n ns ih => rw [Node.shift.shiftAll, ih, List.map_cons]

mutual

theorem Node.shift_zero (n : Node) : n.shift 0 = n :=
  match n with
  | .text .. | .escaped .. | .unescaped .. | .inclusion .. => by
    simp only [Node.shift, Nat.zero_add]
  | .block key start bodyStart children bodyStop
  | .inverted key start bodyStart children bodyStop => by
    simp only [Node.shift, Nat.zero_add, shiftAll_zero children]

theorem shiftAll_zero (ns : List Node) : Node.shift.shiftAll 0 ns = ns :=
  match ns with
  | [] => rfl
  | n :: ns => by rw [Node.shift.shiftAll, Node.shift_zero n, shiftAll_zero ns]

end

/-! ## Pieces -/

namespace Cursor

variable (k : Nat) (c : Cursor)

theorem advance_shift (n : Nat) :
    (c.shift k).advance n = ((c.advance n).1, (c.advance n).2.shift k) := by
  simp [advance, shift, Nat.add_assoc]

theorem scan_shift (p : Pattern) : (c.shift k).scan p = ((c.scan p).1, (c.scan p).2.shift k) :=
  advance_shift k c _

theorem scanUntil_shift (p : Pattern) :
    (c.shift k).scanUntil p = ((c.scanUntil p).1, (c.scanUntil p).2.shift k) := advance_shift k c _

theorem readKey_shift (d : Delimiters) (sigil : List Char) :
    (c.shift k).readKey d sigil = ((c.readKey d sigil).1, (c.readKey d sigil).2.shift k) := by
  unfold readKey
  split <;> simp only [scanUntil_shift, scan_shift]

theorem readTag_shift (d : Delimiters) : (c.shift k).readTag d = match c.readTag d with
    | .error pos => .error (k + pos)
    | .ok (t, next) => .ok (t.shift k, next.shift k) := by
  simp only [readTag, scan_shift, readKey_shift]
  split <;> rfl

variable {k c}

theorem pieces_shift (d : Delimiters) (c : Cursor) :
    (c.shift k).pieces d = (c.pieces d).shift k := by
  induction d, c using pieces_induction with
  | atEnd d c hend =>
    rw [pieces_atEnd hend, pieces_atEnd (c := c.shift k) hend]
    rfl
  | char d pos x xs hnone ih =>
    have hnext : shift k ⟨pos + x.utf8Size, xs⟩ = ⟨k + pos + x.utf8Size, xs⟩ := by
      simp [shift, Nat.add_assoc]
    rw [hnext] at ih
    rw [pieces_char hnone, shift, pieces_char hnone, ih]
    rfl
  | unclosed d c pos hopen htag =>
    have htag' := readTag_shift k c d
    rw [htag] at htag'
    rw [pieces_unclosed hopen htag, pieces_unclosed (c := c.shift k) hopen htag']
    rfl
  | refused d c t next fault hopen htag hafter =>
    have htag' := readTag_shift k c d
    rw [htag] at htag'
    rw [pieces_tag hopen htag, pieces_tag (c := c.shift k) hopen htag', hafter,
      show (t.shift k).delimitersAfter d = .error fault from hafter]
    rfl
  | tag d d' c t next hopen htag hafter ih =>
    have htag' := readTag_shift k c d
    rw [htag] at htag'
    rw [pieces_tag hopen htag, pieces_tag (c := c.shift k) hopen htag', hafter,
      show (t.shift k).delimitersAfter d = .ok d' from hafter]
    simp only [ih]
    rfl

end Cursor

theorem tagsOf_shift (k : Nat) (ps : List Piece) :
    tagsOf (ps.map (Piece.shift k)) = (tagsOf ps).map (Tag.shift k) := by
  induction ps with
  | nil => rfl
  | cons p ps ih => cases p <;> simp [Piece.shift, ih]

/-! ## Lines -/

section

variable (k : Nat)

theorem Piece.shift_endsLine (p : Piece) : (p.shift k).endsLine = p.endsLine := by cases p <;> rfl

theorem Piece.shift_isTag (p : Piece) : (p.shift k).isTag = p.isTag := by cases p <;> rfl

theorem Piece.shift_isInvisible (p : Piece) : (p.shift k).isInvisible = p.isInvisible := by
  cases p <;> rfl

theorem pieceLines_shift (ps : List Piece) :
    pieceLines (ps.map (Piece.shift k)) = (pieceLines ps).map (List.map (Piece.shift k)) := by
  induction ps with
  | nil => rfl
  | cons p ps ih =>
    rw [List.map_cons, pieceLines, pieceLines, Piece.shift_endsLine, ih]
    split
    · rfl
    · cases pieceLines ps <;> rfl

theorem standsAlone_shift (line : List Piece) :
    standsAlone (line.map (Piece.shift k)) = standsAlone line := by
  simp [standsAlone, Function.comp_def, Piece.shift_isTag, Piece.shift_isInvisible]

/-- A margin counts the pieces before a tag and looks at their characters only. -/
theorem Margin.behind_shift (before : List Piece) :
    Margin.behind (before.map (Piece.shift k)) = Margin.behind before := by
  have hindentation (p : Piece) : (p.shift k).indentation? = p.indentation? := by cases p <;> rfl
  have hword (p : Piece) : (p.shift k).isWord = p.isWord := by cases p <;> rfl
  simp [behind, List.filterMap_map, Function.comp_def, hindentation, hword, Piece.shift_isTag,
    List.countP_map]

theorem lineParts_shift (before line : List Piece) :
    lineParts (before.map (Piece.shift k)) (line.map (Piece.shift k)) =
      (lineParts before line).map (Part.shift k) := by
  induction line generalizing before with
  | nil => rfl
  | cons p line ih =>
    have hpart : (p.shift k).part (before.map (Piece.shift k)) = (p.part before).shift k := by
      cases p with
      | char c start => simp [Piece.shift, Piece.part, Part.shift, Nat.add_assoc]
      | tag t => simp [Piece.shift, Piece.part, Part.shift, Margin.behind_shift]
    rw [List.map_cons, lineParts, hpart, ← List.map_cons, ih, lineParts, List.map_cons]

theorem keptParts_shift (line : List Piece) :
    keptParts (line.map (Piece.shift k)) = (keptParts line).map (Part.shift k) := by
  have hisTag (p : Part) : (p.shift k).isTag = p.isTag := by cases p <;> rfl
  have hparts := lineParts_shift k [] line
  rw [List.map_nil] at hparts
  rw [keptParts, keptParts, hparts, standsAlone_shift, List.filter_map]
  simp only [Function.comp_def, hisTag]

theorem joinTexts_shift (ps : List Part) :
    joinTexts (ps.map (Part.shift k)) = (joinTexts ps).map (Part.shift k) := by
  refine joinTexts_map (fun p ps => ?_) ps
  rcases ps with _ | ⟨_ | _, _⟩ <;> cases p <;> rfl

/-- The layout of a template further on. -/
theorem layout_shift (ps : List Piece) :
    layout (ps.map (Piece.shift k)) = (layout ps).map (Part.shift k) := by
  rw [layout, layout, pieceLines_shift, ← joinTexts_shift, List.flatMap_map, List.map_flatMap]
  simp only [keptParts_shift]

end

/-! ## Nodes -/

theorem Tag.leaf?_shift {t : Tag} {m : Margin} {n : Node} (h : t.leaf? m = some n) (k : Nat) :
    (t.shift k).leaf? m = some (n.shift k) := by
  obtain ⟨kind, key, start, stop⟩ := t
  cases kind <;> cases h <;> rfl

theorem Tag.blockNode_shift (o : Tag) (children : List Node) (bodyStop k : Nat) :
    (o.shift k).blockNode (children.map (Node.shift k)) (k + bodyStop) =
      (o.blockNode children bodyStop).shift k := by
  obtain ⟨kind, key, start, stop⟩ := o
  cases kind <;> simp [blockNode, shift, Node.shift, shiftAll_eq]

/-- The nodes of a template further on. -/
theorem Forest.shift {ps : List Part} {ns : List Node} (h : Forest ps ns) (k : Nat) :
    Forest (ps.map (Part.shift k)) (ns.map (Node.shift k)) := by
  induction h with
  | nil => exact .nil
  | text _ ih => exact .text ih
  | silent ht _ ih => exact .silent (t := Tag.shift k _) ht ih
  | leaf hleaf _ ih => exact .leaf (Tag.leaf?_shift hleaf k) ih
  | @block o e m m' inside after children ns ho he hkey _ _ ihinside ihafter =>
    have hblock : Forest (.tag (o.shift k) m ::
        (inside.map (Part.shift k) ++ .tag (e.shift k) m' :: after.map (Part.shift k)))
        ((o.shift k).blockNode (children.map (Node.shift k)) (k + e.start) ::
          ns.map (Node.shift k)) :=
      .block (e := e.shift k) ho he hkey ihinside ihafter
    rw [Tag.blockNode_shift] at hblock
    simpa [Part.shift] using hblock

end TagTemplate
