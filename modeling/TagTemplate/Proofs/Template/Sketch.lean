import TagTemplate.Proofs.Template.Acceptance
import TagTemplate.Proofs.Template.Firm
import TagTemplate.Proofs.Template.Lexeme

/-!
# Templates that are printed

A sketch is a part of a tree, with the white space that its tags are printed with. Main statement:
`parse_print`, a template that is printed from sketches is read as the nodes that they stand for,
each at the place where it was printed.
-/

namespace TagTemplate

/-! ## Sketches -/

/-- No character of the one text is in the other. -/
def Apart (cs ws : List Char) : Prop := ∀ c ∈ cs, c ∉ ws

instance (cs ws : List Char) : Decidable (Apart cs ws) := List.decidableBAll _ cs

/-- A text that has nothing of an opening delimiter. -/
structure PlainText (d : Delimiters) where
  text : String
  nonempty : text ≠ "" := by decide +kernel
  apart : Apart text.toList d.opening.toList := by decide +kernel

/-- A key that can be told from all that stands around it in a tag. -/
structure PlainKey (d : Delimiters) where
  text : String
  solid : Solid text.toList := by decide +kernel
  apart : Apart text.toList ('}' :: d.closing.toList) := by decide +kernel
  unsigned : Apart (text.toList.take 1) sigils := by decide +kernel

/-- The white space in a tag. -/
structure Spacing where
  behindOpening : List Char := []
  behindSigil : List Char := []
  beforeEnd : List Char := []
  blank : Blanks behindOpening ∧ Blanks behindSigil ∧ Blanks beforeEnd := by decide

/-- The forms of a tag that writes a value. -/
inductive ValueForm where
  | escaped
  | ampersand
  | braces

/-- A part of a tree that is to be printed. -/
inductive Sketch (d : Delimiters) where
  | text (words : PlainText d)
  | value (form : ValueForm) (key : PlainKey d) (spacing : Spacing)
  /-- With the spacing of its opening tag and that of its closing tag. -/
  | block (isInverted : Bool) (key : PlainKey d) (opening : Spacing) (children : List (Sketch d))
    (closing : Spacing)

namespace ValueForm

def sigil : ValueForm → List Char
  | escaped => []
  | ampersand => ['&']
  | braces => ['{']

def kind : ValueForm → TagKind
  | escaped => .escaped
  | ampersand | braces => .unescaped

/-- The node of a tag of this form. -/
def node (form : ValueForm) (key : String) (start stop : Nat) : Node :=
  match form with
  | escaped => .escaped key start stop
  | ampersand | braces => .unescaped key start stop

end ValueForm

def blockSigil (isInverted : Bool) : List Char := if isInverted then ['^'] else ['#']

def blockKind (isInverted : Bool) : TagKind := if isInverted then .inverted else .block

/-! ## Printing -/

section

variable {d : Delimiters}

/-- A tag as it is printed. A key in braces has the second one directly before the closing
delimiter. -/
def printTag (sigil : List Char) (key : PlainKey d) (s : Spacing) : List Char :=
  d.opening.toList ++ (s.behindOpening ++ (sigil ++ (s.behindSigil ++ (key.text.toList ++
    (s.beforeEnd ++ if sigil = ['{'] then '}' :: d.closing.toList else d.closing.toList)))))

/-- A tag that is printed at a position. -/
def printedTag (kind : TagKind) (sigil : List Char) (key : PlainKey d) (s : Spacing) (pos : Nat) :
    Tag :=
  ⟨kind, key.text, pos, pos + byteLength (printTag sigil key s)⟩

mutual

def Sketch.print : Sketch d → List Char
  | .text words => words.text.toList
  | .value form key spacing => printTag form.sigil key spacing
  | .block isInverted key opening children closing =>
    printTag (blockSigil isInverted) key opening ++
      (printAll children ++ printTag ['/'] key closing)

def printAll : List (Sketch d) → List Char
  | [] => []
  | s :: ss => s.print ++ printAll ss

end

mutual

/-- The pieces of a sketch that is printed at a position. -/
def Sketch.pieces (pos : Nat) : Sketch d → List Piece
  | .text words => charPieces pos words.text.toList
  | .value form key spacing => [.tag (printedTag form.kind form.sigil key spacing pos)]
  | .block isInverted key opening children closing =>
    let o := printedTag (blockKind isInverted) (blockSigil isInverted) key opening pos
    .tag o :: (piecesAll o.stop children ++
      [.tag (printedTag .blockEnd ['/'] key closing (o.stop + byteLength (printAll children)))])

def piecesAll (pos : Nat) : List (Sketch d) → List Piece
  | [] => []
  | s :: ss => s.pieces pos ++ piecesAll (pos + byteLength s.print) ss

end

mutual

/-- The node that a sketch stands for if it is printed at a position. -/
def Sketch.node (pos : Nat) : Sketch d → Node
  | .text words => .text words.text pos (pos + byteLength words.text.toList)
  | .value form key spacing =>
    form.node key.text pos (pos + byteLength (printTag form.sigil key spacing))
  | .block isInverted key opening children _ =>
    let inside := pos + byteLength (printTag (blockSigil isInverted) key opening)
    let stop := inside + byteLength (printAll children)
    if isInverted then .inverted key.text pos inside (nodesAll inside children) stop
    else .block key.text pos inside (nodesAll inside children) stop

def nodesAll (pos : Nat) : List (Sketch d) → List Node
  | [] => []
  | s :: ss => s.node pos :: nodesAll (pos + byteLength s.print) ss

end

def Sketch.isText : Sketch d → Bool
  | text _ => true
  | _ => false

mutual

/-- No two texts are neighbours inside the sketch. -/
def Sketch.Spread : Sketch d → Prop
  | .block _ _ _ children _ => SpreadAll children
  | _ => True

def SpreadAll : List (Sketch d) → Prop
  | [] => True
  | s :: ss => s.Spread ∧ (s.isText = true → ∀ t ∈ ss.head?, t.isText = false) ∧ SpreadAll ss

end

/-! ## Printed tags -/

/-- A literal that starts with no character of the key is not found in it. -/
theorem PlainKey.unmatched (key : PlainKey d) {x : Char} (hx : x ∉ key.text.toList)
    (w tail : List Char) : Unmatched (x :: w) key.text.toList tail := by
  intro front rest hsplit hne hstarts
  obtain ⟨c, rest, rfl⟩ := List.exists_cons_of_ne_nil hne
  have hmem : c ∈ key.text.toList := hsplit ▸ List.mem_append_right _ List.mem_cons_self
  have hc : isBlank c = false := key.solid.2 c hmem
  rw [List.cons_append, List.dropWhile_cons_of_neg (by simp [hc]), List.cons_prefix_cons] at hstarts
  exact hx (hstarts.1 ▸ hmem)

/-- What is printed for a tag is a lexeme. -/
theorem printTag_lexeme {kind : TagKind} {sigil : List Char} (hsigil : sigil ∈ kind.sigils)
    (hequals : sigil ≠ ['=']) (key : PlainKey d) (s : Spacing) :
    Lexeme d kind key.text.toList (printTag sigil key s) := by
  obtain ⟨hopening, hbehind, hend⟩ := s.blank
  have hstart (rest : List Char) : StartsUnblank (key.text.toList ++ rest) :=
    startsUnblank_append key.solid.1 key.solid.2 rest
  have htext : KeyText d sigil key.text.toList (key.text.toList ++ (s.beforeEnd ++
      if sigil = ['{'] then '}' :: d.closing.toList else d.closing.toList)) := by
    by_cases hbrace : sigil = ['{']
    · subst hbrace
      rw [if_pos rfl]
      exact .brace hend (key.unmatched (fun h => key.apart _ h List.mem_cons_self) _ _)
    · rw [if_neg hbrace]
      refine .plain hbrace hequals hend ?_
      obtain ⟨x, w, hclosing⟩ := List.exists_cons_of_ne_nil d.closing_toList_ne
      have hx : x ∉ key.text.toList := fun h =>
        key.apart x h (List.mem_cons_of_mem _ (hclosing ▸ List.mem_cons_self))
      rw [hclosing]
      exact key.unmatched hx _ _
  refine ⟨sigil, hsigil, ?_⟩
  rcases TagKind.sigil_form hsigil with rfl | ⟨x, hx, rfl⟩
  · -- without a sigil there is but one stretch of white space before the key
    have hnone : Blanks [] := fun _ h => nomatch h
    refine ⟨s.behindOpening ++ s.behindSigil, [], _, List.forall_mem_append.2 ⟨hopening, hbehind⟩,
      hnone, hstart _, hstart _, fun _ c hc => key.unsigned c ?_, htext, ?_⟩
    · rw [List.append_eq, List.head?_append_of_ne_nil _ key.solid.1] at hc
      obtain ⟨rest, hrest⟩ := List.head?_eq_some_iff.1 hc
      rw [hrest]
      exact List.mem_cons_self
    · simp [printTag]
  · have hsolid : Solid sigils := by decide
    refine ⟨s.behindOpening, s.behindSigil, _, hopening, hbehind, ?_, hstart _,
      fun h => (nomatch h), htext, rfl⟩
    rintro c ⟨⟩
    exact hsolid.2 x hx

/-- A tag that is printed is read where it was printed, whatever follows. -/
theorem pieces_printTag (hd : d.BlankFree) {kind : TagKind} {sigil : List Char}
    (hsigil : sigil ∈ kind.sigils) (hkind : kind ≠ .delimiters) (key : PlainKey d) (s : Spacing)
    (pos : Nat) (more : List Char) :
    Cursor.pieces d ⟨pos, printTag sigil key s ++ more⟩ =
      (Cursor.pieces d ⟨(printedTag kind sigil key s pos).stop, more⟩).behind
        [.tag (printedTag kind sigil key s pos)] := by
  have hequals : sigil ≠ ['='] := by
    rintro rfl
    exact hkind (TagKind.ofSigil_eq hsigil).symm
  have hlexeme := printTag_lexeme hsigil hequals key s
  have hafter : Tag.delimitersAfter ⟨kind, String.ofList key.text.toList, pos,
      pos + byteLength (printTag sigil key s)⟩ d = .ok d := if_neg hkind
  rw [Cursor.pieces_lexeme hd hlexeme hafter, String.ofList_toList]
  rfl

theorem pieces_plainText {cs : List Char} (h : Apart cs d.opening.toList) (pos : Nat)
    (more : List Char) : Cursor.pieces d ⟨pos, cs ++ more⟩ =
      (Cursor.pieces d ⟨pos + byteLength cs, more⟩).behind (charPieces pos cs) := by
  induction cs generalizing pos with
  | nil => rfl
  | cons c cs ih =>
    obtain ⟨hc, hcs⟩ := List.forall_mem_cons.1 h
    have hnone : d.openingPattern.matchLength? (c :: (cs ++ more)) = none := by
      rw [Delimiters.opening_unmatched_iff]
      intro hstarts
      obtain ⟨x, w, hopening⟩ := List.exists_cons_of_ne_nil d.opening_toList_ne
      rw [hopening, List.cons_prefix_cons] at hstarts
      exact hc (hstarts.1 ▸ hopening ▸ List.mem_cons_self)
    rw [List.cons_append, Cursor.pieces_char hnone, ih hcs, Pieces.behind_behind, byteLength_cons,
      ← Nat.add_assoc]
    rfl

theorem blockSigil_mem (isInverted : Bool) :
    blockSigil isInverted ∈ (blockKind isInverted).sigils := by
  cases isInverted <;> decide

theorem blockKind_ne (isInverted : Bool) : blockKind isInverted ≠ .delimiters := by
  cases isInverted <;> decide

mutual

theorem Sketch.pieces_print (hd : d.BlankFree) (pos : Nat) (more : List Char) (s : Sketch d) :
    Cursor.pieces d ⟨pos, s.print ++ more⟩ =
      (Cursor.pieces d ⟨pos + byteLength s.print, more⟩).behind (s.pieces pos) :=
  match s with
  | .text words => by
    rw [Sketch.print, Sketch.pieces, pieces_plainText words.apart]
  | .value form key spacing => by
    have hsigil : form.sigil ∈ form.kind.sigils := by cases form <;> decide
    have hkind : form.kind ≠ .delimiters := by cases form <;> decide
    rw [Sketch.print, Sketch.pieces, pieces_printTag hd hsigil hkind]
    rfl
  | .block isInverted key opening children closing => by
    have hsigil : ['/'] ∈ TagKind.blockEnd.sigils := by decide
    rw [Sketch.print, Sketch.pieces, List.append_assoc,
      pieces_printTag hd (blockSigil_mem isInverted) (blockKind_ne isInverted), List.append_assoc,
      pieces_printAll hd _ _ children, pieces_printTag hd hsigil (by decide), Pieces.behind_behind,
      Pieces.behind_behind]
    simp only [printedTag, byteLength_append, Nat.add_assoc]
    rfl

/-- Sketches are cut into the pieces that were printed. -/
theorem pieces_printAll (hd : d.BlankFree) (pos : Nat) (more : List Char) (ss : List (Sketch d)) :
    Cursor.pieces d ⟨pos, printAll ss ++ more⟩ =
      (Cursor.pieces d ⟨pos + byteLength (printAll ss), more⟩).behind (piecesAll pos ss) :=
  match ss with
  | [] => rfl
  | s :: ss => by
    rw [printAll, piecesAll, List.append_assoc, Sketch.pieces_print hd _ _ s,
      pieces_printAll hd _ _ ss, Pieces.behind_behind, byteLength_append, Nat.add_assoc]

end

/-! ## The nodes of printed sketches -/

/-- The characters of a text become one text, unless another text follows. -/
theorem joinTexts_charPieces {cs : List Char} (hne : cs ≠ []) {pos : Nat} {ps qs : List Part}
    (hps : List.Forall₂ IsPartOf (charPieces pos cs) ps)
    (hqs : ∀ text start stop, .text text start stop ∉ (joinTexts qs).head?) :
    joinTexts (ps ++ qs) =
      .text (String.ofList cs) pos (pos + byteLength cs) :: joinTexts qs := by
  induction cs generalizing pos ps with
  | nil => exact absurd rfl hne
  | cons c cs ih =>
    rw [charPieces] at hps
    cases hps with
    | @cons _ q _ ps hq hps =>
    obtain ⟨before, rfl⟩ := hq
    rw [List.cons_append, joinTexts]
    by_cases hnil : cs = []
    · subst hnil
      cases hps
      cases hrest : joinTexts qs with
      | nil => simp [hrest, Piece.part, Part.join]
      | cons q rest =>
        cases q with
        | text text start stop => exact absurd (by rw [hrest]; rfl) (hqs text start stop)
        | tag t m => simp [hrest, Piece.part, Part.join]
    · rw [ih hnil hps, byteLength_cons, ← Nat.add_assoc]
      simp [Piece.part, Part.join]

theorem forall₂_append_inv {a b : List Piece} {ps : List Part}
    (h : List.Forall₂ IsPartOf (a ++ b) ps) :
    ∃ ps₁ ps₂, ps = ps₁ ++ ps₂ ∧ List.Forall₂ IsPartOf a ps₁ ∧ List.Forall₂ IsPartOf b ps₂ :=
  ⟨ps.take a.length, ps.drop a.length, (List.take_append_drop _ _).symm,
    (List.forall₂_take_append ps a b h.flip).flip, (List.forall₂_drop_append ps a b h.flip).flip⟩

/-- A sketch that is no text is printed from a tag on. -/
theorem Sketch.pieces_eq_tag {s : Sketch d} (hs : s.isText = false) (pos : Nat) :
    ∃ t ps, s.pieces pos = .tag t :: ps := by
  cases s with
  | text words => cases hs
  | value form key spacing => exact ⟨_, [], by rw [Sketch.pieces]⟩
  | block isInverted key opening children closing => exact ⟨_, _, by rw [Sketch.pieces]⟩

theorem joinTexts_piecesAll_head {ss : List (Sketch d)} (hss : ∀ s ∈ ss.head?, s.isText = false)
    {pos : Nat} {ps : List Part} (hps : List.Forall₂ IsPartOf (piecesAll pos ss) ps)
    (text : String) (start stop : Nat) : .text text start stop ∉ (joinTexts ps).head? := by
  cases ss with
  | nil =>
    rw [piecesAll] at hps
    cases hps
    intro h
    cases h
  | cons s ss =>
    obtain ⟨t, rest, hpieces⟩ := s.pieces_eq_tag (hss s rfl) pos
    rw [piecesAll, hpieces, List.cons_append] at hps
    cases hps with
    | @cons _ q _ ps hq hps =>
    obtain ⟨before, rfl⟩ := hq
    rw [Piece.part, joinTexts_tag]
    intro h
    cases h

mutual

/-- A printed sketch becomes its node in front of what follows. -/
theorem Sketch.forest {pos : Nat} {ps qs : List Part} {ns : List Node} (s : Sketch d)
    (hspread : s.Spread) (hps : List.Forall₂ IsPartOf (s.pieces pos) ps)
    (hapart : s.isText = true → ∀ text start stop, .text text start stop ∉ (joinTexts qs).head?)
    (hqs : Forest (joinTexts qs) ns) : Forest (joinTexts (ps ++ qs)) (s.node pos :: ns) := by
  match s with
  | .text words =>
    rw [Sketch.pieces] at hps
    have hne : words.text.toList ≠ [] := mt String.toList_eq_nil_iff.1 words.nonempty
    rw [joinTexts_charPieces hne hps (hapart rfl), String.ofList_toList, Sketch.node]
    exact .text hqs
  | .value form key spacing =>
    rw [Sketch.pieces] at hps
    obtain ⟨q, _, ⟨before, rfl⟩, ⟨⟩, rfl⟩ := List.forall₂_cons_left_iff.1 hps
    rw [List.singleton_append, Piece.part, joinTexts_tag, Sketch.node]
    exact .leaf (by cases form <;> rfl) hqs
  | .block isInverted key opening children closing =>
    rw [Sketch.pieces] at hps
    obtain ⟨q, rest, ⟨before, rfl⟩, hrest, rfl⟩ := List.forall₂_cons_left_iff.1 hps
    obtain ⟨inside, close, rfl, hinside, hclose⟩ := forall₂_append_inv hrest
    obtain ⟨q', _, ⟨before', rfl⟩, ⟨⟩, rfl⟩ := List.forall₂_cons_left_iff.1 hclose
    have hchildren := forest_all children hspread hinside
    rw [List.cons_append, List.append_assoc, List.singleton_append, Piece.part, Piece.part,
      joinTexts_tag, joinTexts_append_tag]
    rw [Sketch.node]
    cases isInverted
    · exact .block (.inl rfl) (.refl _) rfl hchildren hqs
    · exact .block (.inr rfl) (.refl _) rfl hchildren hqs

/-- Printed sketches become their nodes. -/
theorem forest_all {pos : Nat} {ps : List Part} (ss : List (Sketch d)) (hspread : SpreadAll ss)
    (hps : List.Forall₂ IsPartOf (piecesAll pos ss) ps) :
    Forest (joinTexts ps) (nodesAll pos ss) := by
  match ss with
  | [] =>
    rw [piecesAll] at hps
    cases hps
    exact .nil
  | s :: ss =>
    obtain ⟨hs, hnext, hss⟩ := hspread
    rw [piecesAll] at hps
    obtain ⟨front, rest, rfl, hfront, hrest⟩ := forall₂_append_inv hps
    exact s.forest hs hfront (fun htext => joinTexts_piecesAll_head (hnext htext) hrest)
      (forest_all ss hss hrest)

end

/-- A template that is printed from sketches is read as their nodes, each at the place where it was
printed, if on every line with a tag white space stands only beside something that shows. -/
theorem parse_print (hd : d.BlankFree) (ss : List (Sketch d)) (hspread : SpreadAll ss)
    (hlines : FirmLines (piecesAll 0 ss)) :
    parse d (String.ofList (printAll ss)) = .ok (nodesAll 0 ss) := by
  have hpieces : Pieces.ofText d (String.ofList (printAll ss)) =
      ⟨piecesAll 0 ss, .finished (byteLength (printAll ss))⟩ := by
    have hend : Cursor.pieces d ⟨0 + byteLength (printAll ss), []⟩ =
        ⟨[], .finished (byteLength (printAll ss))⟩ := by
      rw [Cursor.pieces_atEnd rfl, Nat.zero_add]
    have h := pieces_printAll hd 0 [] ss
    rw [hend, List.append_nil] at h
    rw [Pieces.ofText, String.toList_ofList]
    exact h.trans (by rw [Pieces.behind, List.append_nil])
  obtain ⟨qs, hqs, hlayout⟩ := layout_firm hlines
  have hforest : Forest (layout (piecesAll 0 ss)) (nodesAll 0 ss) :=
    hlayout ▸ forest_all ss hspread hqs
  refine parse_eq_ok_iff.2 ?_
  rw [hpieces]
  exact ⟨⟨_, rfl⟩, tagsOf_layout _ ▸ hforest.balanced, hforest.nest_eq⟩

end

/-- A block, with white space in all places of its tags, that holds a value in braces and another
block. -/
def namesSketch : List (Sketch .standard) :=
  [.block false { text := "xs" } { behindOpening := [' '], behindSigil := ['\n'] }
      [.value .braces { text := "a\x7b" } { beforeEnd := ['\n', ' '] }, .text { text := " \x7d\n" },
        .block true { text := "y" } {} [.value .ampersand { text := "b" } { behindSigil := [' '] }]
          { beforeEnd := ['\n'] }]
      { behindOpening := [' '] },
    .text { text := ".\n" }]

theorem parse_print_names :
    String.ofList (printAll namesSketch) =
      "\x7b\x7b #\nxs\x7d\x7d\x7b\x7b\x7ba\x7b\n \x7d\x7d\x7d \x7d\n" ++
        "\x7b\x7b^y\x7d\x7d\x7b\x7b& b\x7d\x7d\x7b\x7b/y\n\x7d\x7d\x7b\x7b /xs\x7d\x7d.\n" ∧
    parse .standard (String.ofList (printAll namesSketch)) = .ok
      [.block "xs" 0 9 [.unescaped "a\x7b" 9 19, .text " \x7d\n" 19 22,
        .inverted "y" 22 28 [.unescaped "b" 28 35] 35] 42, .text ".\n" 50 52] := by
  refine ⟨by decide +kernel, ?_⟩
  rw [parse_print (by decide) namesSketch ?_ (by decide +kernel)]
  · decide +kernel
  · simp [namesSketch, SpreadAll, Sketch.Spread, Sketch.isText]

end TagTemplate
