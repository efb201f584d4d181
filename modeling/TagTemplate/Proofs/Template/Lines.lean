import TagTemplate.Proofs.Template.Pieces

/-!
# Lines of pieces

The pieces of a template, line by line. A line ends with a line feed outside tags; tags stand
alone on it if it has a tag and shows nothing. Main statement: `Draft.parts_eq`, what is struck
out of a draft are the characters of the lines on which tags stand alone.
-/

namespace TagTemplate

namespace Piece

/-- The line feed that ends a line. -/
def endsLine : Piece → Bool
  | char c _ => c = '\n'
  | tag _ => false

def isTag : Piece → Bool
  | char .. => false
  | tag _ => true

/-- The piece neither shows anything nor writes a value. -/
def isInvisible : Piece → Bool
  | char c _ => isBlank c
  | tag t => !t.kind.interpolates

/-- What the piece adds to an indentation. -/
def indentation? : Piece → Option Char
  | char c _ => some (if isBlank c then c else ' ')
  | tag _ => none

/-- A character that is not blank. -/
def isWord : Piece → Bool
  | char c _ => !isBlank c
  | tag _ => false

end Piece

/-- The pieces of a template line by line. -/
def pieceLines : List Piece → List (List Piece)
  | [] => []
  | p :: ps =>
    if p.endsLine then [p] :: pieceLines ps
    else match pieceLines ps with
      | line :: more => (p :: line) :: more
      | [] => [[p]]

/-- A line among some pieces: a stretch that starts behind a line feed or at the start, holds no
line feed before its end, and ends with one or with the pieces. -/
def IsLine (ps line : List Piece) : Prop :=
  ∃ before after, ps = before ++ (line ++ after) ∧ line ≠ [] ∧
    (∀ p ∈ before.getLast?, p.endsLine = true) ∧ (∀ p ∈ line.dropLast, p.endsLine = false) ∧
    (after ≠ [] → ∀ p ∈ line.getLast?, p.endsLine = true)

/-- Tags stand alone on the line. -/
def standsAlone (line : List Piece) : Bool :=
  line.any Piece.isTag && line.all Piece.isInvisible

/-- The margin behind some pieces of a line, the latest first. -/
def Margin.behind (before : List Piece) : Margin where
  indentation := (before.filterMap Piece.indentation?).reverse
  tagIndex := before.countP Piece.isTag
  afterText := before.any Piece.isWord

/-- A piece as a part; `before` are the pieces that the line has before it, the latest first. -/
def Piece.part (before : List Piece) : Piece → Part
  | char c start => .text (String.singleton c) start (start + c.utf8Size)
  | tag t => .tag t (.behind before)

/-- The pieces of a line as parts. -/
def lineParts (before : List Piece) : List Piece → List Part
  | [] => []
  | p :: ps => p.part before :: lineParts (p :: before) ps

def Part.isTag : Part → Bool
  | text .. => false
  | tag .. => true

/-- A part unless it is a text. -/
def Part.tagOnly (p : Part) : Option Part := if p.isTag then some p else none

/-- The parts of a line in a draft, the characters struck out if tags stand alone on the line. -/
def lineSlots (line : List Piece) : List (Option Part) :=
  (lineParts [] line).map (if standsAlone line then Part.tagOnly else some)

/-! ## Lines -/

theorem pieceLines_eq_nil {ps : List Piece} (h : pieceLines ps = []) : ps = [] := by
  cases ps with
  | nil => rfl
  | cons p ps =>
    rw [pieceLines] at h
    split at h
    · cases h
    · split at h <;> cases h

/-- The first line reaches up to its line feed, which it contains, or to the end. -/
theorem pieceLines_eq_cons {ps line : List Piece} {more : List (List Piece)}
    (h : pieceLines ps = line :: more) :
    ∃ rest, ps = line ++ rest ∧ pieceLines rest = more ∧
      ((∃ front p, line = front ++ [p] ∧ p.endsLine = true ∧ ∀ q ∈ front, q.endsLine = false) ∨
        (line ≠ [] ∧ rest = [] ∧ ∀ q ∈ line, q.endsLine = false)) := by
  induction ps generalizing line more with
  | nil => cases h
  | cons p ps ih =>
    rw [pieceLines] at h
    split at h
    · next hp =>
      cases h
      exact ⟨ps, rfl, rfl, .inl ⟨[], p, rfl, hp, by simp⟩⟩
    · next hp =>
      have hp : p.endsLine = false := by simpa using hp
      split at h
      · next first others hlines =>
        cases h
        obtain ⟨rest, rfl, hrest, ⟨front, q, rfl, hq, hfront⟩ | ⟨-, rfl, hall⟩⟩ := ih hlines
        · exact ⟨rest, rfl, hrest, .inl
            ⟨p :: front, q, rfl, hq, List.forall_mem_cons.2 ⟨hp, hfront⟩⟩⟩
        · exact ⟨[], rfl, hrest, .inr ⟨by simp, rfl, List.forall_mem_cons.2 ⟨hp, hall⟩⟩⟩
      · next hlines =>
        cases h
        obtain rfl := pieceLines_eq_nil hlines
        exact ⟨[], rfl, rfl, .inr ⟨by simp, rfl, by simp [hp]⟩⟩

/-- The lines are all of the template. -/
theorem pieceLines_flatten (ps : List Piece) : (pieceLines ps).flatten = ps := by
  induction h : pieceLines ps generalizing ps with
  | nil => rw [pieceLines_eq_nil h, List.flatten_nil]
  | cons line more ih =>
    obtain ⟨rest, rfl, hrest, -⟩ := pieceLines_eq_cons h
    rw [List.flatten_cons, ih rest hrest]

theorem pieceLines_ne_nil {ps : List Piece} (h : ps ≠ []) : pieceLines ps ≠ [] :=
  fun hnil => h (pieceLines_eq_nil hnil)

/-- Behind a line feed, lines start afresh. -/
theorem pieceLines_append {a : List Piece} (ha : ∀ p ∈ a.getLast?, p.endsLine = true)
    (b : List Piece) : pieceLines (a ++ b) = pieceLines a ++ pieceLines b := by
  induction a with
  | nil => rfl
  | cons p a ih =>
    have hlast : ∀ q ∈ a.getLast?, q.endsLine = true := by
      intro q hq
      refine ha q ?_
      rw [List.getLast?_cons, Option.mem_def.1 hq]
      rfl
    rw [List.cons_append, pieceLines, pieceLines, ih hlast]
    split
    · rfl
    · next hp =>
      have hne : a ≠ [] := by
        rintro rfl
        exact hp (ha p rfl)
      cases hlines : pieceLines a with
      | nil => exact absurd hlines (pieceLines_ne_nil hne)
      | cons line more => rfl

/-- A stretch without a line feed before its end is one line. -/
theorem pieceLines_line {line : List Piece} (hne : line ≠ [])
    (hline : ∀ p ∈ line.dropLast, p.endsLine = false) : pieceLines line = [line] := by
  induction line with
  | nil => exact absurd rfl hne
  | cons p line ih =>
    cases line with
    | nil =>
      rw [pieceLines]
      split <;> rfl
    | cons q line =>
      rw [List.dropLast_cons_cons, List.forall_mem_cons] at hline
      rw [pieceLines, ih (by simp) hline.2]
      simp [hline.1]

theorem IsLine.behind {front rest line : List Piece}
    (hfront : ∀ p ∈ front.getLast?, p.endsLine = true) (h : IsLine rest line) :
    IsLine (front ++ rest) line := by
  obtain ⟨before, after, rfl, hne, hbefore, hline⟩ := h
  refine ⟨front ++ before, after, (List.append_assoc ..).symm, hne, ?_, hline⟩
  intro p hp
  rw [List.getLast?_append] at hp
  cases hlast : before.getLast? with
  | some q =>
    rw [hlast] at hp
    cases hp
    exact hbefore p hlast
  | none =>
    rw [hlast] at hp
    exact hfront p hp

theorem isLine_of_mem {ps line : List Piece} (h : line ∈ pieceLines ps) : IsLine ps line := by
  induction hlines : pieceLines ps generalizing ps with
  | nil => rw [hlines] at h; cases h
  | cons first more ih =>
    obtain ⟨rest, rfl, hrest, hend⟩ := pieceLines_eq_cons hlines
    rw [hlines] at h
    obtain ⟨front, p, rfl, hp, hfront⟩ | ⟨hne, rfl, hfirst⟩ := hend
    · have hlast : ∀ q ∈ (front ++ [p]).getLast?, q.endsLine = true := by
        intro q hq
        rw [List.getLast?_append, List.getLast?_singleton] at hq
        cases hq
        exact hp
      rcases List.mem_cons.1 h with rfl | h
      · exact ⟨[], rest, rfl, by simp, by simp, by simpa using hfront, fun _ => hlast⟩
      · exact (ih (hrest ▸ h) hrest).behind hlast
    · -- without a line feed it is the only line
      obtain rfl : more = [] := hrest.symm
      rw [List.mem_singleton.1 h]
      exact ⟨[], [], rfl, hne, by simp, fun p hp => hfirst p (List.dropLast_subset _ hp), by simp⟩

/-- The lines of some pieces are the lines among them. -/
theorem mem_pieceLines_iff {ps line : List Piece} : line ∈ pieceLines ps ↔ IsLine ps line := by
  refine ⟨isLine_of_mem, ?_⟩
  rintro ⟨before, after, rfl, hne, hbefore, hline, hafter⟩
  rw [pieceLines_append hbefore]
  refine List.mem_append_right _ ?_
  by_cases hnil : after = []
  · rw [hnil, List.append_nil, pieceLines_line hne hline]
    exact List.mem_singleton_self line
  · rw [pieceLines_append (hafter hnil), pieceLines_line hne hline]
    exact List.mem_cons_self

/-! ## The draft of a line -/

namespace Draft

def addPiece (d : Draft) : Piece → Draft
  | .char c start => d.addChar c start
  | .tag t => d.addTag t

end Draft

namespace LineState

/-- The places of the blank characters of a line whose parts are kept from `base` on; `before`
are its pieces, the latest first. -/
def blankPlaces (base : Nat) : List Piece → List Nat
  | [] => []
  | .tag _ :: before => blankPlaces base before
  | .char c _ :: before =>
    if isBlank c then (base + before.length) :: blankPlaces base before else blankPlaces base before

/-- What is known of a line behind some of its pieces, the latest first. -/
def behind (base : Nat) (before : List Piece) : LineState where
  blanks := blankPlaces base before
  hasTag := before.any Piece.isTag
  shows := before.any (!·.isInvisible)
  indentation := before.filterMap Piece.indentation?
  tagIndex := before.countP Piece.isTag
  afterText := before.any Piece.isWord

@[simp] theorem behind_nil (base : Nat) : behind base [] = {} := rfl

theorem behind_addChar (base : Nat) (before : List Piece) (c : Char) (start : Nat) :
    (behind base before).addChar (base + before.length) c =
      behind base (.char c start :: before) := by
  rw [addChar]
  split
  · next hc =>
    simp [behind, blankPlaces, Piece.isTag, Piece.isInvisible, Piece.indentation?, Piece.isWord, hc]
  · next hc =>
    simp [behind, blankPlaces, Piece.isTag, Piece.isInvisible, Piece.indentation?, Piece.isWord, hc]

theorem behind_addTag (base : Nat) (before : List Piece) (t : Tag) :
    (behind base before).addTag t.kind = behind base (.tag t :: before) := by
  have hindent : (Piece.tag t :: before).filterMap Piece.indentation? =
      before.filterMap Piece.indentation? := List.filterMap_cons_none rfl
  have hcount : (Piece.tag t :: before).countP Piece.isTag = before.countP Piece.isTag + 1 :=
    List.countP_cons_of_pos rfl
  simp [addTag, behind, blankPlaces, Piece.isTag, Piece.isInvisible, Piece.isWord, hindent, hcount,
    Bool.or_comm]

theorem behind_standsAlone (base : Nat) (line : List Piece) :
    (behind base line.reverse).standsAlone = TagTemplate.standsAlone line := by
  simp [standsAlone, TagTemplate.standsAlone, behind, List.any_eq_not_all_not]

end LineState

theorem lineParts_length (before line : List Piece) :
    (lineParts before line).length = line.length := by
  induction line generalizing before with
  | nil => rfl
  | cons p line ih => simp [lineParts, ih]

theorem lineParts_append (before a b : List Piece) :
    lineParts before (a ++ b) = lineParts before a ++ lineParts (a.reverse ++ before) b := by
  induction a generalizing before with
  | nil => rfl
  | cons p a ih => simp [lineParts, ih]

namespace Draft

/-- A piece that does not end the line is kept and adds to the line. -/
theorem addPiece_inLine {parts : Array (Option Part)} {base : Nat} {before : List Piece} {p : Piece}
    (hsize : parts.size = base + before.length) (hp : p.endsLine = false) :
    addPiece ⟨parts, .behind base before⟩ p =
      ⟨parts.push (some (p.part before)), .behind base (p :: before)⟩ := by
  cases p with
  | char c start =>
    have hc : c ≠ '\n' := by simpa [Piece.endsLine] using hp
    rw [addPiece, addChar, if_neg hc, hsize, LineState.behind_addChar base before c start]
    rfl
  | tag t =>
    rw [addPiece, addTag, LineState.behind_addTag]
    rfl

/-- The pieces of a line up to its end are kept one by one. -/
theorem foldl_inLine (parts : Array (Option Part)) (base : Nat) (before : List Piece)
    {line : List Piece} (hsize : parts.size = base + before.length)
    (hline : ∀ p ∈ line, p.endsLine = false) :
    line.foldl addPiece ⟨parts, .behind base before⟩ =
      ⟨parts ++ ((lineParts before line).map some).toArray,
        .behind base (line.reverse ++ before)⟩ := by
  induction line generalizing parts before with
  | nil => simp [lineParts]
  | cons p line ih =>
    obtain ⟨hp, hline⟩ := List.forall_mem_cons.1 hline
    rw [List.foldl_cons, addPiece_inLine hsize hp,
      ih _ _ (by rw [Array.size_push, hsize, List.length_cons]; omega) hline]
    simp [lineParts]

/-- Striking out the white space of a line that has no other characters leaves its tags. -/
theorem foldl_strike (front after : List (Option Part)) (before : List Piece)
    (hbefore : ∀ p ∈ before, p.isInvisible = true) (parts : Array (Option Part))
    (hparts : parts.toList = front ++ (lineParts [] before.reverse).map some ++ after) :
    ((LineState.blankPlaces front.length before).foldl
      (fun parts i => parts.setIfInBounds i none) parts).toList =
      front ++ (lineParts [] before.reverse).map Part.tagOnly ++ after := by
  -- from the last piece to the first: those behind it are struck out already
  induction before generalizing after parts with
  | nil => simpa [LineState.blankPlaces, lineParts] using hparts
  | cons p before ih =>
    obtain ⟨hp, hrest⟩ := List.forall_mem_cons.1 hbefore
    have hlast (f : Part → Option Part) : (lineParts [] (p :: before).reverse).map f =
        (lineParts [] before.reverse).map f ++ [f (p.part before)] := by
      rw [List.reverse_cons, lineParts_append, List.map_append]
      simp [lineParts]
    rw [hlast] at hparts ⊢
    cases p with
    | tag t =>
      rw [LineState.blankPlaces, ih (some (Part.tag t (.behind before)) :: after) hrest parts]
      · simp [Piece.part, Part.tagOnly, Part.isTag]
      · simpa [Piece.part] using hparts
    | char c start =>
      have hc : isBlank c = true := hp
      rw [LineState.blankPlaces, if_pos hc, List.foldl_cons, ih (none :: after) hrest]
      · simp [Piece.part, Part.tagOnly, Part.isTag]
      · have hplace : front.length + before.length =
            (front ++ (lineParts [] before.reverse).map some).length := by
          simp [lineParts_length]
        rw [Array.toList_setIfInBounds, hparts, hplace]
        simp

/-- At the end of a line its white space is struck out if tags stand alone on it. -/
theorem strike_line (parts : Array (Option Part)) (line : List Piece) :
    (strike ⟨parts ++ ((lineParts [] line).map some).toArray,
      .behind parts.size line.reverse⟩).parts.toList =
      parts.toList ++ lineSlots line := by
  rw [strike, LineState.behind_standsAlone, lineSlots]
  split
  · next halone =>
    have hblank : ∀ p ∈ line.reverse, p.isInvisible = true := by
      intro p hp
      exact List.all_eq_true.1 (Bool.and_eq_true_iff.1 halone).2 p (List.mem_reverse.1 hp)
    have := foldl_strike parts.toList [] line.reverse hblank
      (parts ++ ((lineParts [] line).map some).toArray) (by simp)
    simpa [LineState.behind] using this
  · simp

/-- A line feed keeps a line as it is struck, and starts the next one afresh. -/
theorem foldl_line (parts : Array (Option Part)) {front : List Piece} {p : Piece}
    (hp : p.endsLine = true) (hfront : ∀ q ∈ front, q.endsLine = false) :
    (front ++ [p]).foldl addPiece ⟨parts, {}⟩ =
      ⟨(strike ⟨parts ++ ((lineParts [] (front ++ [p])).map some).toArray,
        .behind parts.size (front ++ [p]).reverse⟩).parts, {}⟩ := by
  have hin := foldl_inLine parts parts.size [] (by simp) hfront
  rw [LineState.behind_nil, List.append_nil] at hin
  rw [List.foldl_append, hin, List.foldl_cons, List.foldl_nil]
  cases p with
  | tag t => cases hp
  | char c start =>
    have hc : c = '\n' := by simpa [Piece.endsLine] using hp
    have hsize : (parts ++ ((lineParts [] front).map some).toArray).size =
        parts.size + front.reverse.length := by
      simp [lineParts_length]
    rw [addPiece, addChar, if_pos hc, hsize, LineState.behind_addChar _ _ c start,
      lineParts_append]
    simp [lineParts, Piece.part]

/-- A draft after the last strike: what is left of each line, one line after the other. -/
theorem parts_eq (parts : Array (Option Part)) (ps : List Piece) :
    (strike (ps.foldl addPiece ⟨parts, {}⟩)).parts.toList =
      parts.toList ++ (pieceLines ps).flatMap lineSlots := by
  induction hlines : pieceLines ps generalizing ps parts with
  | nil =>
    rw [pieceLines_eq_nil hlines]
    simp [strike, LineState.standsAlone]
  | cons line more ih =>
    obtain ⟨rest, rfl, hrest, ⟨front, p, rfl, hp, hfront⟩ | ⟨-, rfl, hline⟩⟩ :=
      pieceLines_eq_cons hlines
    · rw [List.foldl_append, foldl_line parts hp hfront, ih _ rest hrest, strike_line,
        List.flatMap_cons, List.append_assoc]
    · -- the last line, struck at the end of the template
      have hin := foldl_inLine parts parts.size [] (by simp) hline
      rw [LineState.behind_nil, List.append_nil] at hin
      obtain rfl : more = [] := hrest.symm
      rw [List.append_nil, hin, strike_line]
      simp

end Draft

end TagTemplate
