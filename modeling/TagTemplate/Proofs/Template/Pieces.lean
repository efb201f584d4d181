import TagTemplate.Proofs.Delimiters
import TagTemplate.Template.Parse

/-!
# Pieces

A template is a row of pieces: the tags that are found from left to right, each under the
delimiters in force there, and the characters outside tags. The row ends early at a tag that
cannot be read. Main statement: `Cursor.read_eq`, reading a template is one step for each of its
pieces, in order, and then whatever the end of the row means.
-/

namespace TagTemplate

/-- A tag, or one character outside tags. -/
inductive Piece where
  | char (c : Char) (start : Nat)
  | tag (tag : Tag)
  deriving DecidableEq, Repr

/-- How the pieces of a template end. -/
inductive Ending where
  /-- At the end of the text. -/
  | finished (pos : Nat)
  /-- Inside a tag without closing delimiter. -/
  | unclosed (closing : String) (pos : Nat)
  /-- Behind a tag that names no delimiters. -/
  | refused (fault : Fault)
  deriving DecidableEq, Repr

/-- The pieces of a template, and how they end. -/
structure Pieces where
  list : List Piece
  ending : Ending
  deriving DecidableEq, Repr

/-- Some pieces in front of others. -/
def Pieces.behind (front : List Piece) (rest : Pieces) : Pieces :=
  { rest with list := front ++ rest.list }

/-- The pieces from here to the end. -/
def Cursor.pieces (d : Delimiters) (c : Cursor) : Pieces :=
  match _hrest : c.rest with
  | [] => ⟨[], .finished c.pos⟩
  | x :: xs =>
    if (d.openingPattern.matchLength? (x :: xs)).isSome then
      match _htag : c.readTag d with
      | .error pos => ⟨[], .unclosed d.shownClosing pos⟩
      | .ok (tag, next) =>
        match tag.delimitersAfter d with
        | .error fault => ⟨[.tag tag], .refused fault⟩
        | .ok d => (next.pieces d).behind [.tag tag]
    else (Cursor.pieces d ⟨c.pos + x.utf8Size, xs⟩).behind [.char x c.pos]
termination_by c.rest.length
decreasing_by
  · exact readTag_length_lt _htag
  · simp [_hrest]

/-- A template cut into pieces. -/
def Pieces.ofText (d : Delimiters) (template : String) : Pieces :=
  (Cursor.start template.toList).pieces d

def tagsOf (ps : List Piece) : List Tag :=
  ps.filterMap fun
    | .char .. => none
    | .tag t => some t

/-- The pieces of a text outside tags that starts at a position. -/
def charPieces (start : Nat) : List Char → List Piece
  | [] => []
  | c :: cs => .char c start :: charPieces (start + c.utf8Size) cs

/-! ## One piece at a time -/

@[simp] theorem tagsOf_char (c : Char) (start : Nat) (ps : List Piece) :
    tagsOf (.char c start :: ps) = tagsOf ps := rfl

@[simp] theorem tagsOf_tag (t : Tag) (ps : List Piece) : tagsOf (.tag t :: ps) = t :: tagsOf ps :=
  rfl

theorem tagsOf_append (a b : List Piece) : tagsOf (a ++ b) = tagsOf a ++ tagsOf b :=
  List.filterMap_append

theorem mem_tagsOf {t : Tag} {ps : List Piece} : t ∈ tagsOf ps ↔ .tag t ∈ ps := by
  rw [tagsOf, List.mem_filterMap]
  constructor
  · rintro ⟨_ | u, hp, ⟨⟩⟩
    exact hp
  · exact fun h => ⟨_, h, rfl⟩

namespace Pieces

@[simp] theorem behind_list (front : List Piece) (rest : Pieces) :
    (rest.behind front).list = front ++ rest.list := rfl

@[simp] theorem behind_ending (front : List Piece) (rest : Pieces) :
    (rest.behind front).ending = rest.ending := rfl

@[simp] theorem behind_nil (rest : Pieces) : rest.behind [] = rest := rfl

theorem behind_behind (a b : List Piece) (rest : Pieces) :
    (rest.behind b).behind a = rest.behind (a ++ b) := by
  simp [behind]

end Pieces

namespace Cursor

theorem pieces_atEnd {d : Delimiters} {c : Cursor} (h : c.rest = []) :
    c.pieces d = ⟨[], .finished c.pos⟩ := by
  rw [pieces]
  split
  · rfl
  · next hrest => rw [h] at hrest; cases hrest

theorem pieces_char {d : Delimiters} {pos : Nat} {x : Char} {xs : List Char}
    (h : d.openingPattern.matchLength? (x :: xs) = none) :
    (Cursor.mk pos (x :: xs)).pieces d =
      ((Cursor.mk (pos + x.utf8Size) xs).pieces d).behind [.char x pos] := by
  rw [pieces]
  simp only [h, Option.isSome_none, Bool.false_eq_true, if_false]

theorem rest_ne_nil {d : Delimiters} {c : Cursor}
    (h : (d.openingPattern.matchLength? c.rest).isSome) : c.rest ≠ [] := by
  intro hnil
  rw [hnil, Pattern.matchLength?_literal_nil rfl d.opening_toList_ne] at h
  cases h

theorem pieces_unclosed {d : Delimiters} {c : Cursor} {pos : Nat}
    (hopen : (d.openingPattern.matchLength? c.rest).isSome) (htag : c.readTag d = .error pos) :
    c.pieces d = ⟨[], .unclosed d.shownClosing pos⟩ := by
  rw [pieces]
  split
  · next hrest => exact absurd hrest (rest_ne_nil hopen)
  · next hrest =>
    rw [hrest] at hopen
    rw [if_pos hopen]
    split
    · next h => rw [htag] at h; cases h; rfl
    · next h => rw [htag] at h; cases h

theorem pieces_tag {d : Delimiters} {c next : Cursor} {t : Tag}
    (hopen : (d.openingPattern.matchLength? c.rest).isSome) (htag : c.readTag d = .ok (t, next)) :
    c.pieces d = match t.delimitersAfter d with
      | .error fault => ⟨[.tag t], .refused fault⟩
      | .ok d => (next.pieces d).behind [.tag t] := by
  rw [pieces]
  split
  · next hrest => exact absurd hrest (rest_ne_nil hopen)
  · next hrest =>
    rw [hrest] at hopen
    rw [if_pos hopen]
    split
    · next h => rw [htag] at h; cases h
    · next h => rw [htag] at h; cases h; rfl

/-- Along the pieces of a text: at its end, over a character outside tags, or at a tag that does
not end, names no delimiters, or leaves some in force. -/
theorem pieces_induction {motive : Delimiters → Cursor → Prop}
    (atEnd : ∀ d c, c.rest = [] → motive d c)
    (char : ∀ d pos x xs, d.openingPattern.matchLength? (x :: xs) = none →
      motive d ⟨pos + x.utf8Size, xs⟩ → motive d ⟨pos, x :: xs⟩)
    (unclosed : ∀ d c pos, (d.openingPattern.matchLength? c.rest).isSome →
      c.readTag d = .error pos → motive d c)
    (refused : ∀ d c t next fault, (d.openingPattern.matchLength? c.rest).isSome →
      c.readTag d = .ok (t, next) → t.delimitersAfter d = .error fault → motive d c)
    (tag : ∀ d d' c t next, (d.openingPattern.matchLength? c.rest).isSome →
      c.readTag d = .ok (t, next) → t.delimitersAfter d = .ok d' → motive d' next → motive d c)
    (d : Delimiters) (c : Cursor) : motive d c := by
  induction hn : c.rest.length using Nat.strongRecOn generalizing c d with
  | ind n ih =>
    cases hopen : d.openingPattern.matchLength? c.rest with
    | none =>
      obtain ⟨pos, rest⟩ := c
      cases rest with
      | nil => exact atEnd d ⟨pos, []⟩ rfl
      | cons x xs => exact char d pos x xs hopen (ih xs.length (by rw [← hn]; simp) d _ rfl)
    | some m =>
      have hopen : (d.openingPattern.matchLength? c.rest).isSome := by simp [hopen]
      cases htag : c.readTag d with
      | error pos => exact unclosed d c pos hopen htag
      | ok read =>
        obtain ⟨t, next⟩ := read
        cases hafter : t.delimitersAfter d with
        | error fault => exact refused d c t next fault hopen htag hafter
        | ok d' =>
          have hlt : next.rest.length < n := hn ▸ readTag_length_lt htag
          exact tag d d' c t next hopen htag hafter (ih _ hlt d' next rfl)

/-! ## A text up to the next tag -/

/-- The opening delimiter is not empty, so a scan that matches it is not either. -/
theorem scan_opening_isEmpty {d : Delimiters} {c : Cursor} :
    (c.scan d.openingPattern).1.isEmpty = true ↔ d.openingPattern.matchLength? c.rest = none := by
  constructor
  · intro h
    by_contra hsome
    obtain ⟨blanks, -, hscan, -⟩ :=
      scan_opening (Delimiters.opening_matches_iff.1 (Option.isSome_iff_ne_none.2 hsome))
    rw [hscan, List.isEmpty_iff] at h
    exact d.opening_toList_ne (List.append_eq_nil_iff.1 h).1
  · intro h
    simp [scan, advance, h]

/-- Up to the next tag there are characters only. -/
theorem pieces_scanUntil (d : Delimiters) (c : Cursor) :
    c.pieces d = ((c.scanUntil d.openingPattern).2.pieces d).behind
      (charPieces c.pos (c.scanUntil d.openingPattern).1) := by
  obtain ⟨pos, rest⟩ := c
  induction rest generalizing pos with
  | nil =>
    simp [scanUntil, advance, charPieces]
  | cons x xs ih =>
    cases h : d.openingPattern.matchLength? (x :: xs) with
    | some n =>
      simp [scanUntil, advance, charPieces, Pattern.find?, h]
    | none =>
      have hnext : scanUntil d.openingPattern ⟨pos, x :: xs⟩ =
          (x :: (scanUntil d.openingPattern ⟨pos + x.utf8Size, xs⟩).1,
            (scanUntil d.openingPattern ⟨pos + x.utf8Size, xs⟩).2) := by
        have hfree : d.openingPattern.anchored = false := rfl
        cases hfind : d.openingPattern.find? xs <;>
          simp [scanUntil, advance, Pattern.find?, h, hfree, hfind, Nat.add_assoc]
      rw [pieces_char h, hnext, ih, Pieces.behind_behind]
      rfl

end Cursor

/-! ## Reading, piece by piece -/

def Reading.addPiece (source : String) (r : Reading) : Piece → Except Fault Reading
  | .char c start => .ok { r with draft := r.draft.addChar c start }
  | .tag t => r.addTag source t

/-- What the end of the pieces means for what has been read. -/
def Ending.conclude (source : String) (r : Reading) : Ending → Except Fault Draft
  | .finished pos => r.finish source pos
  | .unclosed closing pos => .error (.malformed ⟨.unclosedTag closing, pos, source⟩)
  | .refused fault => .error fault

/-- Reading some pieces, one step for each, and then what their end means. -/
def Pieces.follow (source : String) (r : Reading) (ps : Pieces) : Except Fault Draft :=
  ps.list.foldlM (Reading.addPiece source) r >>= fun r => ps.ending.conclude source r

namespace Pieces

theorem follow_tag (source : String) (r : Reading) (t : Tag) (ps : Pieces) :
    (ps.behind [.tag t]).follow source r = r.addTag source t >>= fun r => ps.follow source r := by
  rw [follow, behind_list, behind_ending, List.singleton_append, List.foldlM_cons,
    Reading.addPiece]
  cases r.addTag source t <;> rfl

theorem follow_charPieces (source : String) (r : Reading) (start : Nat) (cs : List Char)
    (ps : Pieces) : (ps.behind (charPieces start cs)).follow source r =
      ps.follow source { r with draft := r.draft.addText start cs } := by
  induction cs generalizing r start with
  | nil => rfl
  | cons c cs ih => exact ih { r with draft := r.draft.addChar c start } (start + c.utf8Size)

end Pieces

/-- Reading a tag is one step, unless the tag names no delimiters. -/
theorem Cursor.follow_pieces_tag {source : String} {d : Delimiters} {c next : Cursor} {t : Tag}
    (hopen : (d.openingPattern.matchLength? c.rest).isSome) (htag : c.readTag d = .ok (t, next))
    (r : Reading) : (c.pieces d).follow source r =
      r.addTag source t >>= fun r => t.delimitersAfter d >>= fun d =>
        (next.pieces d).follow source r := by
  rw [pieces_tag hopen htag]
  cases t.delimitersAfter d with
  | ok d => exact Pieces.follow_tag source r t (next.pieces d)
  | error fault => exact Pieces.follow_tag source r t ⟨[], .refused fault⟩

/-- Reading is one step for each piece, and then what the end of the pieces means. -/
theorem Cursor.read_eq (source : String) (d : Delimiters) (r : Reading) (c : Cursor) :
    c.read source d r = (c.pieces d).follow source r := by
  -- every tag leaves less to read, under delimiters of its own
  induction hn : c.rest.length using Nat.strongRecOn generalizing c d r with
  | ind n ih =>
    rw [read]
    by_cases hend : c.atEnd = true
    · rw [if_pos hend, pieces_atEnd (by simpa [atEnd] using hend)]
      rfl
    rw [if_neg hend, pieces_scanUntil, Pieces.follow_charPieces]
    generalize hat : (c.scanUntil d.openingPattern).2 = atTag
    have hle : atTag.rest.length ≤ c.rest.length := hat ▸ scanUntil_length_le ..
    dsimp only
    generalize { r with draft := r.draft.addText c.pos (c.scanUntil d.openingPattern).1 } = r
    split
    · next hempty =>
      -- without a tag the search has got to the end
      have hnone := scan_opening_isEmpty.1 hempty
      have hnil : atTag.rest = [] := by
        rcases hat ▸ scanUntil_stops (c := c) (p := d.openingPattern) rfl with h | h
        · exact h
        · rw [hnone] at h
          cases h
      rw [pieces_atEnd hnil]
      rfl
    · next hscan =>
      have hopen : (d.openingPattern.matchLength? atTag.rest).isSome := by
        rw [scan_opening_isEmpty] at hscan
        exact Option.isSome_iff_ne_none.2 hscan
      split
      · next htag =>
        rw [pieces_unclosed hopen htag]
        rfl
      · next tag next htag =>
        rw [follow_pieces_tag hopen htag]
        have hlt : next.rest.length < n := hn ▸ Nat.lt_of_lt_of_le (readTag_length_lt htag) hle
        cases r.addTag source tag with
        | error fault => rfl
        | ok r =>
          cases tag.delimitersAfter d with
          | error fault => rfl
          | ok d => exact ih next.rest.length hlt d r next rfl

end TagTemplate
