import Mathlib.Data.List.Forall2
import TagTemplate.Proofs.Offset
import TagTemplate.Proofs.Scan

/-!
# Moves of a cursor

What moves of a cursor leave of a text, whatever the patterns are. A matcher is any rule for
matches, of which a search finds the leftmost one; a match may depend on what is before it.
Main statements: `Cursor.scan_eq` and `Cursor.scanUntil_eq`, the moves by a pattern are those by
its matcher; `Cursor.Through.run`, the texts that moves return and what remains make up the source;
`Cursor.scanWith_anchored`, whether a match is sought only here or everywhere makes no difference to
a scan; `scanning_loses_nothing`, all of this after any number of moves.
-/

namespace TagTemplate

/-- A rule for matches: the length of the match behind the first characters of a text, at the start
of the others, if there is one. -/
structure Matcher where
  lengthAt? : List Char → List Char → Option Nat
  within : ∀ {before rest n}, lengthAt? before rest = some n → n ≤ rest.length

namespace Matcher

/-- The leftmost match behind some characters: how many more precede it, and its length. -/
def find? (m : Matcher) (before : List Char) : List Char → Option (Nat × Nat)
  | [] => (m.lengthAt? before []).map (0, ·)
  | c :: cs =>
    match m.lengthAt? before (c :: cs) with
    | some n => some (0, n)
    | none => (m.find? (before ++ [c]) cs).map fun (skipped, n) => (skipped + 1, n)

/-- The same matches, but only at the start of a text. -/
def anchored (m : Matcher) : Matcher where
  lengthAt? before rest := if before = [] then m.lengthAt? [] rest else none
  within h := by
    split at h
    · exact m.within h
    · cases h

/-- What matches somewhere in a text matches what remains from there. -/
def LooksAhead (m : Matcher) : Prop :=
  ∀ {before rest n}, m.lengthAt? before rest = some n → m.lengthAt? [] rest = some n

variable {m m' : Matcher} {before cs : List Char} {k n : Nat}

/-! ## The leftmost match -/

theorem find?_eq_some (h : m.find? before cs = some (k, n)) :
    ∃ skipped rest, cs = skipped ++ rest ∧ skipped.length = k ∧
      m.lengthAt? (before ++ skipped) rest = some n ∧
      ∀ a b, skipped = a ++ b → b ≠ [] → m.lengthAt? (before ++ a) (b ++ rest) = none := by
  induction cs generalizing before k with
  | nil =>
    obtain ⟨n', hmatch, heq⟩ := Option.map_eq_some_iff.1 h
    cases heq
    refine ⟨[], [], rfl, rfl, by rwa [List.append_nil], ?_⟩
    rintro a b hnil hb
    exact absurd (List.append_eq_nil_iff.1 hnil.symm).2 hb
  | cons c cs ih =>
    rw [find?] at h
    split at h
    · next n' hmatch =>
      cases h
      refine ⟨[], c :: cs, rfl, rfl, by rwa [List.append_nil], ?_⟩
      rintro a b hnil hb
      exact absurd (List.append_eq_nil_iff.1 hnil.symm).2 hb
    · next hnone =>
      obtain ⟨⟨k', n'⟩, hfind, heq⟩ := Option.map_eq_some_iff.1 h
      cases heq
      obtain ⟨skipped, rest, rfl, rfl, hmatch, hbefore⟩ := ih hfind
      refine ⟨c :: skipped, rest, rfl, rfl, by simpa using hmatch, ?_⟩
      rintro a b hsplit hb
      cases a with
      | nil =>
        rw [← List.nil_append b, ← hsplit, List.append_nil]
        exact hnone
      | cons c' a =>
        obtain ⟨rfl, rfl⟩ := List.cons.inj hsplit
        simpa using hbefore a b rfl hb

theorem find?_eq_none (h : m.find? before cs = none) (a b : List Char) (hcs : cs = a ++ b) :
    m.lengthAt? (before ++ a) b = none := by
  induction cs generalizing before a with
  | nil =>
    obtain ⟨rfl, rfl⟩ := List.append_eq_nil_iff.1 hcs.symm
    rw [List.append_nil]
    exact Option.map_eq_none_iff.1 h
  | cons c cs ih =>
    rw [find?] at h
    split at h
    · cases h
    · next hnone =>
      cases a with
      | nil =>
        rw [← List.nil_append b, ← hcs, List.append_nil]
        exact hnone
      | cons c' a =>
        obtain ⟨rfl, rfl⟩ := List.cons.inj hcs
        simpa using ih (Option.map_eq_none_iff.1 h) a rfl

/-- The leftmost match is at the start exactly if there is one at the start. -/
theorem find?_zero_iff : m.find? before cs = some (0, n) ↔ m.lengthAt? before cs = some n := by
  cases cs with
  | nil => simp [find?]
  | cons c cs =>
    rw [find?]
    cases hmatch : m.lengthAt? before (c :: cs) with
    | some n' => simp
    | none => simp

end Matcher

/-! ## Matchers of patterns -/

namespace Pattern

variable {p : Pattern} {before cs : List Char} {n : Nat}

theorem coreLength?_le (h : p.coreLength? cs = some n) : n ≤ cs.length := by
  obtain ⟨choice, hfound, rfl⟩ := Option.map_eq_some_iff.1 h
  have hprefix : choice.isPrefixOf cs = true :=
    (List.find?_eq_some_iff_append.1 hfound).1
  have hchoice := (List.isPrefixOf_iff_prefix.1 hprefix).length_le
  have hblanks := (List.takeWhile_prefix isBlank (l := cs.drop choice.length)).length_le
  rw [List.length_drop] at hblanks
  split <;> omega

theorem matchLength?_le (h : p.matchLength? cs = some n) : n ≤ cs.length := by
  by_cases hpad : p.blankBefore = true
  · obtain ⟨blanks, rest, k, rfl, -, hcore, rfl⟩ := matchLength?_padded hpad h
    have := coreLength?_le hcore
    rw [List.length_append]
    omega
  · rw [matchLength?, if_neg hpad] at h
    exact coreLength?_le h

/-- The matches of a pattern; what is before them only matters for an anchored one. -/
def matcher (p : Pattern) : Matcher where
  lengthAt? before rest := if p.anchored = true ∧ before ≠ [] then none else p.matchLength? rest
  within h := by
    split at h
    · cases h
    · exact matchLength?_le h

theorem matcher_start (p : Pattern) (cs : List Char) :
    p.matcher.lengthAt? [] cs = p.matchLength? cs := if_neg fun h => h.2 rfl

theorem matcher_looksAhead (p : Pattern) : p.matcher.LooksAhead := by
  intro before rest n h
  rw [matcher_start]
  simp only [matcher] at h
  split at h
  · cases h
  · exact h

theorem paddedLength?_anchored (p : Pattern) (b : Bool) (cs : List Char) :
    { p with anchored := b }.paddedLength? cs = p.paddedLength? cs := by
  induction cs with
  | nil => rfl
  | cons c cs ih =>
    rw [paddedLength?, ih, paddedLength?]
    rfl

/-- To anchor a pattern is to anchor its matcher. -/
theorem matcher_anchored (p : Pattern) :
    { p with anchored := true }.matcher = p.matcher.anchored := by
  have hlength (cs : List Char) :
      { p with anchored := true }.matchLength? cs = p.matchLength? cs := by
    rw [matchLength?, matchLength?, paddedLength?_anchored]
    rfl
  simp only [matcher, Matcher.anchored, Matcher.mk.injEq]
  funext before rest
  by_cases hbefore : before = []
  · simp [hbefore, hlength]
  · simp [hbefore]

theorem find?_of_free (hfree : p.anchored = false) (before cs : List Char) :
    p.find? cs = (p.matcher.find? before cs).map (·.1) := by
  have hlength (before cs : List Char) : p.matcher.lengthAt? before cs = p.matchLength? cs :=
    if_neg fun h => Bool.false_ne_true (hfree.symm.trans h.1)
  induction cs generalizing before with
  | nil => simp [find?, Matcher.find?, hlength, Function.comp_def]
  | cons c cs ih =>
    rw [Matcher.find?, hlength]
    cases hmatch : p.matchLength? (c :: cs) with
    | some n => exact find?_of_matches (Option.isSome_of_eq_some hmatch)
    | none =>
      rw [find?_cons_of_none hfree hmatch, ih (before ++ [c])]
      simp [Function.comp_def]

/-- An anchored pattern is not found behind the start. -/
theorem find?_behind (hanchored : p.anchored = true) (hbefore : before ≠ []) :
    p.matcher.find? before cs = none := by
  have hnone (before cs : List Char) (hbefore : before ≠ []) :
      p.matcher.lengthAt? before cs = none := if_pos ⟨hanchored, hbefore⟩
  induction cs generalizing before with
  | nil => simp [Matcher.find?, hnone _ _ hbefore]
  | cons c cs ih =>
    rw [Matcher.find?, hnone _ _ hbefore]
    exact Option.map_eq_none_iff.2 (ih (by simp))

/-- A pattern is found where its matcher is. -/
theorem find?_eq (p : Pattern) (cs : List Char) :
    p.find? cs = (p.matcher.find? [] cs).map (·.1) := by
  by_cases hanchored : p.anchored = true
  · cases cs with
    | nil => simp [find?, Matcher.find?, matcher_start, Function.comp_def]
    | cons c cs =>
      rw [Matcher.find?, matcher_start]
      cases hmatch : p.matchLength? (c :: cs) with
      | some n => exact find?_of_matches (Option.isSome_of_eq_some hmatch)
      | none => simp [find?, hmatch, hanchored, find?_behind hanchored]
  · exact find?_of_free (Bool.eq_false_iff.2 hanchored) [] cs

end Pattern

/-! ## Moves -/

/-- A move of a cursor. -/
inductive Move where
  | scan (m : Matcher)
  | scanUntil (m : Matcher)

/-- The same move, but that a scan may look for its match only here or everywhere. -/
inductive Move.Reanchored : Move → Move → Prop
  | same (move : Move) : Reanchored move move
  | anchored (m : Matcher) : Reanchored (.scan m) (.scan m.anchored)
  | unanchored (m : Matcher) : Reanchored (.scan m.anchored) (.scan m)

namespace Cursor

variable {m : Matcher} {c : Cursor} {source : List Char} {texts : List (List Char)}

/-- The leftmost match, if it is right here; else empty, without a move. -/
def scanWith (m : Matcher) (c : Cursor) : List Char × Cursor :=
  match m.find? [] c.rest with
  | some (0, n) => c.advance n
  | _ => ([], c)

/-- The text before the leftmost match; all of the rest if there is none. -/
def scanUntilWith (m : Matcher) (c : Cursor) : List Char × Cursor :=
  match m.find? [] c.rest with
  | some (skipped, _) => c.advance skipped
  | none => c.advance c.rest.length

def move (c : Cursor) : Move → List Char × Cursor
  | .scan m => c.scanWith m
  | .scanUntil m => c.scanUntilWith m

/-- The texts that some moves return, and the cursor behind them. -/
def run (c : Cursor) : List Move → List (List Char) × Cursor
  | [] => ([], c)
  | first :: moves => ((c.move first).1 :: ((c.move first).2.run moves).1,
      ((c.move first).2.run moves).2)

theorem advance_zero (c : Cursor) : c.advance 0 = ([], c) := by
  simp [advance]

/-- A scan advances by the length of the match here. -/
theorem scanWith_eq (m : Matcher) (c : Cursor) :
    c.scanWith m = c.advance ((m.lengthAt? [] c.rest).getD 0) := by
  rw [scanWith]
  cases hmatch : m.lengthAt? [] c.rest with
  | some n =>
    rw [Matcher.find?_zero_iff.2 hmatch]
    rfl
  | none =>
    rw [Option.getD_none, advance_zero]
    split
    · next n hfind => cases hmatch.symm.trans (Matcher.find?_zero_iff.1 hfind)
    · rfl

theorem scanUntilWith_eq (m : Matcher) (c : Cursor) : c.scanUntilWith m =
    c.advance (((m.find? [] c.rest).map (·.1)).getD c.rest.length) := by
  rw [scanUntilWith]
  split
  · next hfind => rw [hfind]; rfl
  · next hfind => rw [hfind]; rfl

/-- The moves by a pattern are those by its matcher. -/
theorem scan_eq (p : Pattern) (c : Cursor) : c.scan p = c.scanWith p.matcher := by
  rw [scanWith_eq, Pattern.matcher_start, scan]

theorem scanUntil_eq (p : Pattern) (c : Cursor) : c.scanUntil p = c.scanUntilWith p.matcher := by
  rw [scanUntilWith_eq, ← Pattern.find?_eq, scanUntil]

/-- Each move advances the cursor. -/
theorem move_eq_advance (c : Cursor) (move : Move) : ∃ n, c.move move = c.advance n := by
  cases move with
  | scan m => exact ⟨_, scanWith_eq m c⟩
  | scanUntil m => exact ⟨_, scanUntilWith_eq m c⟩

/-- Whether a match is sought only here or everywhere makes no difference to a scan. -/
theorem scanWith_anchored (m : Matcher) (c : Cursor) : c.scanWith m.anchored = c.scanWith m := by
  rw [scanWith_eq, scanWith_eq]
  rfl

theorem move_reanchored {move move' : Move} (h : move.Reanchored move') (c : Cursor) :
    c.move move' = c.move move := by
  cases h with
  | same => rfl
  | anchored m => exact scanWith_anchored m c
  | unanchored m => exact (scanWith_anchored m c).symm

theorem run_reanchored {moves moves' : List Move} (h : List.Forall₂ Move.Reanchored moves moves')
    (c : Cursor) : c.run moves' = c.run moves := by
  induction h generalizing c with
  | nil => rfl
  | cons hfirst _ ih => rw [run, run, move_reanchored hfirst, ih]

/-! ## What moves leave -/

/-- The texts make up what is before the cursor, and with the rest they make up the source. -/
structure Through (source : List Char) (texts : List (List Char)) (c : Cursor) : Prop where
  whole : texts.flatten ++ c.rest = source
  pos_eq : c.pos = byteLength texts.flatten

namespace Through

theorem start (source : List Char) : Through source [] (.start source) := ⟨rfl, rfl⟩

/-- One move keeps what was returned before and adds its own text. -/
theorem move (h : Through source texts c) (move : Move) :
    Through source (texts ++ [(c.move move).1]) (c.move move).2 := by
  obtain ⟨n, hmove⟩ := c.move_eq_advance move
  rw [hmove]
  constructor
  · rw [List.flatten_concat, List.append_assoc, advance_rest, h.whole]
  · rw [List.flatten_concat, byteLength_append, advance_pos, h.pos_eq]

theorem run (h : Through source texts c) (moves : List Move) :
    Through source (texts ++ (c.run moves).1) (c.run moves).2 := by
  induction moves generalizing texts c with
  | nil =>
    rw [Cursor.run, List.append_nil]
    exact h
  | cons first moves ih =>
    have hrest := ih (h.move first)
    rwa [List.append_assoc] at hrest

theorem boundary (h : Through source texts c) : Boundary source c.pos :=
  ⟨texts.flatten, c.rest, h.whole.symm, h.pos_eq.symm⟩

end Through

theorem pos_le_move (c : Cursor) (move : Move) : c.pos ≤ (c.move move).2.pos := by
  obtain ⟨n, hmove⟩ := c.move_eq_advance move
  rw [hmove, advance_pos]
  exact Nat.le_add_right ..

theorem pos_le_run (c : Cursor) (moves : List Move) : c.pos ≤ (c.run moves).2.pos := by
  induction moves generalizing c with
  | nil => exact Nat.le_refl _
  | cons first moves ih => exact Nat.le_trans (c.pos_le_move first) (ih _)

theorem run_append (c : Cursor) (moves more : List Move) : c.run (moves ++ more) =
    ((c.run moves).1 ++ ((c.run moves).2.run more).1, ((c.run moves).2.run more).2) := by
  induction moves generalizing c with
  | nil => rfl
  | cons first moves ih => rw [List.cons_append, run, ih, run, List.cons_append]

/-- A search ends at the end of the text, or where the pattern matches. -/
theorem scanUntilWith_stops (m : Matcher) (c : Cursor) : (c.scanUntilWith m).2.rest = [] ∨
    ∃ n, m.lengthAt? (c.scanUntilWith m).1 (c.scanUntilWith m).2.rest = some n := by
  rw [scanUntilWith_eq]
  cases hfind : m.find? [] c.rest with
  | none => exact .inl (by simp [advance])
  | some found =>
    obtain ⟨skipped, rest, hrest, hlength, hmatch, -⟩ := Matcher.find?_eq_some hfind
    refine .inr ⟨found.2, ?_⟩
    simpa [advance, hrest, ← hlength] using hmatch

/-- Nothing that a search skips starts a match. -/
theorem scanUntilWith_skips (m : Matcher) (c : Cursor) {a b : List Char}
    (h : (c.scanUntilWith m).1 = a ++ b) (hb : b ≠ []) :
    m.lengthAt? a (b ++ (c.scanUntilWith m).2.rest) = none := by
  have hsplit : (c.scanUntilWith m).1 ++ (c.scanUntilWith m).2.rest = c.rest := by
    rw [scanUntilWith_eq, advance_rest]
  cases hfind : m.find? [] c.rest with
  | none =>
    refine Matcher.find?_eq_none hfind a _ ?_
    rw [← hsplit, h, List.append_assoc]
  | some found =>
    obtain ⟨skipped, rest, hrest, hlength, -, hbefore⟩ := Matcher.find?_eq_some hfind
    -- the search ends where the leftmost match is
    have htaken : (c.scanUntilWith m).1 = skipped ∧ (c.scanUntilWith m).2.rest = rest := by
      rw [scanUntilWith_eq, hfind]
      simp [advance, hrest, ← hlength]
    rw [htaken.2]
    exact hbefore a b (htaken.1 ▸ h) hb

end Cursor

/-- After any number of moves by any matchers, the texts that they returned and the rest make up the
source, and the position, which no move takes back, is the boundary between them. It makes no
difference which of the scans look only at the place where they are. A search ends at the end of the
text or at a match, which what remains has by itself if the matcher looks only ahead, and it skips
no match. The moves by patterns are moves of this kind. -/
theorem scanning_loses_nothing (source : List Char) (moves : List Move) :
    ∃ texts c, (Cursor.start source).run moves = (texts, c) ∧
      texts.flatten ++ c.rest = source ∧ c.pos = byteLength texts.flatten ∧
      Boundary source c.pos ∧ c.pos ≤ byteLength source ∧
      (∀ more, c.pos ≤ ((Cursor.start source).run (moves ++ more)).2.pos) ∧
      (∀ moves', List.Forall₂ Move.Reanchored moves moves' →
        (Cursor.start source).run moves' = (texts, c)) ∧
      (∀ m skipped next, c.move (.scanUntil m) = (skipped, next) →
        (next.rest = [] ∨ ∃ n, m.lengthAt? skipped next.rest = some n ∧
          (m.LooksAhead → m.lengthAt? [] next.rest = some n)) ∧
        ∀ a b, skipped = a ++ b → b ≠ [] → m.lengthAt? a (b ++ next.rest) = none) ∧
      ∀ p : Pattern, c.scan p = c.move (.scan p.matcher) ∧
        c.scanUntil p = c.move (.scanUntil p.matcher) ∧ p.matcher.LooksAhead ∧
        (∀ cs, p.matcher.lengthAt? [] cs = p.matchLength? cs) ∧
        { p with anchored := true }.matcher = p.matcher.anchored := by
  have hthrough := (Cursor.Through.start source).run moves
  rw [List.nil_append] at hthrough
  refine ⟨_, _, rfl, hthrough.whole, hthrough.pos_eq, hthrough.boundary, hthrough.boundary.le,
    fun more => ?_, fun moves' h => Cursor.run_reanchored h _, ?_, fun p =>
    ⟨Cursor.scan_eq p _, Cursor.scanUntil_eq p _, p.matcher_looksAhead, p.matcher_start,
      p.matcher_anchored⟩⟩
  · rw [Cursor.run_append]
    exact Cursor.pos_le_run _ more
  · intro m skipped next hmove
    have hstops := Cursor.scanUntilWith_stops m ((Cursor.start source).run moves).2
    have hskips {a b : List Char} := Cursor.scanUntilWith_skips m
      ((Cursor.start source).run moves).2 (a := a) (b := b)
    rw [show Cursor.scanUntilWith m _ = (skipped, next) from hmove] at hstops hskips
    refine ⟨hstops.imp_right fun ⟨n, hmatch⟩ => ⟨n, hmatch, fun hahead => hahead hmatch⟩, ?_⟩
    exact fun a b => hskips

end TagTemplate
