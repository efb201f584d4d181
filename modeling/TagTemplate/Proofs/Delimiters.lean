import Mathlib.Data.List.TakeWhile
import TagTemplate.Delimiters
import TagTemplate.Proofs.Scan

/-!
# What the patterns of delimiters match

An opening delimiter takes the white space behind it along, a closing one the white space before
it. Main statements: `Cursor.scan_opening` and `Cursor.scan_padded`, what such a scan yields.
-/

namespace TagTemplate

/-! ## White space at the start -/

def Blanks (cs : List Char) : Prop := ∀ c ∈ cs, isBlank c = true

instance (cs : List Char) : Decidable (Blanks cs) := List.decidableBAll _ cs

def StartsUnblank (cs : List Char) : Prop := ∀ c ∈ cs.head?, isBlank c = false

theorem blanks_takeWhile (cs : List Char) : Blanks (cs.takeWhile isBlank) :=
  fun _ h => List.mem_takeWhile_imp h

theorem startsUnblank_dropWhile (cs : List Char) : StartsUnblank (cs.dropWhile isBlank) := by
  intro c hc
  have := List.head?_dropWhile_not isBlank cs
  rw [Option.mem_def.1 hc] at this
  simpa using this

theorem takeWhile_blanks_append {blanks rest : List Char} (hblanks : Blanks blanks)
    (hrest : StartsUnblank rest) : (blanks ++ rest).takeWhile isBlank = blanks := by
  rw [List.takeWhile_append_of_pos hblanks]
  cases rest with
  | nil => simp
  | cons c rest =>
    have hc : isBlank c = false := hrest c rfl
    simp [hc]

/-- White space in front of a text is told apart from the text. -/
theorem blanks_append_inj {a b x y : List Char} (h : a ++ x = b ++ y) (ha : Blanks a)
    (hb : Blanks b) (hx : StartsUnblank x) (hy : StartsUnblank y) : a = b ∧ x = y := by
  have hab : a = b := by
    rw [← takeWhile_blanks_append ha hx, h, takeWhile_blanks_append hb hy]
  subst hab
  exact ⟨rfl, List.append_cancel_left h⟩

/-! ## A single literal -/

namespace Pattern

variable {p : Pattern} {w cs : List Char}

/-- The core of a pattern with one literal and no white space behind it is the literal. -/
theorem coreLength?_literal (hw : p.choices = [w]) (hafter : p.blankAfter = false) :
    p.coreLength? cs = if w.isPrefixOf cs then some w.length else none := by
  simp only [coreLength?, hw, hafter, List.find?_cons, List.find?_nil]
  cases w.isPrefixOf cs <;> simp

theorem matchLength?_of_core (hcore : (p.coreLength? cs).isSome) : (p.matchLength? cs).isSome := by
  rw [matchLength?]
  split
  · cases cs with
    | nil => exact hcore
    | cons c cs =>
      rw [paddedLength?]
      split
      · split
        · rfl
        · exact hcore
      · exact hcore
  · exact hcore

theorem matchLength?_literal_append (hw : p.choices = [w]) (hafter : p.blankAfter = false)
    (rest : List Char) : (p.matchLength? (w ++ rest)).isSome := by
  refine matchLength?_of_core ?_
  rw [coreLength?_literal hw hafter, if_pos (by simp)]
  rfl

/-- A match with white space before a literal is white space and the literal. -/
theorem matchLength?_literal (hw : p.choices = [w]) (hafter : p.blankAfter = false)
    (hbefore : p.blankBefore = true) {n : Nat} (h : p.matchLength? cs = some n) :
    ∃ blanks rest, cs = blanks ++ (w ++ rest) ∧ Blanks blanks ∧ n = (blanks ++ w).length := by
  obtain ⟨blanks, rest, k, rfl, hblanks, hcore, rfl⟩ := matchLength?_padded hbefore h
  rw [coreLength?_literal hw hafter] at hcore
  split at hcore
  · next hpre =>
    cases hcore
    obtain ⟨more, rfl⟩ := List.isPrefixOf_iff_prefix.1 hpre
    exact ⟨blanks, more, rfl, hblanks, by simp⟩
  · cases hcore

/-- A literal that is not empty does not match at the end of the text. -/
theorem matchLength?_literal_nil (hw : p.choices = [w]) (hne : w ≠ []) :
    p.matchLength? [] = none := by
  have hcore : p.coreLength? [] = none := by
    have hpre : w.isPrefixOf [] = false := by
      cases w with
      | nil => exact absurd rfl hne
      | cons => rfl
    simp [coreLength?, hw, hpre]
  rw [matchLength?]
  split
  · rw [paddedLength?, hcore]
  · exact hcore

end Pattern

/-! ## The opening delimiter -/

namespace Delimiters

variable {d : Delimiters} {cs : List Char}

/-- The opening delimiter matches where it stands. -/
theorem opening_matches_iff :
    (d.openingPattern.matchLength? cs).isSome ↔ d.opening.toList <+: cs := by
  rw [← List.isPrefixOf_iff_prefix]
  simp only [Pattern.matchLength?, openingPattern, Pattern.coreLength?, List.find?_cons,
    List.find?_nil]
  cases d.opening.toList.isPrefixOf cs <;> simp

theorem opening_unmatched_iff :
    d.openingPattern.matchLength? cs = none ↔ ¬ d.opening.toList <+: cs := by
  rw [← opening_matches_iff, Option.not_isSome_iff_eq_none]

theorem opening_matchLength? (d : Delimiters) (rest : List Char) :
    d.openingPattern.matchLength? (d.opening.toList ++ rest) =
      some (d.opening.toList ++ rest.takeWhile isBlank).length := by
  simp [Pattern.matchLength?, openingPattern, Pattern.coreLength?]

end Delimiters

/-! ## Scans -/

namespace Cursor

variable {d : Delimiters} {c : Cursor}

/-- A scan over an opening delimiter yields it and all white space behind it. -/
theorem scan_opening (h : d.opening.toList <+: c.rest) :
    ∃ blanks, Blanks blanks ∧ (c.scan d.openingPattern).1 = d.opening.toList ++ blanks ∧
      StartsUnblank (c.scan d.openingPattern).2.rest := by
  obtain ⟨rest, hrest⟩ := h
  have hsplit :
      c.rest = (d.opening.toList ++ rest.takeWhile isBlank) ++ rest.dropWhile isBlank := by
    rw [List.append_assoc, List.takeWhile_append_dropWhile, hrest]
  have hlen : (d.openingPattern.matchLength? c.rest).getD 0 =
      (d.opening.toList ++ rest.takeWhile isBlank).length := by
    rw [← hrest, d.opening_matchLength?, Option.getD_some]
  refine ⟨rest.takeWhile isBlank, blanks_takeWhile _, ?_, ?_⟩
  · rw [scan, hlen, advance, hsplit]
    exact List.take_left
  · rw [scan, hlen, advance, hsplit]
    simp only [List.drop_left]
    exact startsUnblank_dropWhile _

/-- A scan over a literal with white space before it yields both. -/
theorem scan_padded {p : Pattern} {w : List Char} (hw : p.choices = [w])
    (hafter : p.blankAfter = false) (hbefore : p.blankBefore = true)
    (h : (p.matchLength? c.rest).isSome) :
    ∃ blanks, Blanks blanks ∧ (c.scan p).1 = blanks ++ w := by
  obtain ⟨n, hn⟩ := Option.isSome_iff_exists.1 h
  obtain ⟨blanks, rest, hrest, hblanks, rfl⟩ := Pattern.matchLength?_literal hw hafter hbefore hn
  refine ⟨blanks, hblanks, ?_⟩
  rw [scan, hn, Option.getD_some, advance, hrest, ← List.append_assoc]
  exact List.take_left

theorem matches_of_scan {p : Pattern} (h : (c.scan p).1 ≠ []) :
    (p.matchLength? c.rest).isSome := by
  cases hm : p.matchLength? c.rest with
  | some => rfl
  | none =>
    refine absurd ?_ h
    simp [scan, advance, hm]

/-- A search that could stop at once does. -/
theorem scanUntil_of_matches {p : Pattern} (hfree : p.anchored = false)
    (h : (p.matchLength? c.rest).isSome) : c.scanUntil p = ([], c) := by
  have hfind : p.find? c.rest = some 0 :=
    (Pattern.find?_eq_some_iff hfree).2 ⟨by simp, by simpa using h, by simp⟩
  simp [scanUntil, hfind, advance]

end Cursor

end TagTemplate
