import TagTemplate.Delimiters

/-!
# Tags

A tag is read in one go: opening delimiter, sigil, key, closing delimiter, with white space
allowed between them. The sigil tells what the tag is for and where its key ends.
-/

namespace TagTemplate

/-- What a tag is for. -/
inductive TagKind where
  /-- Writes a value, escaped. -/
  | escaped
  /-- Writes a value as it is. -/
  | unescaped
  | block
  /-- Opens a block that is written where a block with that key would not be. -/
  | inverted
  | blockEnd
  /-- Writes another template in its place. -/
  | inclusion
  | comment
  /-- Changes the delimiters for the rest of the text. -/
  | delimiters
  deriving DecidableEq, Repr

namespace TagKind

/-- The kind a sigil stands for; no sigil means an escaped value. -/
def ofSigil : List Char → TagKind
  | ['#'] => block
  | ['^'] => inverted
  | ['/'] => blockEnd
  | ['>'] => inclusion
  | ['{'] => unescaped
  | ['&'] => unescaped
  | ['='] => delimiters
  | ['!'] => comment
  | _ => escaped

/-- The tag writes a value. -/
def interpolates : TagKind → Bool
  | escaped | unescaped => true
  | _ => false

end TagKind

/-- The characters that may follow an opening delimiter to tell the kind of tag. -/
def sigils : List Char := ['#', '^', '/', '>', '{', '&', '=', '!']

def sigilPattern : Pattern := { choices := sigils.map ([·]), anchored := true }

def blanksHere : Pattern := { Pattern.blanks with anchored := true }

/-- An equals sign and the white space before it. -/
def equalsPattern : Pattern := { choices := [['=']], blankBefore := true }

/-- A closing brace and the white space before it. -/
def closingBrace : Pattern := { choices := [['}']], blankBefore := true }

/-- A tag and where it stands. -/
structure Tag where
  kind : TagKind
  key : String
  start : Nat
  stop : Nat
  deriving DecidableEq, Repr

namespace Cursor

/-- The key of a tag. A key in equals signs or braces ends at the second of the pair, and what
follows it up to the closing delimiter is passed over; any other key ends there. -/
def readKey (d : Delimiters) (sigil : List Char) (c : Cursor) : List Char × Cursor :=
  match sigil with
  | ['='] =>
    let (key, c) := c.scanUntil equalsPattern
    let (_, c) := c.scan equalsPattern
    let (_, c) := c.scanUntil d.closingPattern
    (key, c)
  | ['{'] =>
    let (key, c) := c.scanUntil d.bracePattern
    let (_, c) := c.scan closingBrace
    let (_, c) := c.scanUntil d.closingPattern
    (key, c)
  | _ => c.scanUntil d.closingPattern

/-- The tag that opens here, and the cursor behind it; without a closing delimiter, the
position reached. -/
def readTag (d : Delimiters) (c : Cursor) : Except Nat (Tag × Cursor) :=
  let (_, inside) := c.scan d.openingPattern
  let (sigil, afterSigil) := inside.scan sigilPattern
  let (_, atKey) := afterSigil.scan blanksHere
  let (key, afterKey) := atKey.readKey d sigil
  let (close, behind) := afterKey.scan d.closingPattern
  if close.isEmpty then .error behind.pos
  else .ok (⟨.ofSigil sigil, String.ofList key, c.pos, behind.pos⟩, behind)

/-! ## Moving only forward -/

theorem advance_length_le (c : Cursor) (n : Nat) :
    (c.advance n).2.rest.length ≤ c.rest.length := by
  simp [advance]

theorem scan_length_le (p : Pattern) (c : Cursor) :
    (c.scan p).2.rest.length ≤ c.rest.length := advance_length_le ..

theorem scanUntil_length_le (p : Pattern) (c : Cursor) :
    (c.scanUntil p).2.rest.length ≤ c.rest.length := advance_length_le ..

theorem readKey_length_le (d : Delimiters) (sigil : List Char) (c : Cursor) :
    (c.readKey d sigil).2.rest.length ≤ c.rest.length := by
  unfold readKey
  split
  · exact Nat.le_trans (scanUntil_length_le ..)
      (Nat.le_trans (scan_length_le ..) (scanUntil_length_le ..))
  · exact Nat.le_trans (scanUntil_length_le ..)
      (Nat.le_trans (scan_length_le ..) (scanUntil_length_le ..))
  · exact scanUntil_length_le ..

/-- The scan of a closing delimiter that yields anything leaves less to read. -/
theorem scan_length_lt {p : Pattern} {c : Cursor} (h : (c.scan p).1.isEmpty = false) :
    (c.scan p).2.rest.length < c.rest.length := by
  have hsplit := congrArg List.length (advance_rest c ((p.matchLength? c.rest).getD 0))
  have hne : (c.scan p).1 ≠ [] := by
    intro hnil
    simp [hnil] at h
  have hpos := List.length_pos_iff.2 hne
  simp only [List.length_append] at hsplit
  simp only [scan] at hpos ⊢
  omega

/-- Reading a tag leaves less to read. -/
theorem readTag_length_lt {d : Delimiters} {c next : Cursor} {tag : Tag}
    (h : c.readTag d = .ok (tag, next)) : next.rest.length < c.rest.length := by
  simp only [readTag] at h
  split at h
  · cases h
  · rename_i hclose
    cases h
    refine Nat.lt_of_lt_of_le (scan_length_lt (by simpa using hclose)) ?_
    exact Nat.le_trans (readKey_length_le ..)
      (Nat.le_trans (scan_length_le ..) (Nat.le_trans (scan_length_le ..) (scan_length_le ..)))

end Cursor

end TagTemplate
