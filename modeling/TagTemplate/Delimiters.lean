import TagTemplate.Fault
import TagTemplate.Scan

/-!
# Delimiters

The pair of texts that open and close a tag, and the patterns that find them. Both texts are
non-empty by construction, so a tag always takes up room.
-/

namespace TagTemplate

/-- What opens and what closes a tag. -/
structure Delimiters where
  opening : String
  closing : String
  opening_ne : opening ≠ ""
  closing_ne : closing ≠ ""
  deriving DecidableEq

namespace Delimiters

/-- `{{` and `}}`. -/
def standard : Delimiters := ⟨"\x7b\x7b", "\x7d\x7d", by decide, by decide⟩

instance : Inhabited Delimiters := ⟨standard⟩

/-- A pair, unless one of the two is empty. -/
def of? (opening closing : String) : Except Fault Delimiters :=
  if h : opening ≠ "" ∧ closing ≠ "" then .ok ⟨opening, closing, h.1, h.2⟩
  else .error (.invalid (.emptyDelimiter opening closing))

/-- A pair written as two words. -/
def ofText? (text : String) : Except Fault Delimiters :=
  match words text.toList with
  | [opening, closing] => of? (String.ofList opening) (String.ofList closing)
  | _ => .error (.invalid (.delimiterPair text))

def ofList? : List String → Except Fault Delimiters
  | [opening, closing] => of? opening closing
  | parts => .error (.invalid (.delimiterCount parts.length))

def display (d : Delimiters) : String := d.opening ++ " " ++ d.closing

/-- Neither delimiter holds white space. -/
def BlankFree (d : Delimiters) : Prop :=
  (∀ c ∈ d.opening.toList, isBlank c = false) ∧ ∀ c ∈ d.closing.toList, isBlank c = false

instance (d : Delimiters) : Decidable d.BlankFree :=
  @instDecidableAnd _ _ (List.decidableBAll _ _) (List.decidableBAll _ _)

/-! ## Patterns -/

/-- The opening delimiter and the white space behind it. -/
def openingPattern (d : Delimiters) : Pattern :=
  { choices := [d.opening.toList], blankAfter := true }

/-- The closing delimiter and the white space before it. -/
def closingPattern (d : Delimiters) : Pattern :=
  { choices := [d.closing.toList], blankBefore := true }

/-- The end of a tag whose key stands in braces: a brace directly before the closing
delimiter, and the white space before the brace. -/
def bracePattern (d : Delimiters) : Pattern :=
  { choices := ['}' :: d.closing.toList], blankBefore := true }

theorem opening_toList_ne (d : Delimiters) : d.opening.toList ≠ [] := by
  intro h
  exact d.opening_ne (String.toList_inj.1 (by simpa using h))

theorem closing_toList_ne (d : Delimiters) : d.closing.toList ≠ [] := by
  intro h
  exact d.closing_ne (String.toList_inj.1 (by simpa using h))

/-! ## The closing delimiter in messages

A message about an unclosed tag recovers the delimiter from the written form of the closing
pattern, a regular expression. -/

/-- The characters with a meaning of their own in a regular expression. -/
def isMeta (c : Char) : Bool :=
  c ∈ ['\\', '.', '+', '*', '?', '(', ')', '|', '[', ']', '{', '}', '^', '$', '#', '&', '-', '~']

/-- A literal text as a regular expression: a backslash before each special character. -/
def escapeMeta (cs : List Char) : List Char :=
  cs.flatMap fun c => if isMeta c then ['\\', c] else [c]

/-- The closing pattern as a regular expression. -/
def closingExpression (d : Delimiters) : List Char :=
  ['\\', 's', '*'] ++ escapeMeta d.closing.toList

/-- Leaves out every `\s*` at the start. -/
def dropBlankMarks : List Char → List Char
  | '\\' :: 's' :: '*' :: rest => dropBlankMarks rest
  | cs => cs

/-- The closing delimiter as a message shows it. -/
def shownClosing (d : Delimiters) : String :=
  String.ofList ((dropBlankMarks d.closingExpression).filter (· ≠ '\\'))

end Delimiters

end TagTemplate
