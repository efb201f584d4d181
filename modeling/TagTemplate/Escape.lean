/-!
# Escaping for HTML

Eight characters are replaced by entities, one character at a time.
-/

namespace TagTemplate

/-- The entity of a character that has a meaning in HTML. -/
def entity? : Char → Option (List Char)
  | '&' => some ['&', 'a', 'm', 'p', ';']
  | '<' => some ['&', 'l', 't', ';']
  | '>' => some ['&', 'g', 't', ';']
  | '"' => some ['&', 'q', 'u', 'o', 't', ';']
  | '\'' => some ['&', '#', '3', '9', ';']
  | '/' => some ['&', '#', 'x', '2', 'F', ';']
  | '\x60' => some ['&', '#', 'x', '6', '0', ';']
  | '=' => some ['&', '#', 'x', '3', 'D', ';']
  | _ => none

/-- What stands for a character in escaped text. -/
def escapeChar (c : Char) : List Char := (entity? c).getD [c]

def escapeHtml (text : String) : String := String.ofList (text.toList.flatMap escapeChar)

@[simp] theorem escapeHtml_append (s t : String) :
    escapeHtml (s ++ t) = escapeHtml s ++ escapeHtml t := by
  simp [escapeHtml]

end TagTemplate
