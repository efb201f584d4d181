import TagTemplate.Json.Document

/-!
# Printing JSON

On one line, or indented by two spaces a level.
-/

namespace TagTemplate.Json

/-- A character inside a string. -/
def escapeChar (c : Char) : List Char :=
  match c with
  | '"' => ['\\', '"']
  | '\\' => ['\\', '\\']
  | '\x08' => ['\\', 'b']
  | '\x0c' => ['\\', 'f']
  | '\n' => ['\\', 'n']
  | '\r' => ['\\', 'r']
  | '\t' => ['\\', 't']
  | c =>
    if c.toNat < 0x20 then
      ['\\', 'u', '0', '0'] ++ (if c.toNat < 0x10 then ['0'] else []) ++ Nat.toDigits 16 c.toNat
    else [c]

def quote (s : String) : String :=
  String.ofList ('"' :: s.toList.flatMap escapeChar ++ ['"'])

/-- Lines joined by a comma and a separator. -/
def joinWith (separator : String) (parts : List String) : String :=
  separator.intercalate parts

mutual

/-- The document on one line, without spaces. -/
def compact : Json → String
  | null => "null"
  | bool b => if b then "true" else "false"
  | int n => toString n
  | float x => x.display
  | string s => quote s
  | array items => "[" ++ joinWith "," (compactItems items) ++ "]"
  | object members => "\x7b" ++ joinWith "," (compactMembers members) ++ "\x7d"

def compactItems : List Json → List String
  | [] => []
  | x :: xs => compact x :: compactItems xs

def compactMembers : List (String × Json) → List String
  | [] => []
  | (key, x) :: ms => (quote key ++ ":" ++ compact x) :: compactMembers ms

end

/-- The white space before a line. -/
def indent (level : Nat) : String := String.ofList (List.replicate (2 * level) ' ')

mutual

/-- The document on indented lines, the first of which stands at `level` already. -/
def prettyAt (level : Nat) : Json → String
  | null => "null"
  | bool b => if b then "true" else "false"
  | int n => toString n
  | float x => x.display
  | string s => quote s
  | array [] => "[]"
  | array items =>
    "[\n" ++ joinWith ",\n" (prettyItems (level + 1) items) ++ "\n" ++ indent level ++ "]"
  | object [] => "\x7b\x7d"
  | object members =>
    "\x7b\n" ++ joinWith ",\n" (prettyMembers (level + 1) members) ++ "\n" ++ indent level ++ "\x7d"

def prettyItems (level : Nat) : List Json → List String
  | [] => []
  | x :: xs => (indent level ++ prettyAt level x) :: prettyItems level xs

def prettyMembers (level : Nat) : List (String × Json) → List String
  | [] => []
  | (key, x) :: ms =>
    (indent level ++ quote key ++ ": " ++ prettyAt level x) :: prettyMembers level ms

end

def pretty (doc : Json) : String := doc.prettyAt 0

end TagTemplate.Json
