import TagTemplate.Toml.Moment
import TagTemplate.Toml.Table

/-!
# Reading TOML

TOML 1.0, with a ceiling on nesting.
-/

namespace TagTemplate.Toml

/-- The last segment of a key, and those before it. -/
def splitKey : List String → List String × String
  | [] => ([], "")
  | [key] => ([], key)
  | segment :: more =>
    let (path, key) := splitKey more
    (segment :: path, key)

mutual

/-- A value; `depth` levels of nesting are left, and `fuel` bounds the number of nested calls. -/
def readValue (fuel depth : Nat) (cs : List Char) : Read Toml :=
  match fuel with
  | 0 => none
  | fuel + 1 =>
    match cs with
    | 't' :: 'r' :: 'u' :: 'e' :: rest => some (bool true, rest)
    | 'f' :: 'a' :: 'l' :: 's' :: 'e' :: rest => some (bool false, rest)
    | '[' :: rest =>
      if depth ≤ 1 then none
      else match rest with
        | ']' :: rest => some (array [], rest)
        | rest =>
          match skipFiller false rest with
          | ']' :: rest => some (array [], rest)
          | rest => (readItems fuel (depth - 1) rest).map fun (xs, rest) => (array xs, rest)
    | '{' :: rest =>
      if depth ≤ 1 then none
      else match skipSpace rest with
        | '}' :: rest => some (table true [], rest)
        | rest =>
          (readEntries fuel (depth - 1) {} rest).map fun (draft, rest) =>
            (table true (finishSlots true draft.slots), rest)
    | c :: rest =>
      if c = '"' ∨ c = '\'' then
        (string? (c :: rest)).map fun (s, rest) => (string (String.ofList s), rest)
      else match moment? (c :: rest) with
        | some r => some r
        | none => number? (c :: rest)
    | [] => none

/-- The items of an array that is not empty, from the first of them, and its end. -/
def readItems (fuel depth : Nat) (cs : List Char) : Read (List Toml) :=
  match fuel with
  | 0 => none
  | fuel + 1 =>
    match readValue fuel depth cs with
    | none => none
    | some (x, rest) =>
      match skipFiller false rest with
      | ']' :: rest => some ([x], rest)
      | ',' :: rest =>
        match skipFiller false rest with
        | ']' :: rest => some ([x], rest)
        | rest => (readItems fuel depth rest).map fun (xs, rest) => (x :: xs, rest)
      | _ => none

/-- The entries of a table in braces that is not empty, and its end. -/
def readEntries (fuel depth : Nat) (draft : Draft) (cs : List Char) : Read Draft :=
  match fuel with
  | 0 => none
  | fuel + 1 =>
    match key? cs with
    | some (names, '=' :: rest) =>
      match readValue fuel depth (skipSpace rest) with
      | none => none
      | some (x, rest) =>
        let (path, key) := splitKey names
        match draft.insert? path key x, skipSpace rest with
        | some draft, '}' :: rest => some (draft, rest)
        | some draft, ',' :: rest => readEntries fuel depth draft rest
        | _, _ => none
    | _ => none

end

/-! ## Documents -/

/-- A document being read: its tables, and the path of the table open now. -/
structure Progress where
  root : Draft := {}
  current : List String := []

/-- A header, after its first bracket. -/
def readHeader (p : Progress) (cs : List Char) : Option (Progress × List Char) := do
  match cs with
  | '[' :: rest =>
    let (names, rest) ← key? rest
    match rest with
    | ']' :: ']' :: rest =>
      let (path, key) := splitKey names
      return ({ root := ← p.root.openElement? path key, current := names }, ← endOfLine? rest)
    | _ => none
  | rest =>
    let (names, rest) ← key? rest
    match rest with
    | ']' :: rest =>
      let (path, key) := splitKey names
      return ({ root := ← p.root.openTable? path key, current := names }, ← endOfLine? rest)
    | _ => none

/-- A line that gives a key its value. -/
def readEntry (p : Progress) (cs : List Char) : Option (Progress × List Char) := do
  match ← key? cs with
  | (names, '=' :: rest) =>
    let (x, rest) ← readValue (2 * rest.length + 2) depthLimit (skipSpace rest)
    let (path, key) := splitKey names
    let root ← p.root.update? false (Draft.insert? path key x) p.current
    return ({ p with root }, ← endOfLine? rest)
  | _ => none

/-- The rest of a document; `fuel` bounds the number of its lines. -/
def readLines (fuel : Nat) (p : Progress) (cs : List Char) : Option Progress :=
  match fuel with
  | 0 => none
  | fuel + 1 =>
    match skipSpace cs with
    | [] => some p
    | '#' :: rest =>
      match rest.dropWhile isPlain with
      | [] => some p
      | rest => (lineEnding? rest).bind (readLines fuel p)
    | '[' :: rest => (readHeader p rest).bind fun (p, rest) => readLines fuel p rest
    | '\n' :: rest => readLines fuel p rest
    | '\r' :: rest => (lineEnding? ('\r' :: rest)).bind (readLines fuel p)
    | rest => (readEntry p rest).bind fun (p, rest) => readLines fuel p rest

/-- The document of a text: the entries of its outermost table. A byte order mark may stand at
the start. -/
def parse? (text : String) : Option (List (String × Toml)) :=
  let cs := match text.toList with
    | '\uFEFF' :: cs => cs
    | cs => cs
  (readLines (cs.length + 1) {} cs).map fun p => finishSlots false p.root.slots

end TagTemplate.Toml
