import TagTemplate.Template.Line

/-!
# Drafts

A template is drafted as a row of parts, one for each character outside tags and one for each
tag. Whether the white space of a line stays is known at the end of the line only, so it is
struck out in the draft afterwards. What is left of the draft is then squashed: characters that
are neighbours make one text.
-/

namespace TagTemplate

/-- A text run or a tag with its margin. -/
inductive Part where
  | text (text : String) (start stop : Nat)
  | tag (tag : Tag) (margin : Margin)
  deriving DecidableEq, Repr

/-- The parts so far, less those struck out, and the line at hand. -/
structure Draft where
  parts : Array (Option Part) := #[]
  line : LineState := {}
  deriving DecidableEq, Repr

namespace Draft

/-- Strikes out the white space of the line at hand if tags stand alone on it. -/
def strike (d : Draft) : Draft where
  parts :=
    if d.line.standsAlone then d.line.blanks.foldl (fun parts i => parts.setIfInBounds i none) d.parts
    else d.parts
  line := { d.line with blanks := [], hasTag := false, shows := false }

/-- One more character; a line feed ends the line. -/
def addChar (d : Draft) (c : Char) (start : Nat) : Draft :=
  let added : Draft :=
    { parts := d.parts.push (some (.text (String.singleton c) start (start + c.utf8Size)))
      line := d.line.addChar d.parts.size c }
  if c = '\n' then { added.strike with line := {} } else added

/-- The characters of a text that starts at a position. -/
def addText (d : Draft) (start : Nat) : List Char → Draft
  | [] => d
  | c :: cs => (d.addChar c start).addText (start + c.utf8Size) cs

def addTag (d : Draft) (t : Tag) : Draft where
  parts := d.parts.push (some (.tag t d.line.margin))
  line := d.line.addTag t.kind

end Draft

/-- Puts a part behind others, the latest first; texts that become neighbours make one. -/
def squashPart (before : List Part) (part : Part) : List Part :=
  match part, before with
  | .text text _ stop, .text more start _ :: parts => .text (more ++ text) start stop :: parts
  | part, parts => part :: parts

/-- What is left of a draft, with the texts squashed. -/
def Draft.squash (d : Draft) : List Part :=
  (d.parts.foldl (fun before slot => slot.elim before (squashPart before)) []).reverse

end TagTemplate
