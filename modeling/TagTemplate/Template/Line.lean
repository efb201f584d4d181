import TagTemplate.Template.Tag

/-!
# Lines of a template

A line ends with a line feed outside tags. While a line is read, its state tells whether tags
stand alone on it, and the margin of the next tag, which is what stands before that tag.
-/

namespace TagTemplate

/-- What stands before a place on its line. -/
structure Margin where
  /-- The characters outside tags; one that is not blank counts as a space. -/
  indentation : List Char := []
  /-- The number of tags. -/
  tagIndex : Nat := 0
  /-- Some character outside tags is not blank. -/
  afterText : Bool := false
  deriving DecidableEq, Repr

/-- What is known of the line at hand. -/
structure LineState where
  /-- Where the blank characters of the line are kept, the latest first. -/
  blanks : List Nat := []
  hasTag : Bool := false
  /-- The line shows something: a character that is not blank, or a value. -/
  shows : Bool := false
  /-- The indentation of the margin, the latest character first. -/
  indentation : List Char := []
  tagIndex : Nat := 0
  afterText : Bool := false
  deriving DecidableEq, Repr

namespace LineState

/-- The margin of a tag that stands here. -/
def margin (l : LineState) : Margin := ⟨l.indentation.reverse, l.tagIndex, l.afterText⟩

/-- Tags stand alone on the line. -/
def standsAlone (l : LineState) : Bool := l.hasTag && !l.shows

/-- One more character, kept at a place of its own. -/
def addChar (l : LineState) (place : Nat) (c : Char) : LineState :=
  if isBlank c then { l with blanks := place :: l.blanks, indentation := c :: l.indentation }
  else { l with shows := true, afterText := true, indentation := ' ' :: l.indentation }

def addTag (l : LineState) (kind : TagKind) : LineState :=
  { l with hasTag := true, tagIndex := l.tagIndex + 1, shows := l.shows || kind.interpolates }

end LineState

end TagTemplate
