import TagTemplate.Template.Draft
import TagTemplate.Template.Node

/-!
# Reading a template

A template is read in three passes. The first one drafts it tag by tag, follows the delimiters,
and checks with the keys of the open blocks that the closing tags fit; the fault reported is the
first one in the order of the text. The second one squashes the draft. The third one nests the
parts: what stands between an opening and a closing tag goes into the block.
-/

namespace TagTemplate

/-! ## Drafting -/

/-- What has been read of a template. -/
structure Reading where
  draft : Draft := {}
  /-- The keys of the open blocks, innermost first. -/
  openKeys : List String := []

/-- The keys of the open blocks after a tag, if `keys` are those before it; a closing tag must
have the innermost one. -/
def Tag.keysAfter (source : String) (t : Tag) (keys : List String) : Except Fault (List String) :=
  match t.kind with
  | .block | .inverted => .ok (t.key :: keys)
  | .blockEnd =>
    match keys with
    | [] => .error (.malformed ⟨.unopenedBlock t.key, t.start, source⟩)
    | key :: outer =>
      if key = t.key then .ok outer
      else .error (.malformed ⟨.crossedBlock key t.key, t.start, source⟩)
  | .escaped | .unescaped | .inclusion | .comment | .delimiters => .ok keys

namespace Reading

def addTag (source : String) (r : Reading) (t : Tag) : Except Fault Reading :=
  (t.keysAfter source r.openKeys).map fun keys => ⟨r.draft.addTag t, keys⟩

/-- The end of the template, at a position; no block may be open. -/
def finish (source : String) (pos : Nat) (r : Reading) : Except Fault Draft :=
  match r.openKeys with
  | [] => .ok r.draft.strike
  | key :: _ => .error (.malformed ⟨.unclosedBlock key, pos, source⟩)

end Reading

/-- The delimiters after a tag. -/
def Tag.delimitersAfter (t : Tag) (d : Delimiters) : Except Fault Delimiters :=
  if t.kind = .delimiters then Delimiters.ofText? t.key else .ok d

/-- Reads on from here to the end. -/
def Cursor.read (source : String) (d : Delimiters) (r : Reading) (c : Cursor) :
    Except Fault Draft :=
  if c.atEnd then r.finish source c.pos
  else
    let atTag := (c.scanUntil d.openingPattern).2
    let r := { r with draft := r.draft.addText c.pos (c.scanUntil d.openingPattern).1 }
    if (atTag.scan d.openingPattern).1.isEmpty then r.finish source atTag.pos
    else
      match _htag : atTag.readTag d with
      | .error pos => .error (.malformed ⟨.unclosedTag d.shownClosing, pos, source⟩)
      | .ok (tag, next) =>
        match r.addTag source tag, tag.delimitersAfter d with
        | .error fault, _ => .error fault
        | .ok _, .error fault => .error fault
        | .ok r, .ok d => next.read source d r
termination_by c.rest.length
decreasing_by
  exact Nat.lt_of_lt_of_le (readTag_length_lt _htag) (scanUntil_length_le ..)

/-! ## Nesting -/

/-- An open block and the nodes read inside it so far, the latest first. -/
structure OpenBlock where
  isInverted : Bool
  key : String
  start : Nat
  bodyStart : Nat
  inside : List Node := []

/-- The node of a block whose closing tag starts at `bodyStop`. -/
def OpenBlock.close (b : OpenBlock) (bodyStop : Nat) : Node :=
  if b.isInverted then .inverted b.key b.start b.bodyStart b.inside.reverse bodyStop
  else .block b.key b.start b.bodyStart b.inside.reverse bodyStop

/-- What has been nested. -/
structure Nesting where
  /-- The open blocks, innermost first. -/
  openBlocks : List OpenBlock := []
  /-- The nodes outside all blocks, the latest first. -/
  done : List Node := []

namespace Nesting

/-- One more node, which belongs to the innermost open block. -/
def add (n : Nesting) (node : Node) : Nesting :=
  match n.openBlocks with
  | [] => { n with done := node :: n.done }
  | b :: outer => { n with openBlocks := { b with inside := node :: b.inside } :: outer }

def enter (n : Nesting) (isInverted : Bool) (t : Tag) : Nesting :=
  { n with openBlocks := ⟨isInverted, t.key, t.start, t.stop, []⟩ :: n.openBlocks }

/-- The innermost open block is closed; if none is open, nothing happens. -/
def leave (n : Nesting) (t : Tag) : Nesting :=
  match n.openBlocks with
  | [] => n
  | b :: outer => { n with openBlocks := outer }.add (b.close t.start)

def step (n : Nesting) : Part → Nesting
  | .text text start stop => n.add (.text text start stop)
  | .tag t margin =>
    match t.kind with
    | .escaped => n.add (.escaped t.key t.start t.stop)
    | .unescaped => n.add (.unescaped t.key t.start t.stop)
    | .inclusion => n.add (.inclusion t.key t.start t.stop margin)
    | .block => n.enter false t
    | .inverted => n.enter true t
    | .blockEnd => n.leave t
    | .comment | .delimiters => n

end Nesting

/-- The nodes that some parts make; a block that stays open is lost. -/
def nest (parts : List Part) : List Node := (parts.foldl Nesting.step {}).done.reverse

/-- The tree of a template. -/
def parse (d : Delimiters) (template : String) : Except Fault (List Node) :=
  ((Cursor.start template.toList).read template d {}).map fun draft => nest draft.squash

end TagTemplate
