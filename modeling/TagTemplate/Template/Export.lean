import TagTemplate.Json.Document
import TagTemplate.Template.Node

/-!
# Trees as JSON
-/

namespace TagTemplate.Node

def leafToJson (kind key : String) (start stop : Nat) (more : List (String × Json)) : Json :=
  .object ([("type", .string kind), ("key", .string key), ("start", .int start),
    ("end", .int stop)] ++ more)

def blockToJson (kind key : String) (start bodyStart : Nat) (children : List Json)
    (bodyStop : Nat) : Json :=
  .object [("type", .string kind), ("key", .string key), ("start", .int start),
    ("body_start", .int bodyStart), ("children", .array children), ("body_end", .int bodyStop)]

mutual

/-- The JSON form of a node: its kind, then its parts in the order of the text. -/
def toJson : Node → Json
  | .text words start stop =>
    .object [("type", .string "text"), ("text", .string words), ("start", .int start),
      ("end", .int stop)]
  | .escaped key start stop => leafToJson "name" key start stop []
  | .unescaped key start stop => leafToJson "unescaped" key start stop []
  | .block key start bodyStart children bodyStop =>
    blockToJson "section" key start bodyStart (listToJson children) bodyStop
  | .inverted key start bodyStart children bodyStop =>
    blockToJson "inverted" key start bodyStart (listToJson children) bodyStop
  | .inclusion key start stop margin =>
    leafToJson "partial" key start stop
      [("indentation", .string (String.ofList margin.indentation)),
       ("tag_index", .int margin.tagIndex), ("line_has_non_space", .bool margin.afterText)]

def listToJson : List Node → List Json
  | [] => []
  | n :: ns => n.toJson :: listToJson ns

end

end TagTemplate.Node
