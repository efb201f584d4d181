import TagTemplate.Engine.Options
import TagTemplate.Engine.Shelf
import TagTemplate.Text.Quoted

/-!
# Descriptions

Engines and options as people inspect them: the name of the thing and its fields in braces.
-/

namespace TagTemplate

def describeRecord (name : String) (fields : List (String × String)) : String :=
  name ++ " \x7b " ++ ", ".intercalate (fields.map fun (field, value) => field ++ ": " ++ value) ++
  " \x7d"

def describeOption : Option String → String
  | some text => "Some(" ++ text ++ ")"
  | none => "None"

def Delimiters.describe (d : Delimiters) : String :=
  describeRecord "Tags" [("open", quoted d.opening), ("close", quoted d.closing)]

/-- The options; of the escaping only whether it is the usual one. -/
def Options.describe (o : Options) : String :=
  describeRecord "RenderConfig"
    [("escape", quoted (if o.escape.isSome then "custom" else "default")),
     ("tags", describeOption (o.delimiters.map Delimiters.describe)),
     ("max_depth", describeOption (o.ceiling.map toString))]

def Engine.describe (e : Engine) : String :=
  describeRecord "Writer"
    [("tags", e.delimiters.describe), ("cached", if e.keepsTrees then "true" else "false")]

end TagTemplate
