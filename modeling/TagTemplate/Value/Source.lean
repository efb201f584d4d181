import TagTemplate.Fault
import TagTemplate.Json.Reader
import TagTemplate.Toml.Reader

/-!
# Views from text
-/

namespace TagTemplate.Value

def ofJsonText? (text : String) : Except Fault Value :=
  match Json.parse? text with
  | some doc => .ok (ofJson doc)
  | none => .error (.invalid .jsonView)

def ofTomlText? (text : String) : Except Fault Value :=
  match Toml.parse? text with
  | some entries => .ok (Toml.table false entries).toValue
  | none => .error (.invalid .tomlView)

end TagTemplate.Value
