import TagTemplate.Engine.Options
import TagTemplate.FileSystem

/-!
# Texts to include from a folder
-/

namespace TagTemplate

/-- A folder with texts to include, one file a name. -/
structure PartialFolder where
  root : Path
  /-- Follows each name; an empty one leaves the names as they are. -/
  extension : String
  deriving Repr

namespace PartialFolder

def fileName (f : PartialFolder) (name : String) : String :=
  if f.extension = "" then name else name ++ "." ++ f.extension

def path (f : PartialFolder) (name : String) : Path := f.root.join (.ofText (f.fileName name))

/-- The texts that can be read. -/
def inclusions (f : PartialFolder) (fs : FileSystem) : Inclusions := fun name =>
  match fs.read (f.path name) with
  | .ok text => some text
  | .error _ => none

end PartialFolder

end TagTemplate
