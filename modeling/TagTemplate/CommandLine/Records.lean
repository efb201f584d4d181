import TagTemplate.Engine.Shelf
import TagTemplate.Log.Record
import TagTemplate.Project.Partials

/-!
# What an engine tells

The log records of what an engine did, made from its journal, and the parts of the program that
records come from.
-/

namespace TagTemplate

/-- The part of the program that runs commands. -/
def commandTarget : String := "stache"

/-- The part that reads settings. -/
def settingsTarget : String := "stache::config"

/-- The part that reads templates. -/
def engineTarget : String := "stache::mustache::writer"

/-- The part that reads texts to include. -/
def partialsTarget : String := "stache::mustache::partials"

/-- What is told about a text that was asked for: nothing if it could be read. -/
def PartialFolder.record? (f : PartialFolder) (fs : FileSystem) (name : String) :
    Option LogRecord :=
  let path := f.path name
  match fs.read path with
  | .ok _ => none
  | .error .missing =>
    some ⟨.debug, partialsTarget, "子模板 " ++ name ++ " 不存在：" ++ path.text⟩
  | .error fault =>
    some ⟨.warning, partialsTarget, "读取子模板 " ++ path.text ++ " 失败：" ++ fault.message⟩

def Event.record? (asked : String → Option LogRecord) : Event → Option LogRecord
  | .reused template _ => some ⟨.trace, engineTarget,
      "模板缓存命中（" ++ toString (byteLength template.toList) ++ " 字节）"⟩
  | .reading template d => some ⟨.debug, engineTarget,
      "解析模板（" ++ toString (byteLength template.toList) ++ " 字节，分隔符 " ++ d.display ++ "）"⟩
  | .asked name => asked name
  | .kept .. | .cleared => none

def Shelf.records (shelf : Shelf) (asked : String → Option LogRecord) : List LogRecord :=
  shelf.journal.reverse.filterMap (Event.record? asked)

end TagTemplate
