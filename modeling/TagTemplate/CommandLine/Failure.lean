import TagTemplate.Project.Settings

/-!
# Failures of commands

Why a command ends without its result, and how that is said.
-/

namespace TagTemplate

/-- Why a command fails. -/
inductive Failure where
  | settings (fault : SettingsFault)
  | engine (fault : Fault)
  | file (fault : FileFault)
  | unreadable (path : Path) (fault : FileFault)
  | unwritable (path : Path) (fault : FileFault)
  /-- A check that found errors. -/
  | badProject (errors warnings : Nat)
  deriving DecidableEq, Repr

namespace Failure

/-- What the failure is. -/
def heading : Failure → String
  | settings fault => fault.message
  | engine fault => fault.message
  | file fault => fault.message
  | unreadable path _ => "读取 " ++ path.text ++ " 失败"
  | unwritable path _ => "写入 " ++ path.text ++ " 失败"
  | badProject errors warnings =>
    "检查未通过：" ++ toString errors ++ " 个错误，" ++ toString warnings ++ " 个警告"

/-- What lies behind it. -/
def cause? : Failure → Option String
  | unreadable _ fault | unwritable _ fault => some fault.message
  | _ => none

def message (f : Failure) : String :=
  match f.cause? with
  | some cause => f.heading ++ "\n\nCaused by:\n    " ++ cause
  | none => f.heading

end Failure

end TagTemplate
