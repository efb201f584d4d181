import TagTemplate.Text.Lines

/-!
# Faults

What can go wrong when a template is read or rendered, as causes. The wording of every message
is here and nowhere else.
-/

namespace TagTemplate

/-- Why an argument is refused. -/
inductive BadArgument where
  /-- One of two delimiters is empty. -/
  | emptyDelimiter (opening closing : String)
  /-- A text that does not hold exactly two words. -/
  | delimiterPair (text : String)
  /-- A list of delimiters that does not have two members. -/
  | delimiterCount (count : Nat)
  /-- A template that is not a string. -/
  | templateKind (kind : String)
  | jsonView
  | tomlView
  /-- Data that has no form as a view. -/
  | unrepresentable
  /-- A reason given by a callable. -/
  | custom (reason : String)
  deriving DecidableEq, Repr

def BadArgument.message : BadArgument → String
  | .emptyDelimiter opening closing => "分隔符不能为空：" ++ opening ++ " " ++ closing
  | .delimiterPair text => "无效的分隔符：" ++ text
  | .delimiterCount count => "分隔符必须是两个元素，实际为 " ++ toString count ++ " 个"
  | .templateKind kind => "模板必须是 \"string\"，实际传入的是 \"" ++ kind ++ "\""
  | .jsonView => "JSON 视图解析失败："
  | .tomlView => "TOML 视图解析失败："
  | .unrepresentable => "无法序列化视图数据："
  | .custom reason => reason

/-- What is wrong with the text of a template. -/
inductive SyntaxProblem where
  /-- A tag without its closing delimiter, given as it is shown. -/
  | unclosedTag (closing : String)
  /-- A closing tag where no block is open. -/
  | unopenedBlock (key : String)
  /-- A closing tag for another block than the innermost open one. -/
  | crossedBlock (opened closed : String)
  /-- A block that is open at the end. -/
  | unclosedBlock (key : String)
  /-- A problem in a caller's own words. -/
  | custom (detail : String)
  deriving DecidableEq, Repr

def SyntaxProblem.message : SyntaxProblem → String
  | .unclosedTag closing => "未闭合的标签，缺少 '" ++ closing ++ "'"
  | .unopenedBlock key => "区块 \"" ++ key ++ "\" 没有对应的开始标签"
  | .crossedBlock opened closed =>
    "区块 \"" ++ opened ++ "\" 未闭合，遇到了 \"" ++ closed ++ "\" 的结束标签"
  | .unclosedBlock key => "区块 \"" ++ key ++ "\" 未闭合"
  | .custom detail => detail

/-- A problem at a byte position of a template. -/
structure SyntaxFault where
  problem : SyntaxProblem
  pos : Nat
  source : String
  deriving DecidableEq, Repr

namespace SyntaxFault

/-- Where the problem is, for people. -/
def place (f : SyntaxFault) : LineColumn := lineColumn f.source.toList f.pos

def shown (f : SyntaxFault) : String := excerpt f.source.toList f.place.line

/-- Heading, place, excerpt and problem. -/
def message (f : SyntaxFault) : String :=
  "模板语法错误\n  → " ++ toString f.place.line ++ ":" ++ toString f.place.column ++ "\n\n" ++
  f.shown ++ "  错误：" ++ f.problem.message

end SyntaxFault

/-- A request that is understood and cannot be met. -/
inductive Unsupported where
  /-- A block callable in a tree whose template text is not at hand. -/
  | noSource
  /-- A block whose body lies outside the template text at hand. -/
  | bodyOutside (key : String) (start stop : Nat)
  deriving DecidableEq, Repr

def Unsupported.message : Unsupported → String
  | .noSource => "缺少原始模板，无法使用高阶区块"
  | .bodyOutside key start stop =>
    "区块 \"" ++ key ++ "\" 的偏移 " ++ toString start ++ ".." ++ toString stop ++
    " 超出原始模板范围"

/-- Why a template was not read or not rendered. -/
inductive Fault where
  | invalid (reason : BadArgument)
  | malformed (fault : SyntaxFault)
  | unsupported (reason : Unsupported)
  /-- Nesting beyond the ceiling. -/
  | tooDeep (ceiling : Nat)
  deriving DecidableEq, Repr

namespace Fault

def message : Fault → String
  | .invalid reason => "参数无效：" ++ reason.message
  | .malformed fault => fault.message
  | .unsupported reason => "不支持的操作：" ++ reason.message
  | .tooDeep ceiling => "渲染嵌套层级超过上限 " ++ toString ceiling

def kindName : Fault → String
  | .invalid _ => "InvalidArgument"
  | .malformed _ => "Syntax"
  | .unsupported _ => "Unsupported"
  | .tooDeep _ => "RecursionLimit"

end Fault

section

variable {ε α β : Type}

@[simp] theorem ok_bind (a : α) (f : α → Except ε β) : (Except.ok a >>= f) = f a := rfl

@[simp] theorem error_bind (fault : ε) (f : α → Except ε β) :
    (Except.error fault >>= f) = .error fault := rfl

theorem bind_eq_ok {x : Except ε α} {f : α → Except ε β} {b : β} (h : x >>= f = .ok b) :
    ∃ a, x = .ok a ∧ f a = .ok b := by
  cases x with
  | error fault => cases h
  | ok a => exact ⟨a, rfl, h⟩

end

end TagTemplate
