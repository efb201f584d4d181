import TagTemplate.Template.Line

/-!
# Trees

What a template means: a list of nodes, with the blocks nested in each other. Positions are
bytes of the template.
-/

namespace TagTemplate

/-- A part of a template. -/
inductive Node where
  | text (text : String) (start stop : Nat)
  | escaped (key : String) (start stop : Nat)
  | unescaped (key : String) (start stop : Nat)
  /-- A part written as the value at `key` says; `start` and `bodyStart` bound its opening tag,
  and its closing tag starts at `bodyStop`. -/
  | block (key : String) (start bodyStart : Nat) (children : List Node) (bodyStop : Nat)
  /-- A part written where a block with this key is not. -/
  | inverted (key : String) (start bodyStart : Nat) (children : List Node) (bodyStop : Nat)
  /-- Another template, and the margin of the tag that names it. -/
  | inclusion (key : String) (start stop : Nat) (margin : Margin)
  deriving Repr

namespace Node

def key? : Node → Option String
  | text .. => none
  | escaped key .. | unescaped key .. | block key .. | inverted key .. | inclusion key .. => some key

def children : Node → List Node
  | block _ _ _ children _ | inverted _ _ _ children _ => children
  | _ => []

/-- The node itself and all nodes inside it, each before its children. -/
def flatten : Node → List Node
  | n@(.block _ _ _ children _) | n@(.inverted _ _ _ children _) => n :: flattenAll children
  | n => [n]
where
  flattenAll : List Node → List Node
    | [] => []
    | n :: ns => flatten n ++ flattenAll ns

/-! ## Equality -/

mutual

def decEq (a b : Node) : Decidable (a = b) :=
  match a, b with
  | .text w s e, .text w' s' e' => decidable_of_iff (w = w' ∧ s = s' ∧ e = e') (by simp)
  | .escaped k s e, .escaped k' s' e' => decidable_of_iff (k = k' ∧ s = s' ∧ e = e') (by simp)
  | .unescaped k s e, .unescaped k' s' e' => decidable_of_iff (k = k' ∧ s = s' ∧ e = e') (by simp)
  | .block k s b ns e, .block k' s' b' ns' e' | .inverted k s b ns e, .inverted k' s' b' ns' e' =>
    have := decEqAll ns ns'
    decidable_of_iff (k = k' ∧ s = s' ∧ b = b' ∧ ns = ns' ∧ e = e') (by simp)
  | .inclusion k s e m, .inclusion k' s' e' m' =>
    decidable_of_iff (k = k' ∧ s = s' ∧ e = e' ∧ m = m') (by simp)
  | .text .., .escaped .. | .text .., .unescaped .. | .text .., .block .. | .text .., .inverted ..
  | .text .., .inclusion .. | .escaped .., .text .. | .escaped .., .unescaped ..
  | .escaped .., .block .. | .escaped .., .inverted .. | .escaped .., .inclusion ..
  | .unescaped .., .text .. | .unescaped .., .escaped .. | .unescaped .., .block ..
  | .unescaped .., .inverted .. | .unescaped .., .inclusion .. | .block .., .text ..
  | .block .., .escaped .. | .block .., .unescaped .. | .block .., .inverted ..
  | .block .., .inclusion .. | .inverted .., .text .. | .inverted .., .escaped ..
  | .inverted .., .unescaped .. | .inverted .., .block .. | .inverted .., .inclusion ..
  | .inclusion .., .text .. | .inclusion .., .escaped .. | .inclusion .., .unescaped ..
  | .inclusion .., .block .. | .inclusion .., .inverted .. => isFalse nofun

def decEqAll (as bs : List Node) : Decidable (as = bs) :=
  match as, bs with
  | [], [] => isTrue rfl
  | a :: as, b :: bs =>
    have := decEq a b
    have := decEqAll as bs
    decidable_of_iff (a = b ∧ as = bs) (by simp)
  | [], _ :: _ | _ :: _, [] => isFalse nofun

end

instance : DecidableEq Node := decEq

end Node

end TagTemplate
