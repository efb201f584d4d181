import TagTemplate.Log.Rule

/-!
# Which records are shown

A filter is written as rules with commas between them. Of the rules about a record, the one with
the longest target decides.
-/

namespace TagTemplate

/-- Rules in the order in which they were given. -/
abbrev LogFilter := List LogRule

namespace LogFilter

/-- The pieces between commas that are not empty. -/
def pieces (text : String) : List (List Char) :=
  (splitOn ',' text.toList).filter (· ≠ [])

/-- The filter that a text denotes, if all its pieces are rules. Without any, nothing is shown. -/
def ofText? (text : String) : Option LogFilter :=
  ((pieces text).mapM fun piece => (LogRule.ofText piece).toOption).map (·.filterMap id)

/-- The filter of those pieces of a text that are rules; without any, one for errors only. -/
def ofRules (text : String) : LogFilter :=
  let found := (pieces text).filterMap fun piece => (LogRule.ofText piece).toOption
  if found.isEmpty then [{ bound := LogLevel.error.rank }] else found.filterMap id

/-- The pieces of a text that are no rules, each with the reason. -/
def faults (text : String) : List (String × RuleFault) :=
  (pieces text).filterMap fun piece =>
    match LogRule.ofText piece with
    | .ok _ => none
    | .error fault => some (String.ofList piece, fault)

/-- The rule that decides on a target: the weightiest; of equal ones the last. -/
def deciding? (f : LogFilter) (target : String) : Option LogRule :=
  f.foldl (fun best rule =>
    if rule.covers target ∧ ∀ other ∈ best, other.weight ≤ rule.weight then some rule
    else best) none

def shows (f : LogFilter) (r : LogRecord) : Bool :=
  match f.deciding? r.target with
  | some rule => r.level.rank ≤ rule.bound
  | none => false

end LogFilter

end TagTemplate
