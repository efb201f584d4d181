/-!
# Tables of ranges

A class of characters is a table: the ranges of their numbers, in ascending order. The search
goes through the table and stops at the first range that begins after the number.
-/

namespace TagTemplate

/-- The number lies in one of the ranges, each given by its first and its last number. -/
def inRanges (n : Nat) : List (Nat × Nat) → Bool
  | [] => false
  | (first, last) :: rest => first ≤ n && (n ≤ last || inRanges n rest)

end TagTemplate
