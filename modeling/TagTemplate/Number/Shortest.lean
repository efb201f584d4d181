import TagTemplate.Number.Binary64

/-!
# Shortest decimals

The decimal with the fewest digits that reads back as a given double. A double stands for the
reals that round to it; the decimals `c * 10 ^ e` of one `e` form a grid, and the coarsest grid
with a point among these reals gives the answer. A grid has at most two candidates, the neighbours
of the double's exact value.
-/

namespace TagTemplate

/-- `coefficient * 10 ^ exponent`. -/
structure Decimal where
  coefficient : Nat
  exponent : Int
  deriving DecidableEq, Repr

namespace Binary64

/-- Exact value and rounding interval of a positive double, in quarters of the unit. -/
structure Neighbourhood where
  lower : Nat
  value : Nat
  upper : Nat
  /-- The two ends round to the double as well. -/
  closed : Bool
  deriving DecidableEq, Repr

/-- The reals that round to `coefficient * 2 ^ scale` units. Below a power of two the doubles
lie twice as dense. -/
def neighbourhood (coefficient scale : Nat) : Neighbourhood :=
  let value := coefficient * twoTo (scale + 2)
  { lower := value -
      if coefficient = twoTo fractionBits ∧ 0 < scale then twoTo scale else twoTo (scale + 1)
    value
    upper := value + twoTo (scale + 1)
    closed := coefficient % 2 = 0 }

/-- The point lies in the interval, all three scaled by the same factor. -/
def Neighbourhood.holds (n : Neighbourhood) (factor point : Nat) : Bool :=
  if n.closed then n.lower * factor ≤ point && point ≤ n.upper * factor
  else n.lower * factor < point && point < n.upper * factor

/-- The finest grid considered is `10 ^ -gridOffset`. -/
def gridOffset : Nat := 350

/-- The number of grids considered. -/
def gridCount : Nat := 700

/-- The point of the grid `10 ^ (i - gridOffset)` that reads back, the nearer of two, the upper
one on a tie. -/
def Neighbourhood.onGrid? (n : Neighbourhood) (i : Nat) : Option Nat :=
  let factor := tenTo gridOffset
  let step := tenTo i * twoTo (unitExponent + 2)
  let below := n.value * factor / step
  let hasBelow := n.holds factor (below * step)
  let hasAbove := n.holds factor ((below + 1) * step)
  if hasAbove && (!hasBelow || step ≤ 2 * (n.value * factor % step)) then some (below + 1)
  else if hasBelow then some below
  else none

/-- The answer on the coarsest of the first `i` grids that has one. -/
def Neighbourhood.coarsest (n : Neighbourhood) : Nat → Decimal
  | 0 => ⟨0, 0⟩
  | i + 1 =>
    match n.onGrid? i with
    | some c => ⟨c, (i : Int) - gridOffset⟩
    | none => n.coarsest i

/-- The shortest decimal of `coefficient * 2 ^ scale` units. -/
def shortest (coefficient scale : Nat) : Decimal :=
  (neighbourhood coefficient scale).coarsest gridCount

end Binary64

end TagTemplate
