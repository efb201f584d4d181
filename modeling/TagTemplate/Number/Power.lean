/-!
# Powers of two and of ten

The powers that number formats are made of, and the limits of numbers of 64 bits.
-/

namespace TagTemplate

def twoTo (n : Nat) : Nat := Nat.pow 2 n

def tenTo (n : Nat) : Nat := Nat.pow 10 n

/-- The first number that does not fit in 64 bits. -/
def wordLimit : Nat := twoTo 64

/-- The first number that does not fit in 64 bits of which one is a sign. -/
def signedLimit : Nat := twoTo 63

/-- An integer fits in 64 bits of which one is a sign. -/
def fitsSigned (n : Int) : Bool := -(signedLimit : Int) ≤ n && n < signedLimit

end TagTemplate
