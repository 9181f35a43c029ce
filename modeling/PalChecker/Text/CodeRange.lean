/-! # Sets of characters, given by ranges of code points -/

namespace PalChecker

/-- From `first` to `last`, both included. -/
structure CodeRange where
  first : Nat
  last : Nat

namespace CodeRange

/-- The code point of `c` lies in one of the ranges. -/
def cover (ranges : List CodeRange) (c : Char) : Bool :=
  ranges.any fun r => r.first ≤ c.toNat && c.toNat ≤ r.last

end CodeRange

end PalChecker
