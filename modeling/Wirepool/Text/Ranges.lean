/-!
# Sets of characters by ranges

A property of characters is given by the ranges of code points that have it, in
ascending order, both ends included.
-/

namespace Wirepool

/-- **A set of characters**, by ranges of code points. -/
structure CharSet where
  ranges : List (Nat × Nat)

/-- Whether a character is in the set. -/
def CharSet.contains (s : CharSet) (c : Char) : Bool :=
  s.ranges.any fun range => range.1 ≤ c.toNat && c.toNat ≤ range.2

end Wirepool
