/-!
# The limits of the machine

Lengths and positions are 64-bit numbers, and addresses span half of that. The
library counts with natural numbers and compares with these limits where they
matter.
-/

namespace Wirepool

/-- The first number that a length or a position cannot be. -/
def wordLimit : Nat := 1 <<< 64

/-- The first size of memory that addresses cannot span. -/
def addressLimit : Nat := 1 <<< 63

end Wirepool
