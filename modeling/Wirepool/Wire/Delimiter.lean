/-!
# Delimiters

A delimited field ends where its delimiter *first* occurs. The search looks at
every position in turn, so occurrences that overlap themselves or the payload
are found where they start.
-/

namespace Wirepool

namespace Delimiter

/-- Searches on after `before` positions without an occurrence. -/
def findFrom (d : List UInt8) : (before : Nat) → List UInt8 → Option Nat
  | before, [] => if d.isEmpty then some before else none
  | before, b :: rest =>
    if d.isPrefixOf (b :: rest) then some before else findFrom d (before + 1) rest

/-- **The position of the first occurrence** of `d` in the input. -/
def find? (d input : List UInt8) : Option Nat := findFrom d 0 input

end Delimiter

end Wirepool
