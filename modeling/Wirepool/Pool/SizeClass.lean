/-!
# Size classes

A pool keeps pages of sixteen sizes, each twice the one before, from 1 KiB to
32 MiB. A request is served from the smallest class that holds it. Requests of
a few bytes are not worth a page, requests beyond the largest class have none:
both *bypass* the pool.

The class of a length is read off a bit length: `len - 1` has more than ten
bits exactly when `len` is more than 1024, and each further bit is one more
doubling.
-/

namespace Wirepool

/-- The number of size classes. -/
def classCount : Nat := 16

/-- A size class, by its position from the smallest one. -/
abbrev SizeClass := Fin classCount

namespace SizeClass

/-- The shortest length that is served from a page. -/
def minLength : Nat := 9

/-- The size of the pages of a class. -/
def capacity (c : SizeClass) : Nat := 1024 <<< c.val

/-- The longest length that is served from a page. -/
def maxLength : Nat := 1024 <<< (classCount - 1)

/-- **The class that serves a length**, if one does. -/
def ofLength? (len : Nat) : Option SizeClass :=
  if minLength ≤ len ∧ len ≤ maxLength then
    let position := (len - 1).log2 - 9
    if h : position < classCount then some ⟨position, h⟩ else none
  else none

/-- The class of a given page size, if there is one. -/
def ofCapacity? (capacity : Nat) : Option SizeClass :=
  (List.finRange classCount).find? fun c => c.capacity = capacity

end SizeClass

end Wirepool
