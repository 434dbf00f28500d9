import Wirepool.Buffer

/-!
# A buffer as a byte stream

Readers of byte streams take it for the end when nothing is delivered, so here
a read at the end delivers nothing instead of failing. All else is as for the
buffer itself; other faults surface under the classes of `StreamFailure`.
-/

namespace Wirepool

namespace Buffer

/-- Reads at the cursor, nothing at the end. -/
def streamRead (b : Buffer) (memory : List UInt8) : Except Fault (Nat × List UInt8) × Buffer :=
  match b.read memory with
  | (.error .endOfData, b) => (.ok (0, memory), b)
  | answer => answer

/-- Reads everything from the cursor on. -/
def streamReadAll (b : Buffer) : Except Fault (List UInt8) × Buffer :=
  match b.streamRead (List.replicate (b.length - b.offset) 0) with
  | (.ok (count, memory), b) => (.ok (memory.take count), b)
  | (.error fault, b) => (.error fault, b)

end Buffer

end Wirepool
