import Wirepool.Memory.Limits
import Wirepool.Pool.Store

/-!
# Chunked buffers

A buffer is a row of bytes that grows at its end and is read and written
anywhere. Its memory is a row of chunks of one size, borrowed from a pool as
needed and never moved: the byte at position `i` stands in chunk `i / size`.

Memory from a pool holds whatever was there before. A write that starts behind
the end therefore clears the gap it leaves first, so that no byte of the buffer
is one that nobody has put there.

Positions are 64-bit numbers. The cursor may stand anywhere, also far behind
the end.
-/

namespace Wirepool

namespace Chunks

/-- **A stretch of a row of chunks that lies in one of them.** -/
structure Part where
  chunk : Nat
  /-- Where it starts in its chunk. -/
  within : Nat
  bytes : List UInt8
  deriving DecidableEq, Repr

/-- The parts of `count` bytes from `offset` on, where the first chunk given is
the one with number `first`. -/
def parts (size : Nat) : (first : Nat) → List Loan → (offset count : Nat) → List Part
  | _, [], _, _ => []
  | first, chunk :: chunks, offset, count =>
    if count = 0 then []
    else if size ≤ offset then parts size (first + 1) chunks (offset - size) count
    else
      let here := min (size - offset) count
      ⟨first, offset, chunk.read offset here⟩ :: parts size (first + 1) chunks 0 (count - here)

/-- The chunks with `count` bytes from `offset` on cleared. -/
def clear (size : Nat) : List Loan → (offset count : Nat) → List Loan
  | [], _, _ => []
  | chunk :: chunks, offset, count =>
    if count = 0 then chunk :: chunks
    else if size ≤ offset then chunk :: clear size chunks (offset - size) count
    else
      let here := min (size - offset) count
      chunk.fill offset here 0 :: clear size chunks 0 (count - here)

/-- The chunks with `row` written from `offset` on. -/
def write (size : Nat) : List Loan → (offset : Nat) → List UInt8 → List Loan
  | [], _, _ => []
  | chunk :: chunks, offset, row =>
    if row.isEmpty then chunk :: chunks
    else if size ≤ offset then chunk :: write size chunks (offset - size) row
    else
      let here := size - offset
      chunk.write offset (row.take here) :: write size chunks 0 (row.drop here)

/-- Where in their window the parts start that stand in a row from `location`
on. -/
def locate : (location : Nat) → List Part → List (Nat × Part)
  | _, [] => []
  | location, part :: parts => (location, part) :: locate (location + part.bytes.length) parts

end Chunks

/-- **A chunked buffer.** -/
structure Buffer where
  /-- The number of the pool it borrows from. -/
  home : Nat
  /-- The length of a chunk. -/
  chunkSize : Nat
  /-- Chunks of no bytes could never hold anything. -/
  chunkSize_pos : 0 < chunkSize
  /-- The cursor of streaming reads and writes. -/
  offset : Nat := 0
  /-- The number of bytes. -/
  length : Nat := 0
  /-- The memory, first chunk first. -/
  chunks : List Loan := []
  deriving DecidableEq

/-- **Where a seek counts from.** -/
inductive Origin where
  | start
  | current
  | ending
  deriving DecidableEq, Repr

namespace Buffer

open HolderM

/-- **An empty buffer**, unless its chunks would be of no bytes. -/
def new (home chunkSize : Nat) : Except Abort Buffer :=
  if h : 0 < chunkSize then .ok { home, chunkSize, chunkSize_pos := h } else .error .emptyChunk

/-- **All bytes of a buffer.** -/
def content (b : Buffer) : List UInt8 :=
  (Chunks.parts b.chunkSize 0 b.chunks 0 b.length).flatMap Chunks.Part.bytes

/-- The number of chunks that hold so many bytes. -/
def chunksFor (b : Buffer) (length : Nat) : Nat :=
  (length + b.chunkSize - 1) / b.chunkSize

/-! ## What only looks at a buffer or moves its cursor -/

/-- At most `limit` bytes from `offset` on. At the end and behind it there is
nothing to read, not even nothing. -/
def readAt (b : Buffer) (offset limit : Nat) : Except Fault (List UInt8) :=
  if b.length ≤ offset then .error .endOfData
  else
    .ok ((Chunks.parts b.chunkSize 0 b.chunks offset (min (b.length - offset) limit)).flatMap
      Chunks.Part.bytes)

/-- Reads into memory of the caller, which stays as it is behind what was read.
Gives the number of bytes read and the memory afterwards. -/
def readInto (b : Buffer) (offset : Nat) (memory : List UInt8) :
    Except Fault (Nat × List UInt8) :=
  (b.readAt offset memory.length).map fun row => (row.length, row ++ memory.drop row.length)

/-- Reads at the cursor and moves it behind what was read. -/
def read (b : Buffer) (memory : List UInt8) : Except Fault (Nat × List UInt8) × Buffer :=
  match b.readInto b.offset memory with
  | .ok (count, memory) => (.ok (count, memory), { b with offset := b.offset + count })
  | .error fault => (.error fault, b)

/-- **The parts of a window**, cut off where the buffer ends. -/
def range (b : Buffer) (offset count : Nat) : List Chunks.Part :=
  Chunks.parts b.chunkSize 0 b.chunks offset (min count (b.length - offset))

/-- **Moves the cursor** and gives its new position, which must be one. -/
def seek (b : Buffer) (origin : Origin) (delta : Int) : Except Fault Nat × Buffer :=
  let base : Nat := match origin with
    | .start => 0
    | .current => b.offset
    | .ending => b.length
  let target := base + delta
  if 0 ≤ target ∧ target < wordLimit then (.ok target.toNat, { b with offset := target.toNat })
  else (.error .invalidOffset, b)

/-! ## What needs memory -/

/-- Borrows chunks and puts them behind the others. -/
def addChunks (count : Nat) : HolderM Buffer Unit := do
  let b ← now
  let chunks ← onStore ((List.replicate count b.chunkSize).mapM fun size =>
    Store.borrow b.home size false)
  update fun b => ((), { b with chunks := b.chunks ++ chunks })

/-- Makes room for a length. -/
def grow (length : Nat) : HolderM Buffer Unit := do
  let b ← now
  if b.length < length then
    addChunks (b.chunksFor length - b.chunks.length)
    update fun b => ((), { b with length })

/-- **Writes at a position** and gives the number of bytes written. Whatever
lies between the end and the position becomes zero. A write that would end
behind the last position is refused. -/
def writeAt (row : List UInt8) (offset : Nat) : HolderM Buffer (Except Fault Nat) := do
  let finish := offset + row.length
  if wordLimit ≤ finish then return .error .invalidOffset
  let before := (← now).length
  grow finish
  update fun b =>
    let cleared := Chunks.clear b.chunkSize b.chunks before (offset - before)
    ((), { b with chunks := Chunks.write b.chunkSize cleared offset row })
  return .ok row.length

/-- Writes at the cursor and moves it behind what was written. -/
def write (row : List UInt8) : HolderM Buffer (Except Fault Nat) := do
  match ← writeAt row (← now).offset with
  | .ok count =>
    update fun b => ((), { b with offset := b.offset + count })
    return .ok count
  | .error fault => return .error fault

/-- Gives all memory back, first chunk first. -/
def release (b : Buffer) : StoreM Unit :=
  b.chunks.forM Store.release

/-- **Drops a buffer** without giving its memory back, so all of it is lost,
first chunk first. -/
def drop (b : Buffer) : StoreM Unit :=
  b.chunks.forM Store.lose

end Buffer

end Wirepool
