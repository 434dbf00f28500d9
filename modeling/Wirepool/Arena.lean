import Wirepool.Memory.Limits
import Wirepool.Pool.Store

/-!
# Arenas

An arena hands out many small slices and takes them all back at once. It
borrows *fragments* of one size from its pool and cuts slices off the current
one, front to back. A slice that is longer than a fragment gets memory of its
own and leaves the current fragment as it is; a slice that does not fit into
what is left of the current fragment opens the next one, and what is left is
given up. So the pool is asked once per fragment and not once per slice.

Slices are never given back one by one: they all end when the arena is reset,
released or dropped.
-/

namespace Wirepool

/-- **An arena.** -/
structure Arena where
  /-- The number of the pool it borrows from. -/
  home : Nat
  /-- The length of a fragment. -/
  size : Nat
  /-- The memory it holds, in order of acquisition. -/
  chunks : List Loan := []
  /-- The position of the current fragment among the chunks. It says nothing
  while nothing is left. -/
  current : Nat := 0
  /-- How much is left of the current fragment. -/
  left : Nat := 0
  /-- The sum of all lengths that were asked for. -/
  length : Nat := 0
  deriving DecidableEq

/-- **A slice of an arena**: a stretch of one of its chunks. -/
structure Slice where
  chunk : Nat
  offset : Nat
  length : Nat
  deriving DecidableEq, Repr

namespace Arena

open HolderM

/-- An arena that holds nothing yet. -/
def new (home size : Nat) : Arena := { home, size }

/-- **How a request is served.** -/
inductive Plan where
  /-- Without memory, since none is asked for. -/
  | nothing
  /-- By a chunk of its own, being longer than a fragment. -/
  | dedicated
  /-- From the next fragment, being longer than what is left. -/
  | opening
  /-- From the current fragment. -/
  | current
  deriving DecidableEq, Repr

/-- The plan for a request. -/
def plan (a : Arena) (len : Nat) : Plan :=
  if len = 0 then .nothing
  else if a.size < len then .dedicated
  else if a.left < len then .opening
  else .current

/-- The arena with another chunk. -/
def addChunk (a : Arena) (chunk : Loan) : Arena :=
  { a with chunks := a.chunks ++ [chunk] }

/-- The arena with another chunk, from which slices are cut from now on. -/
def openFragment (a : Arena) (chunk : Loan) : Arena :=
  { a.addChunk chunk with current := a.chunks.length, left := a.size }

/-- Cuts a slice off the current fragment. -/
def cut (a : Arena) (len : Nat) : Slice × Arena :=
  (⟨a.current, a.size - a.left, len⟩, { a with left := a.left - len })

/-- The arena with the memory of a slice changed. -/
def modifyChunk (a : Arena) (slice : Slice) (f : Loan → Loan) : Arena :=
  { a with chunks := a.chunks.modify slice.chunk f }

/-- At most `count` bytes of a slice from `offset` on. -/
def read (a : Arena) (slice : Slice) (offset count : Nat) : List UInt8 :=
  match a.chunks[slice.chunk]? with
  | some chunk => chunk.read (slice.offset + offset) (min count (slice.length - offset))
  | none => []

/-- The runs of at most `count` bytes of a slice from `offset` on. -/
def runs (a : Arena) (slice : Slice) (offset count : Nat) : List (UInt8 × Nat) :=
  match a.chunks[slice.chunk]? with
  | some chunk => chunk.runs (slice.offset + offset) (min count (slice.length - offset))
  | none => []

/-- The arena with `row` at the start of a slice, cut off where the slice
ends. -/
def write (a : Arena) (slice : Slice) (row : List UInt8) : Arena :=
  a.modifyChunk slice fun chunk => chunk.write slice.offset (row.take slice.length)

/-- The arena with a slice set to one value. -/
def fill (a : Arena) (slice : Slice) (value : UInt8) : Arena :=
  a.modifyChunk slice fun chunk => chunk.fill slice.offset slice.length value

/-! ## Actions -/

/-- Counts a request, before anything is done about it. A request is refused if
the sum would be no length any more. -/
def count (len : Nat) : HolderM Arena Unit := do
  let a ← now
  if wordLimit ≤ a.length + len then throw .lengthOverflow
  update fun a => ((), { a with length := a.length + len })

/-- **Asks for a slice.** It holds whatever the memory held before, unless
zeros are asked for, and then the slice is zero and nothing around it is. The
length counts even if the memory cannot be had. -/
def get (len : Nat) (zero : Bool) : HolderM Arena Slice := do
  count len
  let a ← now
  match a.plan len with
  | .nothing => return ⟨0, 0, 0⟩
  | .dedicated =>
    let chunk ← onStore (Store.borrow a.home len zero)
    update fun a => (⟨a.chunks.length, 0, len⟩, a.addChunk chunk)
  | .opening =>
    let chunk ← onStore (Store.borrow a.home a.size false)
    update fun a => ((), a.openFragment chunk)
    cutOff
  | .current => cutOff
where
  /-- Cuts the slice off and clears it on demand. -/
  cutOff : HolderM Arena Slice := update fun a =>
    let (slice, a) := a.cut len
    (slice, if zero then a.fill slice 0 else a)

/-- Copies bytes into a slice of their length. -/
def copy (row : List UInt8) : HolderM Arena Slice := do
  let slice ← get row.length false
  update fun a => (slice, a.write slice row)

/-- **Gives all memory back**, in order of acquisition. -/
def release (a : Arena) : StoreM Unit :=
  a.chunks.forM Store.release

/-- Ends all slices, gives all memory back and starts afresh. -/
def reset : HolderM Arena Unit := do
  let a ← now
  onStore a.release
  update fun a => ((), new a.home a.size)

/-- **Drops an arena** without giving its memory back, so all of it is lost, in
order of acquisition. -/
def drop (a : Arena) : StoreM Unit :=
  a.chunks.forM Store.lose

end Arena

end Wirepool
