import Wirepool.Memory.Runs
import Wirepool.Pool.Event
import Wirepool.Pool.SizeClass

/-!
# Pools

A pool owns *pages* and lends them. Pages are never given back to the system:
each class keeps a stack of the pages that are not lent, the page returned last
is lent first, and a page keeps its content between two loans.

**Generations.** Every loan of a pool has a number of its own, its generation,
counted from one. A page lies on a *slot* that holds the generation of the loan
it is out on, or zero while it is not. To return a page is to turn the slot
from that generation to zero, which works once: a second attempt finds zero or
the generation of somebody else.

**Slots and pages part ways** in one case only. A detached loan leaves its page
with the slot (`parked`) and gives out *tickets* to return it. When the last
ticket of a slot is gone and a page is still parked, nobody can return it any
more: the loan is lost, the slot is retired and the page goes back on a slot of
its own.
-/

namespace Wirepool

/-- **A page of a size class.** -/
structure Page where
  /-- The class it belongs to. -/
  sizeClass : SizeClass
  /-- Which page of its class it is, in order of creation. -/
  serial : Nat
  /-- Its content. -/
  block : Block
  /-- It is as large as its class says. -/
  size_eq : block.size = sizeClass.capacity
  deriving DecidableEq

namespace Page

/-- A fresh page. -/
def fresh (c : SizeClass) (serial : Nat) : Page := ⟨c, serial, .zeroed c.capacity, rfl⟩

/-- A page with other content of the same size. -/
def mapBlock (f : Block → Block) (hf : ∀ b, (f b).size = b.size) (page : Page) : Page :=
  { page with block := f page.block, size_eq := (hf page.block).trans page.size_eq }

/-- A page with its first `count` bytes cleared. -/
def clear (page : Page) (count : Nat) : Page :=
  page.mapBlock (fun block => block.clear 0 count) fun block => block.size_clear 0 count

end Page

/-- The page of a detached loan, with what has to be known of the loan. -/
structure Parked where
  page : Page
  /-- The length that was asked for. -/
  len : Nat
  /-- Whether it is known where the loan was made. -/
  traced : Bool
  deriving DecidableEq

/-- **The place where the generation of a page is kept.** -/
structure Slot where
  /-- The generation of the loan the page is out on, zero if there is none. -/
  generation : Nat := 0
  /-- The page itself, while its loan is detached. -/
  parked : Option Parked := none
  /-- The number of tickets in circulation, spent ones included. -/
  tickets : Nat := 0
  deriving DecidableEq

instance : Inhabited Slot := ⟨{}⟩

/-- A page that is not lent, with its slot. -/
structure Shelved where
  page : Page
  slot : Nat
  deriving DecidableEq

/-- **The pages of one class.** -/
structure Shelf where
  /-- The number of pages made so far. -/
  created : Nat := 0
  /-- The pages that are not lent, the one to be lent next in front. -/
  free : List Shelved := []
  deriving DecidableEq

instance : Inhabited Shelf := ⟨{}⟩

/-- **A pool.** -/
structure Pool where
  shelves : Vector Shelf classCount := Vector.replicate classCount {}
  slots : List Slot := []
  /-- The generation of the latest loan. -/
  generation : Nat := 0
  /-- The number of loans. -/
  borrowed : Nat := 0
  /-- The number of pages that came back, lost loans included. -/
  released : Nat := 0
  /-- The number of requests that were left to the system. -/
  bypassed : Nat := 0
  /-- The number of lost loans. -/
  leaked : Nat := 0
  deriving DecidableEq

instance : Inhabited Pool := ⟨{}⟩

/-- **A loan of a page.** The borrower holds the page while the loan lasts. -/
structure Lease where
  /-- The pool it belongs to, by number. -/
  home : Nat
  slot : Nat
  page : Page
  generation : Nat
  /-- The length that was asked for: the borrower sees that much of the page. -/
  len : Nat
  /-- Whether it is known where the loan was made. -/
  traced : Bool
  deriving DecidableEq

/-- **Memory in somebody's hands**: a page of a pool, or a block from the
system that nobody waits for. -/
inductive Loan where
  | unpooled (block : Block)
  | pooled (lease : Lease)
  deriving DecidableEq

namespace Loan

/-- A loan of nothing. -/
def idle : Loan := .unpooled (.zeroed 0)

/-- Whether the memory is a page of a pool. -/
def isPooled : Loan → Bool
  | unpooled _ => false
  | pooled _ => true

/-- The length of the visible memory. -/
def len : Loan → Nat
  | unpooled block => block.size
  | pooled lease => lease.len

/-- The length of the memory behind it. -/
def capacity : Loan → Nat
  | unpooled block => block.size
  | pooled lease => lease.page.block.size

/-- The generation, zero outside of pools. -/
def generation : Loan → Nat
  | unpooled _ => 0
  | pooled lease => lease.generation

/-- The memory behind it. -/
def block : Loan → Block
  | unpooled block => block
  | pooled lease => lease.page.block

/-- The loan with other content of the same size. -/
def mapBlock (f : Block → Block) (hf : ∀ b, (f b).size = b.size) : Loan → Loan
  | unpooled block => .unpooled (f block)
  | pooled lease => .pooled { lease with page := lease.page.mapBlock f hf }

/-- At most `count` visible bytes from `offset` on. -/
def read (loan : Loan) (offset count : Nat) : List UInt8 :=
  loan.block.read offset (min count (loan.len - offset))

/-- All visible bytes. -/
def view (loan : Loan) : List UInt8 := loan.read 0 loan.len

/-- The runs of at most `count` visible bytes from `offset` on. -/
def runs (loan : Loan) (offset count : Nat) : List (UInt8 × Nat) :=
  loan.block.runs offset (min count (loan.len - offset))

/-- Writes from `offset` on, cut off where the visible memory ends. -/
def write (loan : Loan) (offset : Nat) (row : List UInt8) : Loan :=
  loan.mapBlock (fun block => block.write offset (row.take (loan.len - offset)))
    fun block => block.size_write offset _

/-- Sets visible bytes to one value. -/
def fill (loan : Loan) (offset count : Nat) (value : UInt8) : Loan :=
  loan.mapBlock (fun block => block.fill offset (min count (loan.len - offset)) value)
    fun block => block.size_fill offset _ value

end Loan

namespace Pool

/-- The shelf of a class. -/
def shelf (p : Pool) (c : SizeClass) : Shelf := p.shelves.get c

/-- The pool with another shelf for a class. -/
def setShelf (p : Pool) (c : SizeClass) (shelf : Shelf) : Pool :=
  { p with shelves := p.shelves.set c.val shelf c.isLt }

/-! ## Figures -/

/-- The number of loans that are still out. -/
def outstanding (p : Pool) : Nat := p.borrowed - p.released

/-- **The figures of one class.** -/
structure ClassFigures where
  capacity : Nat
  created : Nat
  available : Nat
  deriving DecidableEq, Repr

/-- The figures of a class. -/
def classFigures (p : Pool) (c : SizeClass) : ClassFigures :=
  ⟨c.capacity, (p.shelf c).created, (p.shelf c).free.length⟩

/-- The figures of all classes in order of size. -/
def allFigures (p : Pool) : List ClassFigures :=
  (List.finRange classCount).map p.classFigures

/-! ## Slots and shelves -/

/-- The slot with a number. -/
def slotAt (p : Pool) (slot : Nat) : Slot := p.slots[slot]?.getD {}

/-- The pool with a slot changed. -/
def modifySlot (p : Pool) (slot : Nat) (f : Slot → Slot) : Pool :=
  { p with slots := p.slots.modify slot f }

/-- The pool with another generation on a slot. -/
def setGeneration (p : Pool) (slot generation : Nat) : Pool :=
  p.modifySlot slot fun s => { s with generation }

/-- The pool with a new slot behind the others. -/
def addSlot (p : Pool) : Pool :=
  { p with slots := p.slots ++ [{}] }

/-- The pool with a page back on top of its shelf, counted as released. -/
def shelve (p : Pool) (page : Page) (slot : Nat) : Pool :=
  let shelf := p.shelf page.sizeClass
  { p.setShelf page.sizeClass { shelf with free := ⟨page, slot⟩ :: shelf.free } with
    released := p.released + 1 }

end Pool

end Wirepool
