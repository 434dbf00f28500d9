import Wirepool.Pool.Basic

/-!
# Lending

How loans are made and how they end. A loan ends in one of two ways: its
holder gives it back, or it is lost and the pool takes the page back by itself,
with an event that says so. A detached loan ends through its tickets.

Whatever a pool does is a `Transaction`: what it leaves behind, what it tells
and what it answers. An aborted transaction leaves a pool behind too.
-/

namespace Wirepool

/-- **What comes of an operation on a pool.** -/
structure Transaction (α : Type) where
  pool : Pool
  events : List Event
  result : Except Abort α

namespace Pool

/-! ## Borrowing -/

/-- The page to be lent next from a class: the one on top of the shelf, or a
fresh one on a slot of its own if the shelf is empty. -/
def acquire (p : Pool) (c : SizeClass) : Transaction Shelved :=
  let shelf := p.shelf c
  match shelf.free with
  | top :: free => ⟨p.setShelf c { shelf with free }, [], .ok top⟩
  | [] =>
    let created := shelf.created + 1
    ⟨p.addSlot.setShelf c { shelf with created }, [.grew c.val c.capacity created],
      .ok ⟨.fresh c shelf.created, p.slots.length⟩⟩

/-- A page is lent under the next generation. Its slot must not hold one. -/
def lend (p : Pool) (home : Nat) (shelved : Shelved) (len : Nat) (zero traced : Bool) :
    Transaction Loan :=
  let generation := p.generation + 1
  let p := { p with generation }
  if (p.slotAt shelved.slot).generation = 0 then
    let page := if zero then shelved.page.clear len else shelved.page
    ⟨{ p.setGeneration shelved.slot generation with borrowed := p.borrowed + 1 }, [],
      .ok (.pooled ⟨home, shelved.slot, page, generation, len, traced⟩)⟩
  else ⟨p, [], .error .generationMismatch⟩

/-- **Borrows memory of a given length** from the pool with the number `home`.
The memory holds whatever the last holder of the page left in it, unless zeros
are asked for, and then it is zero as far as it is visible. Memory from the
system is always zero. -/
def borrow (p : Pool) (home len : Nat) (zero traced : Bool) : Transaction Loan :=
  match SizeClass.ofLength? len with
  | none =>
    ⟨{ p with bypassed := p.bypassed + 1 }, [.bypassed len], (Block.allocate len).map .unpooled⟩
  | some c =>
    let acquired := p.acquire c
    match acquired.result with
    | .error abort => ⟨acquired.pool, acquired.events, .error abort⟩
    | .ok shelved =>
      let lent := acquired.pool.lend home shelved len zero traced
      ⟨lent.pool, acquired.events ++ lent.events, lent.result⟩

/-! ## Giving back -/

/-- Takes a page back, if its slot still holds the generation of the loan. -/
def reclaim (p : Pool) (lease : Lease) : Transaction Unit :=
  if (p.slotAt lease.slot).generation = lease.generation then
    ⟨(p.setGeneration lease.slot 0).shelve lease.page lease.slot, [], .ok ()⟩
  else ⟨p, [], .error .generationMismatch⟩

/-- The report on a lost loan. -/
def leakReport (lease : Lease) : LeakReport :=
  ⟨lease.page.block.size, lease.len, lease.generation, lease.traced⟩

/-- **A loan is lost**: that is counted and told, and then the page is taken
back all the same. -/
def lose (p : Pool) (lease : Lease) : Transaction Unit :=
  let reclaimed := { p with leaked := p.leaked + 1 }.reclaim lease
  { reclaimed with events := .leaked (leakReport lease) :: reclaimed.events }

/-! ## Tickets -/

/-- **A detached loan leaves its page with the slot**, and one ticket is out. -/
def park (p : Pool) (lease : Lease) : Pool :=
  p.modifySlot lease.slot fun s =>
    { s with parked := some ⟨lease.page, lease.len, lease.traced⟩, tickets := s.tickets + 1 }

/-- Another ticket of the same kind is out. -/
def copyTicket (p : Pool) (slot : Nat) : Pool :=
  p.modifySlot slot fun s => { s with tickets := s.tickets + 1 }

/-- The last ticket of a slot is gone. If a page is still parked there its loan
is lost: the slot is retired, and the page goes back on a new one. -/
def retire (p : Pool) (slot : Nat) : Transaction Unit :=
  let s := p.slotAt slot
  match s.parked with
  | none => ⟨p, [], .ok ()⟩
  | some parked =>
    if s.generation = 0 then ⟨p, [], .ok ()⟩
    else
      let report : LeakReport :=
        ⟨parked.page.block.size, parked.len, s.generation, parked.traced⟩
      let p := { p with leaked := p.leaked + 1 }.modifySlot slot fun _ => {}
      ⟨p.addSlot.shelve parked.page p.slots.length, [.leaked report], .ok ()⟩

/-- **A ticket is thrown away**, spent or not. -/
def discardTicket (p : Pool) (slot : Nat) : Transaction Unit :=
  let p := p.modifySlot slot fun s => { s with tickets := s.tickets - 1 }
  if (p.slotAt slot).tickets = 0 then p.retire slot else ⟨p, [], .ok ()⟩

/-- Takes back the parked page, if the slot still holds the generation of the
ticket. -/
def unpark (p : Pool) (slot generation : Nat) : Transaction Unit :=
  if (p.slotAt slot).generation = generation then
    let freed := p.setGeneration slot 0
    match (p.slotAt slot).parked with
    | some parked =>
      ⟨(freed.modifySlot slot fun s => { s with parked := none }).shelve parked.page slot, [],
        .ok ()⟩
    | none => ⟨freed, [], .error .generationMismatch⟩
  else ⟨p, [], .error .generationMismatch⟩

/-- **A ticket is handed in.** It is gone afterwards, whether it was good or
not. -/
def redeem (p : Pool) (slot generation : Nat) : Transaction Unit :=
  let attempt := p.unpark slot generation
  let rest := attempt.pool.discardTicket slot
  ⟨rest.pool, attempt.events ++ rest.events, attempt.result⟩

end Pool

end Wirepool
