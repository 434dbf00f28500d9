import Wirepool.Pool.Lending

/-!
# The store: all pools and what is told of them

Several pools can be in use, and whoever watches for leaks watches all of them.
The store holds the pools by number, the two switches of the watch, and the
journal of what was told.

**Two switches.** A *tracker* receives reports on lost loans. There is room for
one, and another that is installed takes its place. *Tracing* is asked for by
itself or implied by a tracker; a loan that is made while tracing is on is known
by where it was made. Both only affect what is told.

Actions on the store may abort, and what they had done by then stays done:
that is what `EStateM` gives.
-/

namespace Wirepool

/-- **All pools, the watch on them and the journal.** -/
structure Store where
  pools : List Pool := []
  /-- The tracker that is installed, if there is one. -/
  tracker : Option Tracker := none
  /-- Whether tracing was asked for by itself. -/
  tracing : Bool := false
  /-- All events, the latest in front. -/
  events : List Event := []
  /-- All reports that trackers have received, the latest in front. -/
  deliveries : List Delivery := []

/-- An action on the store, with an answer or an abort. -/
abbrev StoreM := EStateM Abort Store

/-- An action on something that holds memory and on the store behind it. -/
abbrev HolderM (ω : Type) := EStateM Abort (ω × Store)

namespace HolderM

variable {ω α : Type}

/-- The holder as it is now. -/
def now : HolderM ω ω := fun s => .ok s.1 s

/-- Changes the holder and leaves the store alone. -/
def update (f : ω → α × ω) : HolderM ω α := fun s =>
  let (a, holder) := f s.1
  .ok a (holder, s.2)

/-- Carries out an action on the store and leaves the holder alone. -/
def onStore (action : StoreM α) : HolderM ω α := fun s =>
  match action s.2 with
  | .ok a store => .ok a (s.1, store)
  | .error abort store => .error abort (s.1, store)

end HolderM

/-- **A right to return the page of a detached loan.** It can be copied. -/
inductive Ticket where
  /-- For memory that nobody waits for. -/
  | idle
  | page (home slot generation : Nat)
  deriving DecidableEq

/-- The generation of the loan, zero if there is none. -/
def Ticket.generation : Ticket → Nat
  | idle => 0
  | page _ _ generation => generation

namespace Store

/-- The pool with a number. -/
def pool (s : Store) (number : Nat) : Pool := s.pools[number]?.getD {}

/-- Whether a tracker is installed. -/
def tracking (s : Store) : Bool := s.tracker.isSome

/-- Tells an event. A lost loan is also reported to the tracker that is installed. -/
def tell (s : Store) (event : Event) : Store :=
  let s := { s with events := event :: s.events }
  match event with
  | .leaked report => { s with deliveries := deliver s.tracker [report] ++ s.deliveries }
  | _ => s

/-- The store with a new pool, and its number. -/
def addPool (s : Store) : Nat × Store :=
  (s.pools.length, { s with pools := s.pools ++ [{}] })

/-- Carries out a transaction on one pool: the pool changes and the events are
told, also when the transaction aborts. -/
def onPool {α : Type} (number : Nat) (transaction : Pool → Transaction α) : StoreM α := fun s =>
  let done := transaction (s.pool number)
  let s := done.events.foldl tell { s with pools := s.pools.set number done.pool }
  match done.result with
  | .ok a => .ok a s
  | .error abort => .error abort s

/-- The store after an action, also after one that aborts. -/
def after (s : Store) (action : StoreM Unit) : Store :=
  match action s with
  | .ok _ s | .error _ s => s

/-- **Borrows memory** from a pool. Where the loan is made is kept if tracing
is on now. -/
def borrow (number len : Nat) (zero : Bool) : StoreM Loan := do
  let s ← get
  onPool number fun p => p.borrow number len zero (s.tracking || s.tracing)

/-- Borrows memory from a pool and writes parts into it, one behind another. -/
def concat (number : Nat) (parts : List (List UInt8)) : StoreM Loan := do
  let row := parts.flatten
  let loan ← borrow number row.length false
  return loan.write 0 row

/-- **Gives memory back.** What comes from the system just goes. -/
def release : Loan → StoreM Unit
  | .unpooled _ => return
  | .pooled lease => onPool lease.home fun p => p.reclaim lease

/-- **Loses memory.** What comes from the system just goes. -/
def lose : Loan → StoreM Unit
  | .unpooled _ => return
  | .pooled lease => onPool lease.home fun p => p.lose lease

/-- **Detaches a loan**: a ticket is all that is left of it. -/
def detach : Loan → StoreM Ticket
  | .unpooled _ => return .idle
  | .pooled lease => do
    onPool lease.home fun p => ⟨p.park lease, [], .ok ()⟩
    return .page lease.home lease.slot lease.generation

/-- Another ticket of the same kind. -/
def copyTicket : Ticket → StoreM Ticket
  | .idle => return .idle
  | .page home slot generation => do
    onPool home fun p => ⟨p.copyTicket slot, [], .ok ()⟩
    return .page home slot generation

/-- **Hands a ticket in.** -/
def redeem : Ticket → StoreM Unit
  | .idle => return
  | .page home slot generation => onPool home fun p => p.redeem slot generation

/-- **Throws a ticket away.** -/
def discardTicket : Ticket → StoreM Unit
  | .idle => return
  | .page home slot _ => onPool home fun p => p.discardTicket slot

end Store

end Wirepool
