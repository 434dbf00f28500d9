import Wirepool.Session.Answer
import Wirepool.Session.Table
import Wirepool.Text.Shape

/-!
# Sessions

A session is a store and tables of named things that hold memory of it. Its
pools are names of pools of the store; the same pool can have several names,
and one pool is shared by everybody who asks for it.

**Aborts.** A command that aborts leaves behind what it had done by then. A
thing that the command was about to use up is gone, a thing it was about to
make is not there.
-/

namespace Wirepool

/-- **A session.** -/
structure Session where
  store : Store := {}
  /-- The number of the pool that everybody shares, once somebody has asked. -/
  shared : Option Nat := none
  pools : Table Nat := {}
  loans : Table Loan := {}
  tickets : Table Ticket := {}
  arenas : Table Arena := {}
  /-- Slices, each with the name of its arena. -/
  slices : Table (String × Slice) := {}
  buffers : Table Buffer := {}

namespace Session

/-- **What comes of a command**: the answer and the session afterwards. -/
abbrev Step := Answer × Session

/-- A command that cannot be carried out changes nothing. -/
def refuse (s : Session) : Step := (.misuse, s)

/-- Goes on with a thing, unless it is not there. -/
def expect {α : Type} (s : Session) (thing : Option α) (go : α → Step) : Step :=
  match thing with
  | some a => go a
  | none => s.refuse

/-- Carries out an action on the store and goes on with its answer. -/
def run {α : Type} (s : Session) (action : StoreM α) (go : α → Session → Step) : Step :=
  match action s.store with
  | .ok a store => go a { s with store }
  | .error abort store => (.aborted abort, { s with store })

/-- Carries out an action on an arena and goes on with its answer. The arena is
as the action leaves it, also after an abort. -/
def runArena {α : Type} (s : Session) (name : String) (arena : Arena) (action : HolderM Arena α)
    (go : α → Arena → Session → Step) : Step :=
  match action (arena, s.store) with
  | .ok a (arena, store) => go a arena { s with store, arenas := s.arenas.put name arena }
  | .error abort (arena, store) =>
    (.aborted abort, { s with store, arenas := s.arenas.put name arena })

/-! ## Entering things

A thing that is entered under a taken name takes the place of what stood there.
Nobody holds that any more, so it is dropped, and that is the last thing a
command does. -/

/-- The session after a thing, if there is one, is dropped. -/
def letGo {α : Type} (s : Session) (thing : Option α) (drop : α → StoreM Unit) : Session :=
  match thing with
  | some a => { s with store := s.store.after (drop a) }
  | none => s

/-- The session without the slices of an arena. -/
def endSlices (s : Session) (arena : String) : Session :=
  { s with slices := s.slices.remove fun slice => slice.1 = arena }

/-- Enters a loan. -/
def enterLoan (s : Session) (name : String) (loan : Loan) : Session :=
  { s.letGo (s.loans.get? name) Store.lose with loans := s.loans.put name loan }

/-- Enters a ticket. -/
def enterTicket (s : Session) (name : String) (ticket : Ticket) : Session :=
  { s.letGo (s.tickets.get? name) Store.discardTicket with tickets := s.tickets.put name ticket }

/-- Enters an arena. -/
def enterArena (s : Session) (name : String) (arena : Arena) : Session :=
  { (s.letGo (s.arenas.get? name) Arena.drop).endSlices name with
    arenas := s.arenas.put name arena }

/-- Enters a buffer. -/
def enterBuffer (s : Session) (name : String) (buffer : Buffer) : Session :=
  { s.letGo (s.buffers.get? name) Buffer.drop with buffers := s.buffers.put name buffer }

/-- Enters a slice, if there is a name for it. -/
def enterSlice (s : Session) (arena : String) (slice : Slice) : Option String → Session
  | some name => { s with slices := s.slices.put name (arena, slice) }
  | none => s

/-- A slice by name, with its arena and the name of that. -/
def slice? (s : Session) (name : String) : Option (String × Arena × Slice) := do
  let (arenaName, slice) ← s.slices.get? name
  let arena ← s.arenas.get? arenaName
  return (arenaName, arena, slice)

/-! ## Lines about things -/

/-- A line about a thing that holds numbers. -/
def line (kind : String) (numbers : List (String × Nat)) (more : Bool := false) : String :=
  shape kind (numbers.map fun (name, n) => (name, Nat.repr n)) more

/-- **The line about the thing with a name.** If things of several kinds bear
it, the kinds come in the order of the tables. -/
def describe? (s : Session) (name : String) : Option String :=
  match s.pools.get? name with
  | some number => some (line "Pool" [("generation", (s.store.pool number).generation)] true)
  | none =>
  match s.loans.get? name with
  | some loan => some (line "Ref"
      [("len", loan.len), ("capacity", loan.capacity), ("generation", loan.generation)])
  | none =>
  match s.tickets.get? name with
  | some ticket => some (line "RawRef" [("generation", ticket.generation)])
  | none =>
  match s.arenas.get? name with
  | some a => some (line "Arena"
      [("size", a.size), ("length", a.length), ("chunks", a.chunks.length)])
  | none =>
  (s.buffers.get? name).map fun b => line "Buffer"
      [("chunk_size", b.chunkSize), ("offset", b.offset), ("length", b.length),
        ("chunks", b.chunks.length)]

end Session

end Wirepool
