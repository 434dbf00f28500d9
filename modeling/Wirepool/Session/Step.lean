import Wirepool.Session.Basic
import Wirepool.Session.Request

/-!
# Carrying out commands

One function for each kind of command. Commands are carried out one after
another, so the whole state of a session is the one value that goes through
them.
-/

namespace Wirepool

namespace Session

/-- Carries out a command on pools. -/
def poolStep (s : Session) : PoolCommand → Step
  | .make name =>
    let (number, store) := s.store.addPool
    (.done, { s with store, pools := s.pools.put name number })
  | .shared name =>
    match s.shared with
    | some number => (.done, { s with pools := s.pools.put name number })
    | none =>
      let (number, store) := s.store.addPool
      (.done, { s with store, shared := some number, pools := s.pools.put name number })
  | .clone pool name =>
    s.expect (s.pools.get? pool) fun number => (.done, { s with pools := s.pools.put name number })
  | .forget pool =>
    s.expect (s.pools.get? pool) fun _ => (.done, { s with pools := s.pools.erase pool })
  | .same first second =>
    s.expect (s.pools.get? first) fun one =>
    s.expect (s.pools.get? second) fun other => (.flag (one == other), s)
  | .figures pool =>
    s.expect (s.pools.get? pool) fun number => (.figures (s.store.pool number), s)
  | .classFigures pool capacity =>
    s.expect (s.pools.get? pool) fun number =>
      (.classFigures ((SizeClass.ofCapacity? capacity).map (s.store.pool number).classFigures), s)
  | .borrow pool len zero name =>
    s.expect (s.pools.get? pool) fun number =>
    s.run (Store.borrow number len zero) fun loan s =>
      (.loan loan.info, s.enterLoan name loan)
  | .concat pool parts name =>
    s.expect (s.pools.get? pool) fun number =>
    s.run (Store.concat number parts) fun loan s =>
      (.loan loan.info, s.enterLoan name loan)

/-- Carries out a command on loans. -/
def loanStep (s : Session) : LoanCommand → Step
  | .idle name => (.loan Loan.idle.info, s.enterLoan name .idle)
  | .info name => s.expect (s.loans.get? name) fun loan => (.loan loan.info, s)
  | .fill name value stretch =>
    s.expect (s.loans.get? name) fun loan =>
      let filled := loan.fill (stretch.offset loan.len) (stretch.count loan.len) value
      (.done, { s with loans := s.loans.put name filled })
  | .dump name stretch =>
    s.expect (s.loans.get? name) fun loan =>
      (.bytes (loan.read (stretch.offset loan.len) (stretch.count loan.len)), s)
  | .runs name stretch =>
    s.expect (s.loans.get? name) fun loan =>
      (.runs (loan.runs (stretch.offset loan.len) (stretch.count loan.len)), s)
  | .release name =>
    s.expect (s.loans.get? name) fun loan =>
    { s with loans := s.loans.erase name }.run (Store.release loan) fun () s => (.done, s)
  | .drop name =>
    s.expect (s.loans.get? name) fun loan =>
    { s with loans := s.loans.erase name }.run (Store.lose loan) fun () s => (.done, s)
  | .detach loanName name =>
    s.expect (s.loans.get? loanName) fun loan =>
    { s with loans := s.loans.erase loanName }.run (Store.detach loan) fun ticket s =>
      (.ticket ticket.info, s.enterTicket name ticket)

/-- Carries out a command on tickets. -/
def ticketStep (s : Session) : TicketCommand → Step
  | .idle name => (.done, s.enterTicket name .idle)
  | .info name => s.expect (s.tickets.get? name) fun ticket => (.ticket ticket.info, s)
  | .clone held name =>
    s.expect (s.tickets.get? held) fun ticket =>
    s.run (Store.copyTicket ticket) fun ticket s => (.done, s.enterTicket name ticket)
  | .redeem name =>
    s.expect (s.tickets.get? name) fun ticket =>
    { s with tickets := s.tickets.erase name }.run (Store.redeem ticket) fun () s => (.done, s)
  | .discard name =>
    s.expect (s.tickets.get? name) fun ticket =>
    { s with tickets := s.tickets.erase name }.run (Store.discardTicket ticket) fun () s =>
      (.done, s)

/-- Carries out a command on arenas and slices. -/
def arenaStep (s : Session) : ArenaCommand → Step
  | .make pool size checked name =>
    s.expect (s.pools.get? pool) fun home =>
      let made := if checked then { arenaFragmentSize := size : Settings }.arena home
        else .ok (.new home size)
      match made with
      | .ok arena => (.arena arena.info, s.enterArena name arena)
      | .error fault => (.fault fault, s)
  | .info name => s.expect (s.arenas.get? name) fun arena => (.arena arena.info, s)
  | .get name len zero sliceName =>
    s.expect (s.arenas.get? name) fun arena =>
    s.runArena name arena (Arena.get len zero) fun slice arena s =>
      (.slice slice.length arena.info, s.enterSlice name slice sliceName)
  | .copy name row sliceName =>
    s.expect (s.arenas.get? name) fun arena =>
    s.runArena name arena (Arena.copy row) fun slice arena s =>
      (.slice slice.length arena.info, s.enterSlice name slice sliceName)
  | .fill sliceName value =>
    s.expect (s.slice? sliceName) fun (name, arena, slice) =>
      (.done, { s with arenas := s.arenas.put name (arena.fill slice value) })
  | .dump sliceName stretch =>
    s.expect (s.slice? sliceName) fun (_, arena, slice) =>
      (.bytes (arena.read slice (stretch.offset slice.length) (stretch.count slice.length)), s)
  | .runs sliceName stretch =>
    s.expect (s.slice? sliceName) fun (_, arena, slice) =>
      (.runs (arena.runs slice (stretch.offset slice.length) (stretch.count slice.length)), s)
  | .reset name =>
    s.expect (s.arenas.get? name) fun arena =>
    (s.endSlices name).runArena name arena Arena.reset fun () arena s => (.arena arena.info, s)
  | .release name =>
    s.expect (s.arenas.get? name) fun arena =>
    { s.endSlices name with arenas := s.arenas.erase name }.run arena.release fun () s => (.done, s)
  | .drop name =>
    s.expect (s.arenas.get? name) fun arena =>
    { s.endSlices name with arenas := s.arenas.erase name }.run arena.drop fun () s => (.done, s)

/-- The bytes of a source. -/
def sourceBytes? (s : Session) : Source → Option (List UInt8)
  | .loan name => (s.loans.get? name).map Loan.view
  | .slice name => (s.slice? name).map fun (_, arena, slice) => arena.read slice 0 slice.length
  | .bytes row => some row

/-- Enters the message that was encoded, if there is one. -/
def enterEncoded (s : Session) (name : String) (encoded : Encoded Loan) : Step :=
  let answer := Answer.encoded
    { encoded with result := encoded.result.map fun loan => (loan.info, loan.view) }
  match encoded.result with
  | .ok loan => (answer, s.enterLoan name loan)
  | .error _ => (answer, s)

/-- Carries out a command on messages. -/
def messageStep (s : Session) : MessageCommand → Step
  | .encode pool order script name =>
    let go (home : Option Nat) : Step :=
      s.run (script.encode order home) fun encoded s => s.enterEncoded name encoded
    match pool with
    | none => go none
    | some pool => s.expect (s.pools.get? pool) fun home => go (some home)
  | .encodeInArena name order script sliceName =>
    s.expect (s.arenas.get? name) fun arena =>
    s.runArena name arena (script.encodeInArena order) fun encoded arena s =>
      let answer := Answer.encodedInArena
        { encoded with result := encoded.result.map fun slice => arena.read slice 0 slice.length }
        arena.info
      match encoded.result with
      | .ok slice => (answer, s.enterSlice name slice sliceName)
      | .error _ => (answer, s)
  | .decode source arenaName order calls fallible =>
    s.expect (s.sourceBytes? source) fun input =>
      let (reading, result) := Wirepool.decode order input calls fallible
      match arenaName with
      | none => (.decoded reading.sights result none, s)
      | some name =>
        s.expect (s.arenas.get? name) fun arena =>
        s.runArena name arena reading.copyOut fun () arena s =>
          (.decoded reading.sights result (some arena.info), s)

/-- Carries out a command on buffers. -/
def bufferStep (s : Session) : BufferCommand → Step
  | .make pool chunkSize checked name =>
    s.expect (s.pools.get? pool) fun home =>
      let enter (buffer : Buffer) : Step :=
        (.buffer buffer.info, s.enterBuffer name buffer)
      if checked then
        match { bufferChunkSize := chunkSize : Settings }.buffer home with
        | .ok buffer => enter buffer
        | .error fault => (.fault fault, s)
      else
        match Buffer.new home chunkSize with
        | .ok buffer => enter buffer
        | .error abort => (.aborted abort, s)
  | .info name => s.expect (s.buffers.get? name) fun buffer => (.buffer buffer.info, s)
  | .release name =>
    s.expect (s.buffers.get? name) fun buffer =>
    { s with buffers := s.buffers.erase name }.run buffer.release fun () s => (.done, s)
  | .drop name =>
    s.expect (s.buffers.get? name) fun buffer =>
    { s with buffers := s.buffers.erase name }.run buffer.drop fun () s => (.done, s)
  | .request name r =>
    s.expect (s.buffers.get? name) fun buffer =>
      match r.run (buffer, s.store) with
      | .ok outcome (buffer, store) =>
        (.request outcome buffer.info, { s with store, buffers := s.buffers.put name buffer })
      | .error abort (buffer, store) =>
        (.request (.aborted abort) buffer.info,
          { s with store, buffers := s.buffers.put name buffer })

/-- Carries out a command on the watch. -/
def watchStep (s : Session) : WatchCommand → Step
  | .install tracker => (.done, { s with store := { s.store with tracker } })
  | .trace on => (.done, { s with store := { s.store with tracing := on } })
  | .describe name => s.expect (s.describe? name) fun text => (.line text, s)

/-- **Carries out a command.** -/
def step (s : Session) : Command → Step
  | .pool command => s.poolStep command
  | .loan command => s.loanStep command
  | .ticket command => s.ticketStep command
  | .arena command => s.arenaStep command
  | .message command => s.messageStep command
  | .buffer command => s.bufferStep command
  | .watch command => s.watchStep command

/-- **What is seen of one command**: its answer, and what was told and delivered
meanwhile, in order. -/
structure Seen where
  answer : Answer
  events : List Event
  deliveries : List Delivery

/-- The reports that were delivered, to whomever. -/
def Seen.reports (seen : Seen) : List LeakReport := seen.deliveries.map Delivery.report

/-- The newest entries of a journal that had `before` entries, oldest first. -/
def news {α : Type} (before : Nat) (journal : List α) : List α :=
  (journal.take (journal.length - before)).reverse

/-- Carries out a command and sees what was told. -/
def observe (s : Session) (command : Command) : Seen × Session :=
  let (answer, next) := s.step command
  (⟨answer, news s.store.events.length next.store.events,
    news s.store.deliveries.length next.store.deliveries⟩, next)

/-- **Carries out commands in turn.** -/
def play (s : Session) : List Command → List Seen × Session
  | [] => ([], s)
  | command :: commands =>
    let (seen, next) := s.observe command
    let (others, last) := next.play commands
    (seen :: others, last)

end Session

end Wirepool
