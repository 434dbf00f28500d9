import Wirepool.Session.Step

/-!
# What a command leaves alone

A loan is held under a name of its own, or as a chunk of an arena or a buffer.
A command reaches the holders it names: it makes them, ends them, or writes
through them. A slice that is written to reaches one chunk of its arena. All
other holders hold what they held, with the same bytes.
-/

namespace Wirepool

/-- **Who holds a loan.** -/
inductive Holder where
  /-- A name of its own. -/
  | loan (name : String)
  /-- An arena, as one of its chunks. -/
  | chunk (arena : String) (position : Nat)
  /-- A buffer, as one of its chunks. -/
  | piece (buffer : String) (position : Nat)
  deriving DecidableEq

namespace Command

/-- The loan that a command makes, ends or writes to. -/
def NamesLoan : Command → String → Prop
  | .pool (.borrow _ _ _ own), name | .pool (.concat _ _ own), name
  | .loan (.idle own), name | .loan (.fill own _ _), name | .loan (.release own), name
  | .loan (.drop own), name | .loan (.detach own _), name
  | .message (.encode _ _ _ own), name => name = own
  | _, _ => False

/-- The arena that a command makes, ends or writes to, if it does not do so
through a slice. -/
def NamesArena : Command → String → Prop
  | .arena (.make _ _ _ own), name | .arena (.get own _ _ _), name
  | .arena (.copy own _ _), name | .arena (.reset own), name
  | .arena (.release own), name | .arena (.drop own), name
  | .message (.encodeInArena own _ _ _), name
  | .message (.decode _ (some own) _ _ _), name => name = own
  | _, _ => False

/-- The command makes, ends or moves a ticket. -/
def MovesTickets : Command → Prop
  | .ticket (.info _) => False
  | .ticket _ => True
  | .loan (.detach _ _) => True
  | _ => False

/-- The buffer that a command makes, ends or asks. -/
def NamesBuffer : Command → String → Prop
  | .buffer (.make _ _ _ own), name | .buffer (.release own), name
  | .buffer (.drop own), name | .buffer (.request own _), name => name = own
  | _, _ => False

end Command

namespace Session

variable {s : Session}

/-- **What a holder holds.** -/
def held (s : Session) : Holder → Option Loan
  | .loan name => s.loans.get? name
  | .chunk arena position => (s.arenas.get? arena).bind fun a => a.chunks[position]?
  | .piece buffer position => (s.buffers.get? buffer).bind fun b => b.chunks[position]?

/-- **A command reaches a holder.** -/
def Reaches (s : Session) (command : Command) : Holder → Prop
  | .loan name => command.NamesLoan name
  | .chunk arena position => command.NamesArena arena ∨
    ∃ name value a slice, command = .arena (.fill name value) ∧
      s.slice? name = some (arena, a, slice) ∧ slice.chunk = position
  | .piece buffer _ => command.NamesBuffer buffer

/-- **A session later on spares** the holders that a command does not reach, the
arenas of which it reaches no chunk, the buffers that it does not name, and all
tickets if it is not about them. -/
structure Spares (s : Session) (command : Command) (t : Session) : Prop where
  held : ∀ holder, ¬s.Reaches command holder → t.held holder = s.held holder
  tickets : ¬command.MovesTickets → t.tickets = s.tickets
  arena : ∀ name, (∀ position, ¬s.Reaches command (.chunk name position)) →
    t.arenas.get? name = s.arenas.get? name
  buffer : ∀ name, ¬command.NamesBuffer name → t.buffers.get? name = s.buffers.get? name

/-! ## The parts of a command -/

section Parts

variable {command : Command} {t : Session}

/-- A change of anything but loans, arenas and buffers. -/
theorem spares_of_eq (hloans : t.loans = s.loans) (harenas : t.arenas = s.arenas)
    (hbuffers : t.buffers = s.buffers) (htickets : command.MovesTickets ∨ t.tickets = s.tickets) :
    s.Spares command t := by
  refine ⟨fun holder _ => ?_, htickets.resolve_left, fun name _ => by rw [harenas],
    fun name _ => by rw [hbuffers]⟩
  cases holder with
  | loan name => rw [held, held, hloans]
  | chunk arena position => rw [held, held, harenas]
  | piece buffer position => rw [held, held, hbuffers]

/-- A change of a loan that the command names. -/
theorem spares_of_loan {name : String} (hnames : command.NamesLoan name)
    (hloans : ∀ other, other ≠ name → t.loans.get? other = s.loans.get? other)
    (harenas : t.arenas = s.arenas) (hbuffers : t.buffers = s.buffers)
    (htickets : command.MovesTickets ∨ t.tickets = s.tickets) : s.Spares command t := by
  refine ⟨fun holder hreaches => ?_, htickets.resolve_left, fun name _ => by rw [harenas],
    fun name _ => by rw [hbuffers]⟩
  cases holder with
  | loan other =>
    refine hloans other ?_
    rintro rfl
    exact hreaches hnames
  | chunk arena position => rw [held, held, harenas]
  | piece buffer position => rw [held, held, hbuffers]

/-- A change of an arena that the command names. -/
theorem spares_of_arena {name : String} (hnames : command.NamesArena name)
    (hloans : t.loans = s.loans)
    (harenas : ∀ other, other ≠ name → t.arenas.get? other = s.arenas.get? other)
    (hbuffers : t.buffers = s.buffers) (htickets : t.tickets = s.tickets) :
    s.Spares command t := by
  have hother {arena : String} {position : Nat} (h : ¬s.Reaches command (.chunk arena position)) :
      t.arenas.get? arena = s.arenas.get? arena := by
    refine harenas arena ?_
    rintro rfl
    exact h (.inl hnames)
  refine ⟨fun holder hreaches => ?_, fun _ => htickets, fun name h => hother (h 0),
    fun name _ => by rw [hbuffers]⟩
  cases holder with
  | loan other => rw [held, held, hloans]
  | chunk arena position => rw [held, held, hother hreaches]
  | piece buffer position => rw [held, held, hbuffers]

/-- A change of a buffer that the command names. -/
theorem spares_of_buffer {name : String} (hnames : command.NamesBuffer name)
    (hloans : t.loans = s.loans) (harenas : t.arenas = s.arenas)
    (hbuffers : ∀ other, other ≠ name → t.buffers.get? other = s.buffers.get? other)
    (htickets : t.tickets = s.tickets) : s.Spares command t := by
  have hne {other : String} (hother : ¬command.NamesBuffer other) : other ≠ name := by
    rintro rfl
    exact hother hnames
  refine ⟨fun holder hreaches => ?_, fun _ => htickets, fun name _ => by rw [harenas],
    fun other hother => hbuffers other (hne hother)⟩
  cases holder with
  | loan other => rw [held, held, hloans]
  | chunk arena position => rw [held, held, harenas]
  | piece buffer position =>
    rw [held, held, hbuffers buffer (hne hreaches)]

/-- What goes on with a thing spares what it spares for every such thing. -/
theorem spares_expect {α : Type} {thing : Option α} {go : α → Step}
    (hgo : ∀ a, thing = some a → s.Spares command (go a).2) :
    s.Spares command (s.expect thing go).2 := by
  cases thing with
  | none => exact spares_of_eq rfl rfl rfl (.inr rfl)
  | some a => exact hgo a rfl

/-- What goes on with an answer of the store. -/
theorem spares_run {α : Type} {r : Session} {action : StoreM α} {go : α → Session → Step}
    (hstore : ∀ u, s.Spares command { r with store := u })
    (hgo : ∀ a u, s.Spares command (go a { r with store := u }).2) :
    s.Spares command (r.run action go).2 := by
  unfold run
  split
  · exact hgo _ _
  · exact hstore _

/-- What goes on with an answer of an arena. -/
theorem spares_runArena {α : Type} {r : Session} {name : String} {arena : Arena}
    {action : HolderM Arena α} {go : α → Arena → Session → Step}
    (hstore : ∀ a u, s.Spares command { r with store := u, arenas := r.arenas.put name a })
    (hgo : ∀ x a b u,
      s.Spares command (go x a { r with store := u, arenas := r.arenas.put name b }).2) :
    s.Spares command (r.runArena name arena action go).2 := by
  unfold runArena
  split
  · exact hgo _ _ _ _
  · exact hstore _ _

end Parts

/-! ## What is entered

Entering changes the table that it is for, and the store if something stood
there. -/

section Enter

variable (s) (name : String)

theorem enterLoan_eq (loan : Loan) :
    ∃ u, s.enterLoan name loan = { s with store := u, loans := s.loans.put name loan } := by
  unfold enterLoan letGo
  split <;> exact ⟨_, rfl⟩

theorem enterTicket_eq (ticket : Ticket) :
    ∃ u, s.enterTicket name ticket =
      { s with store := u, tickets := s.tickets.put name ticket } := by
  unfold enterTicket letGo
  split <;> exact ⟨_, rfl⟩

theorem enterArena_eq (arena : Arena) :
    ∃ u slices, s.enterArena name arena =
      { s with store := u, slices, arenas := s.arenas.put name arena } := by
  unfold enterArena letGo endSlices
  split <;> exact ⟨_, _, rfl⟩

theorem enterBuffer_eq (buffer : Buffer) :
    ∃ u, s.enterBuffer name buffer =
      { s with store := u, buffers := s.buffers.put name buffer } := by
  unfold enterBuffer letGo
  split <;> exact ⟨_, rfl⟩

theorem enterSlice_eq (slice : Slice) (entered : Option String) :
    ∃ slices, s.enterSlice name slice entered = { s with slices } := by
  cases entered <;> exact ⟨_, rfl⟩

end Enter

section Named

variable {command : Command} {name : String} (u : Store)

/-- A loan that is entered under a name of the command. -/
theorem spares_enterLoan (hnames : command.NamesLoan name) (loan : Loan) :
    s.Spares command ({ s with store := u }.enterLoan name loan) := by
  obtain ⟨v, heq⟩ := enterLoan_eq { s with store := u } name loan
  rw [heq]
  exact spares_of_loan hnames (fun _ h => Table.get?_put_of_ne _ h _) rfl rfl (.inr rfl)

/-- A loan of the command that is taken out. -/
theorem spares_eraseLoan (hnames : command.NamesLoan name) :
    s.Spares command { s with store := u, loans := s.loans.erase name } :=
  spares_of_loan hnames (fun _ h => Table.get?_erase_of_ne _ h) rfl rfl (.inr rfl)

/-- An arena of the command that is as an action leaves it. -/
theorem spares_putArena (hnames : command.NamesArena name) (arena : Arena) :
    s.Spares command { s with store := u, arenas := s.arenas.put name arena } :=
  spares_of_arena hnames rfl (fun _ h => Table.get?_put_of_ne _ h _) rfl rfl

/-- An arena of the command that is taken out, with its slices. -/
theorem spares_eraseArena (hnames : command.NamesArena name) :
    s.Spares command { s.endSlices name with store := u, arenas := s.arenas.erase name } :=
  spares_of_arena hnames rfl (fun _ h => Table.get?_erase_of_ne _ h) rfl rfl

/-- A slice of an arena of the command that is entered. -/
theorem spares_enterSlice (hnames : command.NamesArena name) (arena : Arena) (slice : Slice)
    (entered : Option String) :
    s.Spares command ({ s with store := u, arenas := s.arenas.put name arena }.enterSlice name
      slice entered) := by
  obtain ⟨slices, heq⟩ := enterSlice_eq
    { s with store := u, arenas := s.arenas.put name arena } name slice entered
  rw [heq]
  exact spares_of_arena hnames rfl (fun _ h => Table.get?_put_of_ne _ h _) rfl rfl

end Named

/-! ## Commands by kind -/

/-- Commands on pools spare all but the loan they make. -/
theorem spares_poolStep (s : Session) (command : PoolCommand) :
    s.Spares (.pool command) (s.poolStep command).2 := by
  cases command with
  | make name => exact spares_of_eq rfl rfl rfl (.inr rfl)
  | shared name =>
    simp only [poolStep]
    split <;> exact spares_of_eq rfl rfl rfl (.inr rfl)
  | clone pool name => exact spares_expect fun _ _ => spares_of_eq rfl rfl rfl (.inr rfl)
  | forget pool => exact spares_expect fun _ _ => spares_of_eq rfl rfl rfl (.inr rfl)
  | same first second =>
    exact spares_expect fun _ _ => spares_expect fun _ _ => spares_of_eq rfl rfl rfl (.inr rfl)
  | figures pool => exact spares_expect fun _ _ => spares_of_eq rfl rfl rfl (.inr rfl)
  | classFigures pool capacity => exact spares_expect fun _ _ => spares_of_eq rfl rfl rfl (.inr rfl)
  | borrow pool len zero name =>
    refine spares_expect fun _ _ => spares_run (fun u => spares_of_eq rfl rfl rfl (.inr rfl))
      fun loan u => ?_
    exact spares_enterLoan u (by rfl) loan
  | concat pool parts name =>
    refine spares_expect fun _ _ => spares_run (fun u => spares_of_eq rfl rfl rfl (.inr rfl))
      fun loan u => ?_
    exact spares_enterLoan u (by rfl) loan

/-- Commands on loans spare all but the loan they name. -/
theorem spares_loanStep (s : Session) (command : LoanCommand) :
    s.Spares (.loan command) (s.loanStep command).2 := by
  cases command with
  | idle name =>
    show s.Spares _ (s.enterLoan name .idle)
    exact spares_enterLoan s.store (by rfl) .idle
  | info name => exact spares_expect fun _ _ => spares_of_eq rfl rfl rfl (.inr rfl)
  | fill name value stretch =>
    refine spares_expect fun loan _ => ?_
    exact spares_of_loan rfl (fun _ h => Table.get?_put_of_ne _ h _) rfl rfl (.inr rfl)
  | dump name stretch => exact spares_expect fun _ _ => spares_of_eq rfl rfl rfl (.inr rfl)
  | runs name stretch => exact spares_expect fun _ _ => spares_of_eq rfl rfl rfl (.inr rfl)
  | release name =>
    exact spares_expect fun _ _ => spares_run (fun u => spares_eraseLoan u (by rfl)) fun _ u =>
      spares_eraseLoan u (by rfl)
  | drop name =>
    exact spares_expect fun _ _ => spares_run (fun u => spares_eraseLoan u (by rfl)) fun _ u =>
      spares_eraseLoan u (by rfl)
  | detach loanName name =>
    refine spares_expect fun loan _ => spares_run (fun u => ?_) fun ticket u => ?_
    · exact spares_eraseLoan u (by rfl)
    · obtain ⟨v, heq⟩ := enterTicket_eq
        { s with loans := s.loans.erase loanName, store := u } name ticket
      rw [heq]
      exact spares_of_loan rfl (fun _ h => Table.get?_erase_of_ne _ h) rfl rfl (.inl trivial)

/-- Commands on tickets spare all holders of loans. -/
theorem spares_ticketStep (s : Session) (command : TicketCommand) :
    s.Spares (.ticket command) (s.ticketStep command).2 := by
  cases command with
  | idle name =>
    show s.Spares _ (s.enterTicket name .idle)
    obtain ⟨v, heq⟩ := enterTicket_eq s name .idle
    rw [heq]
    exact spares_of_eq rfl rfl rfl (.inl trivial)
  | info name => exact spares_expect fun _ _ => spares_of_eq rfl rfl rfl (.inr rfl)
  | clone held name =>
    refine spares_expect fun _ _ => spares_run (fun u => spares_of_eq rfl rfl rfl (.inl trivial))
      fun ticket u => ?_
    obtain ⟨v, heq⟩ := enterTicket_eq { s with store := u } name ticket
    rw [heq]
    exact spares_of_eq rfl rfl rfl (.inl trivial)
  | redeem name =>
    exact spares_expect fun _ _ => spares_run (fun u => spares_of_eq rfl rfl rfl (.inl trivial))
      fun _ u => spares_of_eq rfl rfl rfl (.inl trivial)
  | discard name =>
    exact spares_expect fun _ _ => spares_run (fun u => spares_of_eq rfl rfl rfl (.inl trivial))
      fun _ u => spares_of_eq rfl rfl rfl (.inl trivial)

/-- A slice that is found is of an arena that is found. -/
theorem arena_of_slice? {name arenaName : String} {arena : Arena} {slice : Slice}
    (h : s.slice? name = some (arenaName, arena, slice)) :
    s.arenas.get? arenaName = some arena := by
  unfold slice? at h
  obtain ⟨entry, -, h⟩ := Option.bind_eq_some_iff.mp h
  obtain ⟨found, hfound, h⟩ := Option.bind_eq_some_iff.mp h
  cases h
  exact hfound

/-- **Writing to a slice** spares the other chunks of its arena. -/
theorem spares_fill_slice (s : Session) (name : String) (value : UInt8) :
    s.Spares (.arena (.fill name value)) (s.arenaStep (.fill name value)).2 := by
  refine spares_expect fun found hfound => ?_
  obtain ⟨arenaName, a, slice⟩ := found
  have harena : s.arenas.get? arenaName = some a := arena_of_slice? hfound
  have hothers (other : String)
      (hreaches : ∀ position, ¬s.Reaches (.arena (.fill name value)) (.chunk other position)) :
      (s.arenas.put arenaName (a.fill slice value)).get? other = s.arenas.get? other := by
    refine Table.get?_put_of_ne _ ?_ _
    rintro rfl
    exact hreaches slice.chunk (.inr ⟨name, value, a, slice, rfl, hfound, rfl⟩)
  refine ⟨fun holder hreaches => ?_, fun _ => rfl, hothers, fun other _ => rfl⟩
  cases holder with
  | loan other => rfl
  | piece buffer position => rfl
  | chunk arena position =>
    show ((s.arenas.put arenaName (a.fill slice value)).get? arena).bind _ =
      (s.arenas.get? arena).bind _
    by_cases hname : arena = arenaName
    · subst hname
      rw [Table.get?_put_self, harena]
      show (a.chunks.modify slice.chunk _)[position]? = a.chunks[position]?
      refine List.getElem?_modify_ne _ _ fun heq => hreaches (.inr ?_)
      exact ⟨name, value, a, slice, rfl, hfound, heq⟩
    · rw [Table.get?_put_of_ne _ hname]

/-- Commands on arenas spare all but the arena they name, and all but one chunk
of the arena whose slice they write to. -/
theorem spares_arenaStep (s : Session) (command : ArenaCommand) :
    s.Spares (.arena command) (s.arenaStep command).2 := by
  cases command with
  | make pool size checked name =>
    refine spares_expect fun _ _ => ?_
    dsimp only
    split
    · next arena _ =>
      obtain ⟨v, slices, heq⟩ := enterArena_eq s name arena
      rw [heq]
      exact spares_of_arena rfl rfl (fun _ h => Table.get?_put_of_ne _ h _) rfl rfl
    · exact spares_of_eq rfl rfl rfl (.inr rfl)
  | info name => exact spares_expect fun _ _ => spares_of_eq rfl rfl rfl (.inr rfl)
  | get name len zero entered =>
    exact spares_expect fun _ _ => spares_runArena (fun a u => spares_putArena u (by rfl) a)
      fun slice _ b u => spares_enterSlice u (by rfl) b slice entered
  | copy name row entered =>
    exact spares_expect fun _ _ => spares_runArena (fun a u => spares_putArena u (by rfl) a)
      fun slice _ b u => spares_enterSlice u (by rfl) b slice entered
  | fill name value => exact s.spares_fill_slice name value
  | dump name stretch => exact spares_expect fun _ _ => spares_of_eq rfl rfl rfl (.inr rfl)
  | runs name stretch => exact spares_expect fun _ _ => spares_of_eq rfl rfl rfl (.inr rfl)
  | reset name =>
    refine spares_expect fun _ _ => spares_runArena (fun a u => ?_) fun _ a b u => ?_
    · exact spares_of_arena rfl rfl (fun _ h => Table.get?_put_of_ne _ h _) rfl rfl
    · exact spares_of_arena rfl rfl (fun _ h => Table.get?_put_of_ne _ h _) rfl rfl
  | release name =>
    exact spares_expect fun _ _ => spares_run (fun u => spares_eraseArena u (by rfl)) fun _ u =>
      spares_eraseArena u (by rfl)
  | drop name =>
    exact spares_expect fun _ _ => spares_run (fun u => spares_eraseArena u (by rfl)) fun _ u =>
      spares_eraseArena u (by rfl)

/-- Commands on messages spare all but the loan they make and the arena they
name. -/
theorem spares_messageStep (s : Session) (command : MessageCommand) :
    s.Spares (.message command) (s.messageStep command).2 := by
  cases command with
  | encode pool order script name =>
    have hgo (home : Option Nat) : s.Spares (.message (.encode pool order script name))
        (s.run (script.encode order home) fun encoded s => s.enterEncoded name encoded).2 := by
      refine spares_run (fun u => spares_of_eq rfl rfl rfl (.inr rfl)) fun encoded u => ?_
      unfold enterEncoded
      dsimp only
      split
      · next loan _ => exact spares_enterLoan u (by rfl) loan
      · exact spares_of_eq rfl rfl rfl (.inr rfl)
    cases pool with
    | none => exact hgo none
    | some pool => exact spares_expect fun home _ => hgo (some home)
  | encodeInArena name order script entered =>
    refine spares_expect fun _ _ => spares_runArena (fun a u => spares_putArena u (by rfl) a)
      fun encoded _ b u => ?_
    dsimp only
    split
    · next slice _ => exact spares_enterSlice u (by rfl) b slice entered
    · exact spares_putArena u (by rfl) b
  | decode source arena order calls fallible =>
    refine spares_expect fun _ _ => ?_
    cases arena with
    | none => exact spares_of_eq rfl rfl rfl (.inr rfl)
    | some name =>
      exact spares_expect fun _ _ => spares_runArena (fun a u => spares_putArena u (by rfl) a)
        fun _ _ b u => spares_putArena u (by rfl) b

/-- Commands on buffers spare all but the buffer they name. -/
theorem spares_bufferStep (s : Session) (command : BufferCommand) :
    s.Spares (.buffer command) (s.bufferStep command).2 := by
  cases command with
  | make pool chunkSize checked name =>
    refine spares_expect fun _ _ => ?_
    have henter (buffer : Buffer) :
        s.Spares (.buffer (.make pool chunkSize checked name)) (s.enterBuffer name buffer) := by
      obtain ⟨v, heq⟩ := enterBuffer_eq s name buffer
      rw [heq]
      exact spares_of_buffer rfl rfl rfl (fun _ h => Table.get?_put_of_ne _ h _) rfl
    dsimp only
    split
    · split
      · exact henter _
      · exact spares_of_eq rfl rfl rfl (.inr rfl)
    · split
      · exact henter _
      · exact spares_of_eq rfl rfl rfl (.inr rfl)
  | info name => exact spares_expect fun _ _ => spares_of_eq rfl rfl rfl (.inr rfl)
  | release name =>
    refine spares_expect fun _ _ => spares_run (fun u => ?_) fun _ u => ?_
    · exact spares_of_buffer rfl rfl rfl (fun _ h => Table.get?_erase_of_ne _ h) rfl
    · exact spares_of_buffer rfl rfl rfl (fun _ h => Table.get?_erase_of_ne _ h) rfl
  | drop name =>
    refine spares_expect fun _ _ => spares_run (fun u => ?_) fun _ u => ?_
    · exact spares_of_buffer rfl rfl rfl (fun _ h => Table.get?_erase_of_ne _ h) rfl
    · exact spares_of_buffer rfl rfl rfl (fun _ h => Table.get?_erase_of_ne _ h) rfl
  | request name request =>
    refine spares_expect fun buffer _ => ?_
    split
    · exact spares_of_buffer rfl rfl rfl (fun _ h => Table.get?_put_of_ne _ h _) rfl
    · exact spares_of_buffer rfl rfl rfl (fun _ h => Table.get?_put_of_ne _ h _) rfl

/-- Commands on the watch spare all holders. -/
theorem spares_watchStep (s : Session) (command : WatchCommand) :
    s.Spares (.watch command) (s.watchStep command).2 := by
  cases command with
  | install tracker => exact spares_of_eq rfl rfl rfl (.inr rfl)
  | trace on => exact spares_of_eq rfl rfl rfl (.inr rfl)
  | describe name => exact spares_expect fun _ _ => spares_of_eq rfl rfl rfl (.inr rfl)

/-- **A command leaves alone what it does not reach.** -/
theorem spares_step (s : Session) (command : Command) : s.Spares command (s.step command).2 := by
  cases command with
  | pool command => exact s.spares_poolStep command
  | loan command => exact s.spares_loanStep command
  | ticket command => exact s.spares_ticketStep command
  | arena command => exact s.spares_arenaStep command
  | message command => exact s.spares_messageStep command
  | buffer command => exact s.spares_bufferStep command
  | watch command => exact s.spares_watchStep command

end Session

end Wirepool
