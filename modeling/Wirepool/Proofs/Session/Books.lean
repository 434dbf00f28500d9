import Wirepool.Proofs.Session.Sound
import Wirepool.Proofs.Store.Encoding

/-!
# Books on the loans of a session

Every command enters in the books the loans it makes and the loans that end with it. Those
that are given back can be told beforehand from the command and the session: they are what
the command is asked to give back, and what a driver gives back of its own accord. All
others that end are lost, whether they were dropped by themselves or with the arena, the
buffer or the tickets that held them, or because something else was entered under their
name.

In the middle of a command some loans are in hand, as in the invariant of sessions, and
the books are kept with these.
-/

namespace Wirepool

namespace Session

variable {s r t u : Session} {loans loans' loans'' : Multiset Loan} {tickets : Multiset Ticket}
  {row later : Dealings} {lent returned lost : List Account}

/-- **The books of a session balance**, with loans in hand before and afterwards. -/
def Books (s : Session) (loans : Multiset Loan) (row : Dealings) (t : Session)
    (loans' : Multiset Loan) : Prop :=
  s.store.Balances (loans + s.holdings) row t.store (loans' + t.holdings)

theorem Books.trans (h : s.Books loans row t loans') (h' : t.Books loans' later u loans'') :
    s.Books loans (row ++ later) u loans'' := Store.Balances.trans h h'

/-! ## Entering under a name that may be taken

What stands under the name is lost. -/

/-- **What stood under the name** is lost, whatever takes its place. -/
theorem Holds.books_enter {entered others : Multiset Loan} {gone : List Loan}
    (h : s.Holds (entered + loans) tickets) (hreplaces : s.Replaces entered t gone others) :
    s.Books (entered + loans) ⟨[], [], gone.filterMap Loan.account?⟩ t loans := by
  have hstore := h.store
  rw [hreplaces.before, add_left_comm] at hstore
  unfold Books
  rw [hreplaces.before, hreplaces.behind, hreplaces.store_eq, add_left_comm (entered + loans),
    add_left_comm loans, ← add_assoc entered]
  exact after_of_ends hstore.balances_forM_lose

/-- **Entering a loan.** -/
theorem Holds.books_enterLoan {loan : Loan} (h : s.Holds (loan ::ₘ loans) tickets)
    (name : String) :
    ∃ lost, s.Books (loan ::ₘ loans) ⟨[], [], lost⟩ (s.enterLoan name loan) loans := by
  obtain ⟨gone, others, hreplaces⟩ := s.exists_replaces_loan name loan
  rw [← Multiset.singleton_add] at h ⊢
  exact ⟨_, h.books_enter hreplaces⟩

/-- **Entering a ticket.** -/
theorem Holds.books_enterTicket {ticket : Ticket} (h : s.Holds loans (ticket ::ₘ tickets))
    (name : String) :
    ∃ lost, s.Books loans ⟨[], [], lost⟩ (s.enterTicket name ticket) loans := by
  unfold Session.enterTicket letGo
  cases hold : s.tickets.get? name with
  | none => exact ⟨[], .refl _ _⟩
  | some old =>
    have hstore := (h.erase_ticket hold).store
    rw [Multiset.cons_add] at hstore
    exact after_of_ends hstore.balances_discardTicket

/-- **Entering an arena.** -/
theorem Holds.books_enterArena {arena : Arena} (h : s.Holds (↑arena.chunks + loans) tickets)
    (name : String) :
    ∃ lost, s.Books (↑arena.chunks + loans) ⟨[], [], lost⟩ (s.enterArena name arena) loans := by
  obtain ⟨gone, others, hreplaces⟩ := s.exists_replaces_arena name arena
  exact ⟨_, h.books_enter hreplaces⟩

/-- **Entering a buffer.** -/
theorem Holds.books_enterBuffer {buffer : Buffer}
    (h : s.Holds (↑buffer.chunks + loans) tickets) (name : String) :
    ∃ lost, s.Books (↑buffer.chunks + loans) ⟨[], [], lost⟩ (s.enterBuffer name buffer)
      loans := by
  obtain ⟨gone, others, hreplaces⟩ := s.exists_replaces_buffer name buffer
  exact ⟨_, h.books_enter hreplaces⟩

/-! ## The parts of a command -/

/-- **A command enters** the loans that it makes, those that are given back and those that
are lost. -/
def Deals (s : Session) (returned : List Account) (step : Step) : Prop :=
  ∃ lent lost, s.Books 0 ⟨lent, returned, lost⟩ step.2 0

/-- A command that only looks enters nothing. -/
theorem deals_refl (s : Session) (answer : Answer) : s.Deals [] (answer, s) :=
  ⟨[], [], .refl _ _⟩

/-- What is lost when a thing is entered comes behind all that was done before. -/
theorem Books.deals {answer : Answer} (h : s.Books 0 ⟨lent, returned, []⟩ t loans)
    (henter : ∃ lost, t.Books loans ⟨[], [], lost⟩ u 0) : s.Deals returned (answer, u) := by
  obtain ⟨lost, henter⟩ := henter
  have hboth : s.Books 0 ⟨lent ++ [], returned ++ [], lost⟩ u 0 := h.trans henter
  rw [List.append_nil, List.append_nil] at hboth
  exact ⟨lent, lost, hboth⟩

/-- What goes on with a thing enters what it does for it, and nothing if it is not there. -/
theorem deals_expect {α : Type} {thing : Option α} {go : α → Step} {given : α → List Account}
    (h : ∀ a, thing = some a → s.Deals (given a) (go a)) :
    s.Deals (thing.elim [] given) (s.expect thing go) := by
  cases thing with
  | none => exact s.deals_refl _
  | some a => exact h a rfl

/-- What goes on with an answer of the store enters what it does for that answer. -/
theorem deals_run {α : Type} {action : StoreM α} {go : α → Session → Step}
    (h : Ends (action s.store) (fun a t => r.Deals returned (go a { s with store := t }))
      fun abort t => r.Deals returned (.aborted abort, { s with store := t })) :
    r.Deals returned (s.run action go) := by
  unfold run
  cases hresult : action s.store <;> rw [hresult] at h <;> exact h

/-- **An action on what is taken out**, and nothing else. -/
theorem deals_run_done {action : StoreM Unit} (hheld : r.holdings = loans + s.holdings)
    (hstore : r.store = s.store)
    (haction : Ends (action s.store)
      (fun _ t => ∃ lost, s.store.Balances (loans + s.holdings) ⟨[], returned, lost⟩ t s.holdings)
      fun _ t => ∃ lost, s.store.Balances (loans + s.holdings) ⟨[], returned, lost⟩ t s.holdings) :
    r.Deals returned (s.run action fun () s => (.done, s)) := by
  have hdeals {t : Store} {answer : Answer}
      (h : ∃ lost, s.store.Balances (loans + s.holdings) ⟨[], returned, lost⟩ t s.holdings) :
      r.Deals returned (answer, { s with store := t }) := by
    obtain ⟨lost, h⟩ := h
    refine ⟨[], lost, ?_⟩
    unfold Books
    rw [zero_add, zero_add, hheld, hstore]
    exact h
  exact deals_run (haction.mono (fun _ _ ht => hdeals ht) fun _ _ ht => hdeals ht)

/-- **What goes on with an arena** enters what the action on the arena does. -/
theorem deals_runArena {α : Type} {name : String} {arena : Arena}
    (h : s.Sound) (harena : s.arenas.get? name = some arena) {action : HolderM Arena α}
    {go : α → Arena → Session → Step}
    (haction : ∀ {loans : Multiset Loan} {tickets : Multiset Ticket},
      s.store.Sound (↑arena.chunks + loans) tickets → arena.home < s.store.pools.length →
      Ends (action (arena, s.store))
        (fun _ t => ∃ lent, s.store.Balances (↑arena.chunks + loans) ⟨lent, returned, []⟩ t.2
          (↑t.1.chunks + loans))
        fun _ t => ∃ lent, s.store.Balances (↑arena.chunks + loans) ⟨lent, returned, []⟩ t.2
          (↑t.1.chunks + loans))
    (hgo : ∀ a arena t, (go a arena t).2.store = t.store ∧
      (go a arena t).2.holdings = t.holdings) :
    s.Deals returned (s.runArena name arena action go) := by
  have hstore := (Holds.erase_arena h harena).store
  rw [add_zero] at hstore
  have hends := haction hstore (h.arenas_lt arena (Table.mem_values_of_get? harena))
  have hdeals {t : Arena × Store} {u : Session} (ht : ∃ lent, s.store.Balances
        (↑arena.chunks + { s with arenas := s.arenas.erase name }.holdings)
        ⟨lent, returned, []⟩ t.2
        (↑t.1.chunks + { s with arenas := s.arenas.erase name }.holdings))
      (hsame : u.store = t.2)
      (hheld : u.holdings = { s with arenas := s.arenas.put name t.1 }.holdings) :
      ∃ lent lost, s.Books 0 ⟨lent, returned, lost⟩ u 0 := by
    obtain ⟨lent, ht⟩ := ht
    refine ⟨lent, [], ?_⟩
    unfold Books
    rw [zero_add, zero_add, hsame, hheld, holdings_erase_arena harena, holdings_put_arena]
    exact ht
  unfold runArena
  cases hresult : action (arena, s.store) with
  | ok a t =>
    rw [hresult] at hends
    obtain ⟨hsame, hheld⟩ := hgo a t.1 { s with store := t.2, arenas := s.arenas.put name t.1 }
    exact hdeals hends hsame hheld
  | error abort t =>
    rw [hresult] at hends
    exact hdeals hends rfl rfl

/-! ## Commands by kind -/

/-- **The loans that a command gives back**: those it is asked to give back, and the memory
of a message that cannot be written. -/
def givesBack (s : Session) : Command → List Account
  | .loan (.release name) => (s.loans.get? name).elim [] fun loan => loan.account?.toList
  | .ticket (.redeem name) =>
    (s.tickets.get? name).elim [] fun ticket => (s.store.honoured ticket).toList
  | .arena (.reset name) | .arena (.release name) =>
    (s.arenas.get? name).elim [] fun arena => arena.chunks.filterMap Loan.account?
  | .buffer (.release name) =>
    (s.buffers.get? name).elim [] fun buffer => buffer.chunks.filterMap Loan.account?
  | .message (.encode pool order script _) =>
    (script.abandons order (pool.bind s.pools.get?) s.store).filterMap Loan.account?
  | _ => []

/-- A loan that was made is entered. -/
theorem Sound.deals_enterLoan (h : s.Sound) {v : Store} {loan : Loan} {answer : Answer}
    (hleads : s.store.Leads (loan ::ₘ (0 + s.holdings)) (0 + ↑s.tickets.values) v)
    (hbalances : s.store.Balances (0 + s.holdings) ⟨lent, returned, []⟩ v
      (loan ::ₘ (0 + s.holdings))) (name : String) :
    s.Deals returned (answer, { s with store := v }.enterLoan name loan) := by
  rw [← Multiset.cons_add] at hleads hbalances
  have hfirst : s.Books 0 ⟨lent, returned, []⟩ { s with store := v } (loan ::ₘ 0) := hbalances
  exact hfirst.deals ((Holds.leads_store h hleads).1.books_enterLoan name)

/-- **Commands on pools.** -/
theorem Sound.deals_poolStep (h : s.Sound) (command : PoolCommand) :
    s.Deals (s.givesBack (.pool command)) (s.poolStep command) := by
  have hrefuse : s.Deals [] s.refuse := s.deals_refl _
  have hnew {pools : Table Nat} {shared : Option Nat} :
      s.Deals [] (.done, { s with store := s.store.addPool.2, pools, shared }) :=
    ⟨[], [], .of_pool_eq (pool_addPool s.store) (fun _ => rfl) rfl rfl rfl⟩
  cases command with
  | make name => exact hnew
  | shared name =>
    simp only [poolStep]
    split
    · exact ⟨[], [], .refl _ _⟩
    · exact hnew
  | clone pool name => exact expect_of hrefuse fun _ _ => ⟨[], [], .refl _ _⟩
  | forget pool => exact expect_of hrefuse fun _ _ => ⟨[], [], .refl _ _⟩
  | same first second =>
    exact expect_of hrefuse fun _ _ => expect_of hrefuse fun _ _ => s.deals_refl _
  | figures pool => exact expect_of hrefuse fun _ _ => s.deals_refl _
  | classFigures pool capacity => exact expect_of hrefuse fun _ _ => s.deals_refl _
  | borrow pool len zero name =>
    refine expect_of hrefuse fun number hnumber => deals_run ?_
    have hlt := h.pools_lt number (Table.mem_values_of_get? hnumber)
    exact ((h.store.borrow hlt len zero).and (h.store.balances_borrow hlt len zero)).mono
      (fun loan t ht => h.deals_enterLoan ht.1.1 ht.2 name) fun _ _ ht => ⟨[], [], ht.2⟩
  | concat pool parts name =>
    refine expect_of hrefuse fun number hnumber => deals_run ?_
    have hlt := h.pools_lt number (Table.mem_values_of_get? hnumber)
    exact ((h.store.concat hlt parts).and (h.store.balances_concat hlt parts)).mono
      (fun loan t ht => h.deals_enterLoan ht.1.1 ht.2 name) fun _ _ ht => ⟨[], [], ht.2⟩

/-- **Commands on loans.** -/
theorem Sound.deals_loanStep (h : s.Sound) (command : LoanCommand) :
    s.Deals (s.givesBack (.loan command)) (s.loanStep command) := by
  have hrefuse : s.Deals [] s.refuse := s.deals_refl _
  cases command with
  | idle name =>
    have hidle : s.Books 0 {} s (Loan.idle ::ₘ 0) := by
      refine .of_pool_eq (fun _ => rfl) (fun number => ?_) rfl rfl rfl
      rw [Multiset.cons_add]
      exact heldAccounts_cons_unpooled number _ _
    exact hidle.deals (h.idle.books_enterLoan name)
  | info name => exact expect_of hrefuse fun _ _ => s.deals_refl _
  | fill name value stretch =>
    refine expect_of hrefuse fun loan hloan => ⟨[], [], ?_⟩
    refine Store.Balances.of_terms_eq (.refl _ _) ?_
    rw [zero_add, zero_add, holdings_put_loan, holdings_erase_loan hloan, Multiset.map_cons,
      Multiset.map_cons, Loan.terms_fill]
  | dump name stretch => exact expect_of hrefuse fun _ _ => s.deals_refl _
  | runs name stretch => exact expect_of hrefuse fun _ _ => s.deals_refl _
  | release name =>
    refine deals_expect fun loan hloan => ?_
    exact deals_run_done (holdings_eq_singleton_add hloan) rfl
      ((h.store_erase_loan hloan).balances_release.mono (fun _ _ ht => ⟨[], ht⟩)
        fun _ _ hf => hf.elim)
  | drop name =>
    refine expect_of hrefuse fun loan hloan => ?_
    exact deals_run_done (holdings_eq_singleton_add hloan) rfl
      ((h.store_erase_loan hloan).balances_lose.mono (fun _ _ ht => ⟨_, ht⟩)
        fun _ _ hf => hf.elim)
  | detach loanName name =>
    refine expect_of hrefuse fun loan hloan => ?_
    have hheld := Holds.erase_loan h hloan
    have htaken := hheld.store
    rw [Multiset.cons_add] at htaken
    obtain ⟨ticket, t, hdetach, ⟨hsound, hdetached⟩, hbalances⟩ :=
      ((htaken.detach.and htaken.balances_detach).mono (fun _ _ ht => ht)
        fun _ _ hf => hf.1).exists_ok
    rw [run_of_ok (s := { s with loans := s.loans.erase loanName }) hdetach]
    rw [← Multiset.cons_add] at hsound
    have hfirst : s.Books 0 {} { s with loans := s.loans.erase loanName, store := t } 0 := by
      unfold Books
      rw [holdings_erase_loan hloan, Multiset.add_cons]
      exact hbalances
    exact hfirst.deals ((hheld.withStore hsound hdetached.length_le).books_enterTicket name)

/-- **Commands on tickets.** -/
theorem Sound.deals_ticketStep (h : s.Sound) (command : TicketCommand) :
    s.Deals (s.givesBack (.ticket command)) (s.ticketStep command) := by
  have hrefuse : s.Deals [] s.refuse := s.deals_refl _
  cases command with
  | idle name =>
    have hfirst : s.Books 0 {} s 0 := .refl _ _
    exact hfirst.deals (h.idleTicket.books_enterTicket name)
  | info name => exact expect_of hrefuse fun _ _ => s.deals_refl _
  | clone held name =>
    refine expect_of hrefuse fun ticket hticket => ?_
    have hmem : ticket ∈ 0 + (s.tickets.values : Multiset Ticket) :=
      Multiset.mem_add.mpr (.inr (Table.mem_values_of_get? hticket))
    obtain ⟨_, t, hcopy, ⟨rfl, hleads, -⟩, hbalances⟩ :=
      ((h.store.copyTicket hmem).and (h.store.balances_copyTicket hmem)).mono
        (fun _ _ ht => ht) (fun _ _ hf => hf.1) |>.exists_ok
    rw [run_of_ok hcopy]
    rw [← Multiset.cons_add] at hleads
    have hfirst : s.Books 0 {} { s with store := t } 0 := hbalances
    exact hfirst.deals ((Holds.leads_store h hleads).1.books_enterTicket name)
  | redeem name =>
    refine deals_expect fun ticket hticket => deals_run_done (zero_add _).symm rfl ?_
    rw [zero_add]
    exact (h.store_erase_ticket hticket).balances_redeem
  | discard name =>
    refine expect_of hrefuse fun ticket hticket => deals_run_done (zero_add _).symm rfl ?_
    rw [zero_add]
    exact (h.store_erase_ticket hticket).balances_discardTicket.mono (fun _ _ ht => ht)
      fun _ _ hf => hf.elim

/-- **Commands on arenas.** -/
theorem Sound.deals_arenaStep (h : s.Sound) (command : ArenaCommand) :
    s.Deals (s.givesBack (.arena command)) (s.arenaStep command) := by
  have hrefuse : s.Deals [] s.refuse := s.deals_refl _
  cases command with
  | make pool size checked name =>
    rcases s.arenaStep_make pool size checked name with hstep | ⟨fault, hstep⟩ |
      ⟨home, hhome, hstep⟩ <;> rw [hstep]
    · exact hrefuse
    · exact s.deals_refl _
    · have hempty : s.Holds (↑(Arena.new home size).chunks + 0) 0 := h
      have hfirst : s.Books 0 {} s (↑(Arena.new home size).chunks + 0) := .refl _ _
      exact hfirst.deals (hempty.books_enterArena name)
  | info name => exact expect_of hrefuse fun _ _ => s.deals_refl _
  | get name len zero slice =>
    exact expect_of hrefuse fun arena harena => deals_runArena h harena
      (fun hsound hhome => Arena.borrows_get hsound hhome len zero)
      fun _ _ t => enterSlice_same t name _ slice
  | copy name row slice =>
    exact expect_of hrefuse fun arena harena => deals_runArena h harena
      (fun hsound hhome => Arena.borrows_copy hsound hhome row)
      fun _ _ t => enterSlice_same t name _ slice
  | fill name value =>
    refine expect_of hrefuse fun found hfound => ?_
    obtain ⟨arenaName, arena, slice⟩ := found
    have harena : s.arenas.get? arenaName = some arena := arena_of_slice? hfound
    refine ⟨[], [], Store.Balances.of_terms_eq (.refl _ _) ?_⟩
    rw [zero_add, zero_add, holdings_put_arena, holdings_erase_arena harena, Multiset.map_add,
      Multiset.map_add, Multiset.map_coe, Multiset.map_coe]
    exact congrArg (fun terms : List Terms => (terms : Multiset Terms) + _)
      (Arena.terms_modifyChunk arena slice fun loan => Loan.terms_fill loan _ _ _)
  | dump name stretch => exact expect_of hrefuse fun _ _ => s.deals_refl _
  | runs name stretch => exact expect_of hrefuse fun _ _ => s.deals_refl _
  | reset name =>
    refine deals_expect fun arena harena => ?_
    exact deals_runArena (Holds.endSlices h name) harena
      (fun hsound _ => (Arena.balances_reset hsound).mono (fun _ _ ht => ⟨[], ht⟩)
        fun _ _ hf => hf.elim)
      fun _ _ _ => ⟨rfl, rfl⟩
  | release name =>
    refine deals_expect fun arena harena => ?_
    exact deals_run_done (holdings_erase_arena harena) rfl
      ((Arena.balances_release (h.store_erase_arena harena)).mono (fun _ _ ht => ⟨[], ht⟩)
        fun _ _ hf => hf.elim)
  | drop name =>
    refine expect_of hrefuse fun arena harena => ?_
    exact deals_run_done (holdings_erase_arena harena) rfl
      ((Arena.balances_drop (h.store_erase_arena harena)).mono (fun _ _ ht => ⟨_, ht⟩)
        fun _ _ hf => hf.elim)

/-- **Commands on messages.** -/
theorem Sound.deals_messageStep (h : s.Sound) (command : MessageCommand) :
    s.Deals (s.givesBack (.message command)) (s.messageStep command) := by
  have hrefuse : s.Deals [] s.refuse := s.deals_refl _
  cases command with
  | encode pool order script name =>
    have hgo (home : Option Nat) (hhome : ∀ number ∈ home, number < s.store.pools.length) :
        s.Deals ((script.abandons order home s.store).filterMap Loan.account?)
          (s.run (script.encode order home) fun encoded s => s.enterEncoded name encoded) := by
      refine deals_run (((script.ends_encode h.store hhome order).and
        (Script.balances_encode h.store hhome script order)).mono (fun encoded t ht => ?_)
        fun abort t ht => ?_)
      · obtain ⟨hleads, row, hbalances⟩ := ht
        obtain ⟨counting, writing, result⟩ := encoded
        cases result with
        | error failure =>
          refine ⟨row, [], ?_⟩
          change s.store.Balances _ _ t (↑([] : List Loan) + (0 + s.holdings)) at hbalances
          rw [Multiset.coe_nil, zero_add (0 + s.holdings)] at hbalances
          exact hbalances
        | ok loan =>
          change s.store.Balances _ _ t (↑[loan] + (0 + s.holdings)) at hbalances
          rw [Multiset.coe_singleton, Multiset.singleton_add] at hbalances
          exact h.deals_enterLoan hleads hbalances name
      · obtain ⟨-, row, hbalances⟩ := ht
        exact ⟨row, [], hbalances⟩
    cases pool with
    | none => exact hgo none nofun
    | some pool =>
      cases hpool : s.pools.get? pool with
      | none =>
        have hnothing : s.givesBack (.message (.encode (some pool) order script name)) = [] := by
          show (script.abandons order (s.pools.get? pool) s.store).filterMap Loan.account? = []
          rw [hpool, Script.abandons_none]
        rw [hnothing]
        show s.Deals [] (s.expect (s.pools.get? pool) _)
        rw [hpool]
        exact hrefuse
      | some home =>
        show s.Deals ((script.abandons order (s.pools.get? pool) s.store).filterMap Loan.account?)
          (s.expect (s.pools.get? pool) _)
        rw [hpool]
        refine hgo (some home) fun number hnumber => ?_
        cases hnumber
        exact h.pools_lt home (Table.mem_values_of_get? hpool)
  | encodeInArena name order script slice =>
    refine expect_of hrefuse fun arena harena => deals_runArena h harena
      (fun hsound hhome => Script.borrows_encodeInArena hsound hhome script order)
      fun encoded _ t => ?_
    obtain ⟨_, _, result⟩ := encoded
    cases result with
    | ok found => exact enterSlice_same t name found slice
    | error failure => exact ⟨rfl, rfl⟩
  | decode source arena order calls fallible =>
    refine expect_of hrefuse fun input _ => ?_
    cases arena with
    | none => exact s.deals_refl _
    | some name =>
      exact expect_of hrefuse fun arena harena => deals_runArena h harena
        (fun hsound hhome => Arena.borrows_forM_copy _ hsound hhome) fun _ _ _ => ⟨rfl, rfl⟩

/-- **Commands on buffers.** -/
theorem Sound.deals_bufferStep (h : s.Sound) (command : BufferCommand) :
    s.Deals (s.givesBack (.buffer command)) (s.bufferStep command) := by
  have hrefuse : s.Deals [] s.refuse := s.deals_refl _
  cases command with
  | make pool chunkSize checked name =>
    rcases Nat.eq_zero_or_pos chunkSize with rfl | hpos
    · obtain ⟨hsame, -⟩ := s.bufferStep_make_zero pool checked name
      refine ⟨[], [], ?_⟩
      rw [hsame]
      exact .refl _ _
    · cases hpool : s.pools.get? pool with
      | none =>
        unfold bufferStep
        dsimp only
        rw [hpool]
        exact hrefuse
      | some home =>
        rw [bufferStep_make hpool hpos]
        let buffer : Buffer := { home, chunkSize, chunkSize_pos := hpos }
        have hempty : s.Holds (↑buffer.chunks + 0) 0 := h
        have hfirst : s.Books 0 {} s (↑buffer.chunks + 0) := .refl _ _
        exact hfirst.deals (hempty.books_enterBuffer name)
  | info name => exact expect_of hrefuse fun _ _ => s.deals_refl _
  | release name =>
    refine deals_expect fun buffer hbuffer => ?_
    exact deals_run_done (holdings_erase_buffer hbuffer) rfl
      ((Buffer.balances_release (h.store_erase_buffer hbuffer)).mono (fun _ _ ht => ⟨[], ht⟩)
        fun _ _ hf => hf.elim)
  | drop name =>
    refine expect_of hrefuse fun buffer hbuffer => ?_
    exact deals_run_done (holdings_erase_buffer hbuffer) rfl
      ((Buffer.balances_drop (h.store_erase_buffer hbuffer)).mono (fun _ _ ht => ⟨_, ht⟩)
        fun _ _ hf => hf.elim)
  | request name request =>
    refine expect_of hrefuse fun buffer hbuffer => ?_
    have hends := Buffer.borrows_request (h.store_erase_buffer hbuffer)
      (h.buffers_lt buffer (Table.mem_values_of_get? hbuffer)) request
    have hput {t : Buffer × Store} {answer : Answer}
        (ht : buffer.Borrows s.store { s with buffers := s.buffers.erase name }.holdings t) :
        s.Deals [] (answer, { s with store := t.2, buffers := s.buffers.put name t.1 }) := by
      obtain ⟨lent, ht⟩ := ht
      refine ⟨lent, [], ?_⟩
      unfold Books
      rw [zero_add, zero_add, holdings_erase_buffer hbuffer]
      show s.store.Balances _ _ _ { s with buffers := s.buffers.put name t.1 }.holdings
      rw [holdings_put_buffer]
      exact ht
    cases hresult : request.run (buffer, s.store) with
    | ok outcome t =>
      rw [hresult] at hends
      exact hput hends
    | error abort t =>
      rw [hresult] at hends
      exact hput hends

/-! ## What every command enters -/

/-- **A command enters a row in the books.** -/
structure Enters (s : Session) (command : Command) (row : Dealings) : Prop where
  /-- What is given back is what the command gives back. -/
  returned : row.returned = s.givesBack command
  tallies : s.store.Tallies s.holdings row (s.step command).2.store (s.step command).2.holdings
  /-- If there is a tracker, it receives a report on each loan that is lost. -/
  reported : (s.step command).2.store.reported =
    (if s.store.tracking then (row.lost.map Account.figures).reverse else []) ++ s.store.reported

/-- What a command that switches nothing enters. -/
theorem Deals.exists_enters {command : Command}
    (h : s.Deals (s.givesBack command) (s.step command)) : ∃ row, s.Enters command row := by
  obtain ⟨lent, lost, hbooks⟩ := h
  unfold Books at hbooks
  rw [zero_add, zero_add] at hbooks
  exact ⟨_, rfl, hbooks.toTallies, hbooks.reported⟩

/-- **Every command enters a row.** -/
theorem Sound.exists_enters (h : s.Sound) (command : Command) :
    ∃ row, s.Enters command row := by
  cases command with
  | pool command => exact Deals.exists_enters (h.deals_poolStep command)
  | loan command => exact Deals.exists_enters (h.deals_loanStep command)
  | ticket command => exact Deals.exists_enters (h.deals_ticketStep command)
  | arena command => exact Deals.exists_enters (h.deals_arenaStep command)
  | message command => exact Deals.exists_enters (h.deals_messageStep command)
  | buffer command => exact Deals.exists_enters (h.deals_bufferStep command)
  | watch command =>
    have hsame : s.store.Balances s.holdings {} s.store s.holdings := .refl _ _
    cases command with
    | install tracker =>
      -- nothing but the tracker is switched, and the accounts do not depend on it
      exact ⟨{}, rfl, ⟨hsame.balance, hsame.numbered, hsame.generation, hsame.served,
        hsame.leaked, hsame.warned⟩, hsame.reported⟩
    | trace on =>
      exact ⟨{}, rfl, ⟨hsame.balance, hsame.numbered, hsame.generation, hsame.served,
        hsame.leaked, hsame.warned⟩, hsame.reported⟩
    | describe name =>
      refine Deals.exists_enters ?_
      exact expect_of (s.deals_refl _) fun _ _ => s.deals_refl _

end Session

end Wirepool
