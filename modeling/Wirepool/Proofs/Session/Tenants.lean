import Wirepool.Proofs.Arena.Tenants
import Wirepool.Proofs.Session.Ownership

/-!
# Pages pass from tenant to tenant

Whatever a session does, the depot of each pool makes a row of moves, and the command says
which moves these can be. A command lends if it borrows, and takes back if it gives
something back, loses it, or enters something under a name that is taken. It writes only to
pages that nobody holds but whoever the command writes through. All other commands leave the
depots as they are.

This is said of one command here, and of rows of commands where the diary of a pool is kept.
-/

namespace Wirepool

open HolderM

namespace Holder

/-- It is a chunk of an arena. -/
def IsChunk (holder : Holder) (arena : String) : Prop := ∃ position, holder = chunk arena position

/-- It is a chunk of a buffer. -/
def IsPiece (holder : Holder) (buffer : String) : Prop :=
  ∃ position, holder = piece buffer position

end Holder

namespace Session

variable {s r t u : Session} {loans loans' loans'' : Multiset Loan} {tickets : Multiset Ticket}
  {number : Nat} {license : License}

/-! ## Licenses -/

/-- **A page is with nobody else**: whoever holds it is one of these. -/
def OnlyWith (s : Session) (number : Nat) (own : Holder → Prop) (page : PageId) : Prop :=
  ∀ holder lease, s.held holder = some (.pooled lease) → lease.home = number →
    lease.page.id = page → own holder

/-- **What a command may do** with the pages of a pool. -/
def permit (s : Session) (number : Nat) : Command → License
  | .pool (.borrow _ _ _ _) => { lends := true, regains := true }
  | .pool (.concat _ _ _) | .message (.encode _ _ _ _) =>
    { lends := true, writes := s.OnlyWith number fun _ => False, regains := true }
  | .loan (.fill name _ _) => { writes := s.OnlyWith number (· = .loan name) }
  | .loan (.detach _ _) => { detaches := true, collects := true }
  | .loan (.idle _) | .loan (.release _) | .loan (.drop _) => { regains := true }
  | .ticket _ => { collects := true }
  | .arena (.get name _ zero _) =>
    { lends := true, writes := fun page => zero = true ∧ s.OnlyWith number (·.IsChunk name) page }
  | .arena (.copy name _ _) | .message (.encodeInArena name _ _ _)
  | .message (.decode _ (some name) _ _ _) =>
    { lends := true, writes := s.OnlyWith number (·.IsChunk name) }
  | .arena (.fill slice _) =>
    { writes := fun page => ∃ name arena part, s.slice? slice = some (name, arena, part) ∧
        s.OnlyWith number (·.IsChunk name) page }
  | .arena (.make _ _ _ _) | .arena (.reset _) | .arena (.release _) | .arena (.drop _)
  | .buffer (.make _ _ _ _) | .buffer (.release _) | .buffer (.drop _) => { regains := true }
  | .buffer (.request name request) =>
    { lends := request.writes
      writes := fun page => request.writes = true ∧ s.OnlyWith number (·.IsPiece name) page }
  | _ => {}

/-- **What none of the others holds** is with nobody else. -/
theorem onlyWith_of_notHeld {own : Holder → Prop} {page : PageId}
    (h : NotHeld number loans page)
    (hothers : ∀ holder loan, s.held holder = some loan → ¬own holder → loan ∈ loans) :
    s.OnlyWith number own page := by
  intro holder lease hheld hhome hpage
  by_contra hown
  exact h lease (mem_leasesAt.mpr ⟨hothers holder _ hheld hown, hhome⟩) hpage

/-! ## The parts of a command -/

/-- **Pages pass** in a session, with loans in hand before and afterwards. -/
def Passes (s : Session) (number : Nat) (license : License) (loans : Multiset Loan) (t : Session)
    (loans' : Multiset Loan) : Prop :=
  s.store.Passes number license (loans + s.holdings) t.store (loans' + t.holdings)

theorem Passes.trans (h : s.Passes number license loans t loans')
    (h' : t.Passes number license loans' u loans'') : s.Passes number license loans u loans'' :=
  Store.Passes.trans h h'

/-- **The moves of a step** are moves that a license allows. -/
def Moves (s : Session) (number : Nat) (license : License) (step : Step) : Prop :=
  s.Passes number license 0 step.2 0

/-- A command that only looks is no move. -/
theorem moves_refl (s : Session) (answer : Answer) : s.Moves number license (answer, s) :=
  Store.Passes.refl _ _

/-- **What stood under a name** comes back, whatever takes its place. -/
theorem Holds.passes_enter {entered others : Multiset Loan} {gone : List Loan}
    (h : s.Holds (entered + loans) tickets) (hreplaces : s.Replaces entered t gone others)
    (number : Nat) (hregains : license.regains = true) :
    s.Passes number license (entered + loans) t loans := by
  have hstore := h.store
  rw [hreplaces.before, add_left_comm] at hstore
  unfold Passes
  rw [hreplaces.before, hreplaces.behind, hreplaces.store_eq, add_left_comm (entered + loans),
    add_left_comm loans, ← add_assoc entered]
  exact after_of_ends (hstore.passes_forM_lose number hregains)

/-- **Entering a loan.** -/
theorem Holds.passes_enterLoan {loan : Loan} (h : s.Holds (loan ::ₘ loans) tickets)
    (number : Nat) (name : String) (hregains : license.regains = true) :
    s.Passes number license (loan ::ₘ loans) (s.enterLoan name loan) loans := by
  obtain ⟨gone, others, hreplaces⟩ := s.exists_replaces_loan name loan
  rw [← Multiset.singleton_add] at h ⊢
  exact h.passes_enter hreplaces number hregains

/-- **Entering a ticket.** -/
theorem Holds.passes_enterTicket {ticket : Ticket} (h : s.Holds loans (ticket ::ₘ tickets))
    (number : Nat) (name : String) (hcollects : license.collects = true) :
    s.Passes number license loans (s.enterTicket name ticket) loans := by
  unfold Session.enterTicket letGo
  cases hold : s.tickets.get? name with
  | none => exact Store.Passes.refl _ _
  | some old =>
    have hstore := (h.erase_ticket hold).store
    rw [Multiset.cons_add] at hstore
    exact after_of_ends (hstore.passes_discardTicket number hcollects)

/-- **Entering an arena.** -/
theorem Holds.passes_enterArena {arena : Arena} (h : s.Holds (↑arena.chunks + loans) tickets)
    (number : Nat) (name : String) (hregains : license.regains = true) :
    s.Passes number license (↑arena.chunks + loans) (s.enterArena name arena) loans := by
  obtain ⟨gone, others, hreplaces⟩ := s.exists_replaces_arena name arena
  exact h.passes_enter hreplaces number hregains

/-- **Entering a buffer.** -/
theorem Holds.passes_enterBuffer {buffer : Buffer}
    (h : s.Holds (↑buffer.chunks + loans) tickets) (number : Nat) (name : String)
    (hregains : license.regains = true) :
    s.Passes number license (↑buffer.chunks + loans) (s.enterBuffer name buffer) loans := by
  obtain ⟨gone, others, hreplaces⟩ := s.exists_replaces_buffer name buffer
  exact h.passes_enter hreplaces number hregains

/-- What goes on with an answer of the store moves what it moves for that answer. -/
theorem moves_run {α : Type} {action : StoreM α} {go : α → Session → Step}
    (h : Ends (action s.store) (fun a t => r.Moves number license (go a { s with store := t }))
      fun abort t => r.Moves number license (.aborted abort, { s with store := t })) :
    r.Moves number license (s.run action go) := by
  unfold run
  cases hresult : action s.store <;> rw [hresult] at h <;> exact h

/-- **An action on what is taken out**, and nothing else. -/
theorem moves_run_done {action : StoreM Unit} (hheld : r.holdings = loans + s.holdings)
    (hstore : r.store = s.store)
    (haction : Ends (action s.store)
      (fun _ t => s.store.Passes number license (loans + s.holdings) t s.holdings)
      fun _ t => s.store.Passes number license (loans + s.holdings) t s.holdings) :
    r.Moves number license (s.run action fun () s => (.done, s)) := by
  have hmoves {v : Store} {answer : Answer}
      (h : s.store.Passes number license (loans + s.holdings) v s.holdings) :
      r.Moves number license (answer, { s with store := v }) := by
    unfold Moves Passes
    rw [zero_add, zero_add, hheld, hstore]
    exact h
  exact moves_run (haction.mono (fun _ _ ht => hmoves ht) fun _ _ ht => hmoves ht)

/-- **What goes on with an arena** moves what the action on the arena moves. -/
theorem Sound.moves_runArena {α : Type} {name : String} {arena : Arena} (h : s.Sound)
    (harena : s.arenas.get? name = some arena) {action : HolderM Arena α}
    {go : α → Arena → Session → Step}
    (haction : ∀ others, others = { s with arenas := s.arenas.erase name }.holdings →
      s.store.Sound (↑arena.chunks + others) s.tickets.values →
      arena.home < s.store.pools.length →
      Ends (action (arena, s.store)) (fun _ => arena.Passes s.store number license others)
        fun _ => arena.Passes s.store number license others)
    (hgo : ∀ a arena t, (go a arena t).2.store = t.store ∧
      (go a arena t).2.holdings = t.holdings) :
    s.Moves number license (s.runArena name arena action go) := by
  let others := { s with arenas := s.arenas.erase name }.holdings
  have hstore : s.store.Sound (↑arena.chunks + others) s.tickets.values :=
    h.store_erase_arena harena
  have hends := haction others rfl hstore (h.arenas_lt arena (Table.mem_values_of_get? harena))
  have hmoves {t : Arena × Store} {u : Session} (ht : arena.Passes s.store number license others t)
      (hsame : u.store = t.2)
      (hheld : u.holdings = { s with arenas := s.arenas.put name t.1 }.holdings) :
      s.Passes number license 0 u 0 := by
    unfold Passes
    rw [zero_add, zero_add, hsame, hheld, holdings_erase_arena harena, holdings_put_arena]
    exact ht
  unfold runArena
  cases hresult : action (arena, s.store) with
  | ok a t =>
    rw [hresult] at hends
    obtain ⟨hsame, hheld⟩ := hgo a t.1 { s with store := t.2, arenas := s.arenas.put name t.1 }
    exact hmoves hends hsame hheld
  | error abort t =>
    rw [hresult] at hends
    exact hmoves hends rfl rfl

/-! ## Commands by kind -/

/-- **A loan that was made** is entered. -/
theorem Sound.moves_enterLoan (h : s.Sound) {v : Store} {loan : Loan} {answer : Answer}
    (hleads : s.store.Leads (loan ::ₘ (0 + s.holdings)) (0 + ↑s.tickets.values) v)
    (hpasses : s.store.Passes number license (0 + s.holdings) v (loan ::ₘ (0 + s.holdings)))
    (name : String) (hregains : license.regains = true) :
    s.Moves number license (answer, { s with store := v }.enterLoan name loan) := by
  rw [← Multiset.cons_add] at hleads hpasses
  have hfirst : s.Passes number license 0 { s with store := v } (loan ::ₘ 0) := hpasses
  exact hfirst.trans ((Holds.leads_store h hleads).1.passes_enterLoan number name hregains)

/-- **Commands on pools.** -/
theorem Sound.moves_poolStep (h : s.Sound) (number : Nat) (command : PoolCommand) :
    s.Moves number (s.permit number (.pool command)) (s.poolStep command) := by
  have hrefuse {license : License} : s.Moves number license s.refuse := s.moves_refl _
  have hnew {pools : Table Nat} {shared : Option Nat} :
      s.Moves number {} (.done, { s with store := s.store.addPool.2, pools, shared }) :=
    Store.Passes.of_eq (pool_addPool s.store number) rfl
  cases command with
  | make name => exact hnew
  | shared name =>
    simp only [poolStep]
    split
    · exact Store.Passes.refl _ _
    · exact hnew
  | clone pool name => exact expect_of hrefuse fun _ _ => Store.Passes.refl _ _
  | forget pool => exact expect_of hrefuse fun _ _ => Store.Passes.refl _ _
  | same first second =>
    exact expect_of hrefuse fun _ _ => expect_of hrefuse fun _ _ => s.moves_refl _
  | figures pool => exact expect_of hrefuse fun _ _ => s.moves_refl _
  | classFigures pool capacity => exact expect_of hrefuse fun _ _ => s.moves_refl _
  | borrow pool len zero name =>
    refine expect_of hrefuse fun home hhome => moves_run ?_
    have hlt := h.pools_lt home (Table.mem_values_of_get? hhome)
    exact ((h.store.borrow hlt len zero).and (h.store.passes_borrow number hlt len zero rfl)).mono
      (fun loan t ht => h.moves_enterLoan ht.1.1 ht.2 name rfl) fun _ _ ht => ht.2
  | concat pool parts name =>
    refine expect_of hrefuse fun home hhome => moves_run ?_
    have hlt := h.pools_lt home (Table.mem_values_of_get? hhome)
    refine ((h.store.concat hlt parts).and (h.store.passes_concat number hlt parts rfl
      fun page hpage => ?_)).mono
      (fun loan t ht => h.moves_enterLoan ht.1.1 ht.2 name rfl) fun _ _ ht => ht.2
    rw [zero_add] at hpage
    exact onlyWith_of_notHeld hpage fun holder _ hheld _ => mem_holdings.mpr ⟨holder, hheld⟩

/-- **Commands on loans.** -/
theorem Sound.moves_loanStep (h : s.Sound) (number : Nat) (command : LoanCommand) :
    s.Moves number (s.permit number (.loan command)) (s.loanStep command) := by
  have hrefuse {license : License} : s.Moves number license s.refuse := s.moves_refl _
  cases command with
  | idle name =>
    have hidle : s.Passes number { regains := true } 0 s (Loan.idle ::ₘ 0) := by
      refine .of_eq rfl ?_
      rw [Multiset.cons_add]
      exact leasesAt_cons_unpooled number _ _
    exact hidle.trans (h.idle.passes_enterLoan number name rfl)
  | info name => exact expect_of hrefuse fun _ _ => s.moves_refl _
  | fill name value stretch =>
    refine expect_of hrefuse fun loan hloan => ?_
    unfold Moves Passes
    rw [zero_add, zero_add, holdings_erase_loan hloan]
    show s.store.Passes _ _ _ _
      { s with loans := s.loans.put name (loan.fill _ _ _) }.holdings
    rw [holdings_put_loan]
    exact Store.passes_rewrite (loan.rewrites_fill _ _ _) (fun lease hlease =>
      onlyWith_of_notHeld ((h.store_erase_loan hloan).notHeld hlease) fun _ _ hheld hne =>
        mem_holdings_erase_loan hheld hne) _
  | dump name stretch => exact expect_of hrefuse fun _ _ => s.moves_refl _
  | runs name stretch => exact expect_of hrefuse fun _ _ => s.moves_refl _
  | release name =>
    refine expect_of hrefuse fun loan hloan => ?_
    exact moves_run_done (holdings_eq_singleton_add hloan) rfl
      (((h.store_erase_loan hloan).passes_release number rfl).mono (fun _ _ ht => ht)
        fun _ _ hf => hf.elim)
  | drop name =>
    refine expect_of hrefuse fun loan hloan => ?_
    exact moves_run_done (holdings_eq_singleton_add hloan) rfl
      (((h.store_erase_loan hloan).passes_lose number rfl).mono (fun _ _ ht => ht)
        fun _ _ hf => hf.elim)
  | detach loanName name =>
    refine expect_of hrefuse fun loan hloan => ?_
    have hheld := Holds.erase_loan h hloan
    have htaken := hheld.store
    rw [Multiset.cons_add] at htaken
    let license : License := { detaches := true, collects := true }
    have hdetaches : license.detaches = true := rfl
    obtain ⟨ticket, t, hdetach, ⟨hsound, hdetached⟩, hpasses⟩ :=
      ((htaken.detach.and (htaken.passes_detach number hdetaches)).mono (fun _ _ ht => ht)
        fun _ _ hf => hf.1).exists_ok
    rw [run_of_ok (s := { s with loans := s.loans.erase loanName }) hdetach]
    rw [← Multiset.cons_add] at hsound
    have hfirst : s.Passes number license 0
        { s with loans := s.loans.erase loanName, store := t } 0 := by
      unfold Passes
      rw [holdings_erase_loan hloan, Multiset.add_cons]
      exact hpasses
    exact hfirst.trans ((hheld.withStore hsound hdetached.length_le).passes_enterTicket number
      name rfl)

/-- **Commands on tickets.** -/
theorem Sound.moves_ticketStep (h : s.Sound) (number : Nat) (command : TicketCommand) :
    s.Moves number (s.permit number (.ticket command)) (s.ticketStep command) := by
  have hrefuse {license : License} : s.Moves number license s.refuse := s.moves_refl _
  cases command with
  | idle name => exact h.idleTicket.passes_enterTicket number name rfl
  | info name => exact expect_of hrefuse fun _ _ => s.moves_refl _
  | clone held name =>
    refine expect_of hrefuse fun ticket hticket => ?_
    have hmem : ticket ∈ 0 + (s.tickets.values : Multiset Ticket) :=
      Multiset.mem_add.mpr (.inr (Table.mem_values_of_get? hticket))
    obtain ⟨_, t, hcopy, ⟨rfl, hleads, -⟩, hpasses⟩ :=
      ((h.store.copyTicket hmem).and (h.store.passes_copyTicket number hmem)).mono
        (fun _ _ ht => ht) (fun _ _ hf => hf.1) |>.exists_ok
    rw [run_of_ok hcopy]
    rw [← Multiset.cons_add] at hleads
    have hfirst : s.Passes number { collects := true } 0 { s with store := t } 0 := hpasses
    exact hfirst.trans ((Holds.leads_store h hleads).1.passes_enterTicket number name rfl)
  | redeem name =>
    refine expect_of hrefuse fun ticket hticket => moves_run_done (zero_add _).symm rfl ?_
    rw [zero_add]
    exact (h.store_erase_ticket hticket).passes_redeem number rfl
  | discard name =>
    refine expect_of hrefuse fun ticket hticket => moves_run_done (zero_add _).symm rfl ?_
    rw [zero_add]
    exact ((h.store_erase_ticket hticket).passes_discardTicket number rfl).mono (fun _ _ ht => ht)
      fun _ _ hf => hf.elim

/-- Whoever writes to an arena writes to what is with the arena only. -/
theorem onlyWith_chunks {name : String} {others : Multiset Loan} {page : PageId}
    (hothers : others = { s with arenas := s.arenas.erase name }.holdings)
    (h : NotHeld number others page) : s.OnlyWith number (·.IsChunk name) page :=
  onlyWith_of_notHeld h fun _ _ hheld hne =>
    hothers ▸ mem_holdings_erase_arena hheld (not_exists.mp hne)

/-- **Commands on arenas.** -/
theorem Sound.moves_arenaStep (h : s.Sound) (number : Nat) (command : ArenaCommand) :
    s.Moves number (s.permit number (.arena command)) (s.arenaStep command) := by
  have hrefuse {license : License} : s.Moves number license s.refuse := s.moves_refl _
  cases command with
  | make pool size checked name =>
    rcases s.arenaStep_make pool size checked name with hstep | ⟨fault, hstep⟩ |
      ⟨home, hhome, hstep⟩ <;> rw [hstep]
    · exact hrefuse
    · exact s.moves_refl _
    · have hempty : s.Holds (↑(Arena.new home size).chunks + 0) 0 := h
      exact hempty.passes_enterArena number name rfl
  | info name => exact expect_of hrefuse fun _ _ => s.moves_refl _
  | get name len zero slice =>
    exact expect_of hrefuse fun arena harena => h.moves_runArena harena
      (fun _ hothers hsound hhome => Arena.passes_get hsound number hhome len zero rfl
        fun hzero _ hpage => ⟨hzero, onlyWith_chunks hothers hpage⟩)
      fun _ _ t => enterSlice_same t name _ slice
  | copy name row slice =>
    exact expect_of hrefuse fun arena harena => h.moves_runArena harena
      (fun _ hothers hsound hhome => Arena.passes_copy hsound number hhome row rfl
        fun _ hpage => onlyWith_chunks hothers hpage)
      fun _ _ t => enterSlice_same t name _ slice
  | fill name value =>
    refine expect_of hrefuse fun found hfound => ?_
    obtain ⟨arenaName, arena, slice⟩ := found
    have harena : s.arenas.get? arenaName = some arena := arena_of_slice? hfound
    unfold Moves Passes
    rw [zero_add, zero_add, holdings_erase_arena harena]
    show s.store.Passes _ _ _ s.store
      { s with arenas := s.arenas.put arenaName (arena.fill slice value) }.holdings
    rw [holdings_put_arena]
    exact (h.store_erase_arena harena).passes_rewrites
      (Loan.rewrites_modify (fun loan => loan.rewrites_fill _ _ _) arena.chunks slice.chunk)
      fun _ hpage => ⟨arenaName, arena, slice, hfound, onlyWith_chunks rfl hpage⟩
  | dump name stretch => exact expect_of hrefuse fun _ _ => s.moves_refl _
  | runs name stretch => exact expect_of hrefuse fun _ _ => s.moves_refl _
  | reset name =>
    refine expect_of hrefuse fun arena harena => ?_
    exact Sound.moves_runArena (Holds.endSlices h name) harena
      (fun _ _ hsound _ => (Arena.passes_reset hsound number rfl).mono (fun _ _ ht => ht)
        fun _ _ hf => hf.elim)
      fun _ _ _ => ⟨rfl, rfl⟩
  | release name =>
    refine expect_of hrefuse fun arena harena => ?_
    exact moves_run_done (holdings_erase_arena harena) rfl
      ((Arena.passes_release (h.store_erase_arena harena) number rfl).mono (fun _ _ ht => ht)
        fun _ _ hf => hf.elim)
  | drop name =>
    refine expect_of hrefuse fun arena harena => ?_
    exact moves_run_done (holdings_erase_arena harena) rfl
      ((Arena.passes_drop (h.store_erase_arena harena) number rfl).mono (fun _ _ ht => ht)
        fun _ _ hf => hf.elim)

/-- **Commands on messages.** -/
theorem Sound.moves_messageStep (h : s.Sound) (number : Nat) (command : MessageCommand) :
    s.Moves number (s.permit number (.message command)) (s.messageStep command) := by
  have hrefuse {license : License} : s.Moves number license s.refuse := s.moves_refl _
  cases command with
  | encode pool order script name =>
    have hgo (home : Option Nat) (hhome : ∀ number ∈ home, number < s.store.pools.length) :
        s.Moves number (s.permit number (.message (.encode pool order script name)))
          (s.run (script.encode order home) fun encoded s => s.enterEncoded name encoded) := by
      refine moves_run (((script.ends_encode h.store hhome order).and
        (Script.passes_encode h.store number hhome script order rfl rfl fun page hpage => ?_)).mono
        (fun encoded t ht => ?_) fun _ _ ht => ht.2)
      · rw [zero_add] at hpage
        exact onlyWith_of_notHeld hpage fun holder _ hheld _ => mem_holdings.mpr ⟨holder, hheld⟩
      · obtain ⟨hleads, hpasses⟩ := ht
        obtain ⟨counting, writing, result⟩ := encoded
        cases result with
        | error failure =>
          change s.store.Passes _ _ _ t (↑([] : List Loan) + (0 + s.holdings)) at hpasses
          rw [Multiset.coe_nil, zero_add (0 + s.holdings)] at hpasses
          exact hpasses
        | ok loan =>
          change s.store.Passes _ _ _ t (↑[loan] + (0 + s.holdings)) at hpasses
          rw [Multiset.coe_singleton, Multiset.singleton_add] at hpasses
          exact h.moves_enterLoan hleads hpasses name rfl
    cases pool with
    | none => exact hgo none nofun
    | some pool =>
      refine expect_of hrefuse fun home hhome => hgo (some home) fun other hother => ?_
      cases hother
      exact h.pools_lt home (Table.mem_values_of_get? hhome)
  | encodeInArena name order script slice =>
    refine expect_of hrefuse fun arena harena => h.moves_runArena harena
      (fun _ hothers hsound hhome => Script.passes_encodeInArena hsound number hhome script order
        rfl fun _ hpage => onlyWith_chunks hothers hpage) fun encoded _ t => ?_
    obtain ⟨_, _, result⟩ := encoded
    cases result with
    | ok found => exact enterSlice_same t name found slice
    | error failure => exact ⟨rfl, rfl⟩
  | decode source arena order calls fallible =>
    refine expect_of hrefuse fun input _ => ?_
    cases arena with
    | none => exact s.moves_refl _
    | some name =>
      exact expect_of hrefuse fun arena harena => h.moves_runArena harena
        (fun _ hothers hsound hhome => Arena.passes_forM_copy _ hsound number hhome rfl
          fun _ hpage => onlyWith_chunks hothers hpage) fun _ _ _ => ⟨rfl, rfl⟩

/-- **Requests to buffers** write to no pages but those of the buffer. -/
theorem Sound.moves_request (h : s.Sound) (number : Nat) (name : String)
    (request : BufferRequest) :
    s.Moves number (s.permit number (.buffer (.request name request)))
      (s.bufferStep (.request name request)) := by
  refine expect_of (s.moves_refl _) fun buffer hbuffer => ?_
  let license := s.permit number (.buffer (.request name request))
  have hlends : request.writes = true → license.lends = true := id
  have hends := Buffer.passes_request (h.store_erase_buffer hbuffer) number
    (h.buffers_lt buffer (Table.mem_values_of_get? hbuffer)) request hlends
    fun hwrites _ hpage => ⟨hwrites, onlyWith_of_notHeld hpage fun _ _ hheld hne =>
      mem_holdings_erase_buffer hheld (not_exists.mp hne)⟩
  have hput {t : Buffer × Store} {answer : Answer}
      (ht : buffer.Passes s.store number license
        { s with buffers := s.buffers.erase name }.holdings t) :
      s.Moves number license
        (answer, { s with store := t.2, buffers := s.buffers.put name t.1 }) := by
    unfold Moves Passes
    rw [zero_add, zero_add, holdings_erase_buffer hbuffer]
    show s.store.Passes _ _ _ _ { s with buffers := s.buffers.put name t.1 }.holdings
    rw [holdings_put_buffer]
    exact ht
  cases hresult : request.run (buffer, s.store) with
  | ok outcome t =>
    rw [hresult] at hends
    exact hput hends
  | error abort t =>
    rw [hresult] at hends
    exact hput hends

/-- **Commands on buffers.** -/
theorem Sound.moves_bufferStep (h : s.Sound) (number : Nat) (command : BufferCommand) :
    s.Moves number (s.permit number (.buffer command)) (s.bufferStep command) := by
  have hrefuse {license : License} : s.Moves number license s.refuse := s.moves_refl _
  cases command with
  | make pool chunkSize checked name =>
    rcases Nat.eq_zero_or_pos chunkSize with rfl | hpos
    · obtain ⟨hsame, -⟩ := s.bufferStep_make_zero pool checked name
      unfold Moves
      rw [hsame]
      exact Store.Passes.refl _ _
    · cases hpool : s.pools.get? pool with
      | none =>
        unfold bufferStep
        dsimp only
        rw [hpool]
        exact hrefuse
      | some home =>
        rw [bufferStep_make hpool hpos]
        let buffer : Buffer := { home, chunkSize, chunkSize_pos := hpos }
        have hempty : s.Holds (↑buffer.chunks + 0) 0 := h
        exact hempty.passes_enterBuffer number name rfl
  | info name => exact expect_of hrefuse fun _ _ => s.moves_refl _
  | release name =>
    refine expect_of hrefuse fun buffer hbuffer => ?_
    exact moves_run_done (holdings_erase_buffer hbuffer) rfl
      ((Buffer.passes_release (h.store_erase_buffer hbuffer) number rfl).mono (fun _ _ ht => ht)
        fun _ _ hf => hf.elim)
  | drop name =>
    refine expect_of hrefuse fun buffer hbuffer => ?_
    exact moves_run_done (holdings_erase_buffer hbuffer) rfl
      ((Buffer.passes_drop (h.store_erase_buffer hbuffer) number rfl).mono (fun _ _ ht => ht)
        fun _ _ hf => hf.elim)
  | request name request => exact h.moves_request number name request

/-! ## Every command -/

/-- **The depot of the pool with a number**, with all that the session holds of it. -/
def depot (s : Session) (number : Nat) : Depot := s.store.depot number s.holdings

/-- **Every command makes the moves that it may make.** -/
theorem Sound.becomes_step (h : s.Sound) (number : Nat) (command : Command) :
    (s.depot number).Becomes (s.permit number command) ((s.step command).2.depot number) := by
  have hmoves : s.Moves number (s.permit number command) (s.step command) := by
    cases command with
    | pool command => exact h.moves_poolStep number command
    | loan command => exact h.moves_loanStep number command
    | ticket command => exact h.moves_ticketStep number command
    | arena command => exact h.moves_arenaStep number command
    | message command => exact h.moves_messageStep number command
    | buffer command => exact h.moves_bufferStep number command
    | watch command =>
      cases command with
      | install tracker => exact Store.Passes.of_eq rfl rfl
      | trace on => exact Store.Passes.of_eq rfl rfl
      | describe name => exact expect_of (s.moves_refl _) fun _ _ => s.moves_refl _
  unfold Moves Passes at hmoves
  rw [zero_add, zero_add] at hmoves
  exact hmoves

end Session

end Wirepool
