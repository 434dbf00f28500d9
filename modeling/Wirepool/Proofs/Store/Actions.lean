import Wirepool.Message
import Wirepool.Proofs.Store.Sound

/-!
# What the actions of the store do to loans and tickets

Borrowing adds a loan, giving back and losing take one away, detaching turns a
loan into a ticket. As long as the store is in order there are two aborts only:
memory that no address can span, and a ticket that is spent.
-/

namespace Wirepool

namespace Store

variable {s : Store} {loans : Multiset Loan} {tickets : Multiset Ticket}

/-- The system has whatever an address can span, and no pool is asked. -/
theorem obtain_granted {len : Nat} (hlen : len < addressLimit) (s : Store) :
    Store.obtain none len s = .ok (.unpooled (.zeroed len)) s := by
  unfold Store.obtain
  rw [Block.allocate, if_pos hlen]

/-- It has no more than that. -/
theorem obtain_refused {len : Nat} (hlen : ¬len < addressLimit) (s : Store) :
    Store.obtain none len s = .error .capacityOverflow s := by
  unfold Store.obtain
  rw [Block.allocate, if_neg hlen]

/-- What holds after an action that leaves what is parked. -/
def Leads (s : Store) (loans : Multiset Loan) (tickets : Multiset Ticket) (t : Store) : Prop :=
  t.Sound loans tickets ∧ s.Steady t

/-- What holds after an action that may free what no ticket is good for. -/
def LeadsFreeing (s : Store) (loans : Multiset Loan) (tickets : Multiset Ticket) (t : Store) :
    Prop :=
  t.Sound loans tickets ∧ s.Frees t tickets

/-- What holds after memory could not be had: it was too much, and nothing was
lent. -/
def Refused (s : Store) (loans : Multiset Loan) (tickets : Multiset Ticket) (len : Nat)
    (abort : Abort) (t : Store) : Prop :=
  s.Leads loans tickets t ∧ abort = .capacityOverflow ∧ addressLimit ≤ len

/-- **A ticket is honoured** if its generation is on its slot. A ticket for
nothing always is. -/
def Honours (s : Store) : Ticket → Prop
  | .idle => True
  | .page home slot generation => ((s.pool home).slotAt slot).generation = generation

/-- **A page is parked** on its slot, under the generation of its loan. -/
def Parks (s : Store) (lease : Lease) : Prop :=
  ((s.pool lease.home).slotAt lease.slot).parked =
      some ⟨lease.page, lease.len, lease.traced⟩ ∧
    ((s.pool lease.home).slotAt lease.slot).generation = lease.generation

/-- **What holds after a loan was detached.** -/
structure Detached (s : Store) (loan : Loan) (ticket : Ticket) (t : Store) : Prop where
  length_le : s.pools.length ≤ t.pools.length
  quiet : s.Quiet t
  generation : ∀ number, (t.pool number).generation = (s.pool number).generation
  /-- All that has happened to a pool is transactions. -/
  trail : ∀ number, (s.pool number).Trail (t.pool number)
  ticket_eq : ticket = loan.ticket
  /-- A page is parked on its slot. -/
  parks : ∀ lease, loan = .pooled lease → t.Parks lease
  /-- All other slots keep what is parked on them. -/
  keeps : ∀ number slot, (∀ lease, loan = .pooled lease → lease.home = number →
    lease.slot ≠ slot) → (s.pool number).KeepsSlot (t.pool number) slot

/-- **A lost loan was noticed**: it is counted, told and reported, and its page is
on top of its shelf. -/
structure Notices (s : Store) (lease : Lease) (t : Store) : Prop where
  events : t.events = .leaked (Pool.leakReport lease) :: s.events
  deliveries : t.deliveries = deliver s.tracker [Pool.leakReport lease] ++ s.deliveries
  leaked : (t.pool lease.home).leaked = (s.pool lease.home).leaked + 1
  released : (t.pool lease.home).released = (s.pool lease.home).released + 1
  free : ∃ slot, ∀ c, ((t.pool lease.home).shelf c).free =
    if c = lease.page.sizeClass then ⟨lease.page, slot⟩ :: ((s.pool lease.home).shelf c).free
    else ((s.pool lease.home).shelf c).free

/-- **The page of a detached loan is taken back** in its pool, and nothing is told. -/
structure TakesBack (s : Store) (lease : Lease) (t : Store) : Prop where
  pool : (s.pool lease.home).TakesBack lease.slot lease.page (t.pool lease.home)
  others : ∀ number, number ≠ lease.home → t.pool number = s.pool number
  events : t.events = s.events
  deliveries : t.deliveries = s.deliveries

/-- **One ticket less is counted** for the slot of a loan, and that is all. -/
structure CountsOut (s : Store) (lease : Lease) (t : Store) : Prop where
  pool : t.pool lease.home = (s.pool lease.home).countOut lease.slot
  others : ∀ number, number ≠ lease.home → t.pool number = s.pool number
  events : t.events = s.events
  deliveries : t.deliveries = s.deliveries

/-- What is noticed after a while in which nothing is told is noticed. -/
theorem Quiet.trans_notices {t u : Store} {lease : Lease} (h : s.Quiet t)
    (h' : t.Notices lease u) : s.Notices lease u := by
  obtain ⟨slot, hfree⟩ := h'.free
  refine ⟨?_, ?_, ?_, ?_, slot, fun c => ?_⟩
  · rw [h'.events, h.events]
  · rw [h'.deliveries, h.tracker, h.deliveries]
  · rw [h'.leaked, h.leaked]
  · rw [h'.released, h.released]
  · rw [hfree, Pool.shelf, h.shelves, ← Pool.shelf]

/-- A slot that keeps what is parked on it keeps the page of a loan. -/
theorem Parks.of_keepsSlot {t : Store} {lease : Lease} (h : s.Parks lease)
    (hkeeps : (s.pool lease.home).KeepsSlot (t.pool lease.home) lease.slot) : t.Parks lease :=
  ⟨hkeeps.1.trans h.1, hkeeps.2.trans h.2⟩

theorem Leads.trans {t u : Store} {loans' : Multiset Loan} {tickets' : Multiset Ticket}
    (h : s.Leads loans tickets t) (h' : t.Leads loans' tickets' u) :
    s.Leads loans' tickets' u :=
  ⟨h'.1, h.2.trans h'.2⟩

namespace Sound

/-! ## Borrowing -/

/-- Loans of other pools count for nothing in a pool. -/
theorem deedsAt_cons_other {lease : Lease} {number : Nat} (hhome : lease.home = number)
    (loans : Multiset Loan) (other : Nat) (hother : other ≠ number) :
    deedsAt other (.pooled lease ::ₘ loans) = deedsAt other loans :=
  deedsAt_cons_of_ne other (fun heq => hother (heq.symm.trans hhome)) loans

/-- **Borrowing** adds a loan of the length that was asked for. It fails just
for what no address can span. -/
theorem borrow (h : s.Sound loans tickets) {number : Nat} (hnumber : number < s.pools.length)
    (len : Nat) (zero : Bool) :
    Ends (Store.borrow number len zero s)
      (fun loan t => s.Leads (loan ::ₘ loans) tickets t ∧ loan.len = len ∧ len < addressLimit)
      (s.Refused loans tickets len) := by
  cases hclass : SizeClass.ofLength? len with
  | none =>
    have hcounted : { s.pool number with bypassed := (s.pool number).bypassed + 1 }.Sound
        (deedsAt number loans) (stubsAt number tickets) := (h.pool number).of_eq rfl rfl rfl
    have hsound : (s.commit number { s.pool number with
        bypassed := (s.pool number).bypassed + 1 } [.bypassed len]).Sound loans tickets :=
      h.commit _ hnumber hcounted (fun _ _ => rfl) (fun _ _ => rfl) h.fit
    have hsteady : s.Steady (s.commit number { s.pool number with
        bypassed := (s.pool number).bypassed + 1 } [.bypassed len]) :=
      steady_commit _ hnumber (.of_eq rfl rfl)
        ((Pool.Turn.bypass hclass (Pool.borrow_of_none _ hclass number zero false)).trail
          hcounted.placed)
    -- the system has whatever an address can span
    by_cases hlen : len < addressLimit
    · rw [Store.borrow_bypassed hclass hlen]
      refine ⟨⟨⟨fun other => ?_, fun loan hloan => ?_⟩, hsteady⟩, rfl, hlen⟩
      · rw [deedsAt_cons_unpooled]
        exact hsound.pool other
      · rcases Multiset.mem_cons.mp hloan with rfl | hloan
        · exact Nat.le_refl len
        · exact h.fit loan hloan
    · rw [Store.borrow_refused hclass hlen]
      exact ⟨⟨hsound, hsteady⟩, rfl, Nat.le_of_not_lt hlen⟩
  | some c =>
    obtain ⟨q, lease, events, hborrow, hsound, hsteady, hhome, hlen, hc, -⟩ :=
      (h.pool number).borrow hclass number zero (s.tracking || s.tracing)
    rw [Store.borrow_of_ok hborrow]
    -- a page is as large as its class says, and the class serves the length
    have hcapacity : len ≤ c.capacity := SizeClass.le_capacity_of_ofLength? hclass
    have hsize : lease.page.block.size = c.capacity := by rw [lease.page.size_eq, hc]
    refine ⟨⟨h.commit events hnumber ?_ (deedsAt_cons_other hhome loans) (fun _ _ => rfl) ?_,
      steady_commit events hnumber hsteady ((Pool.Turn.borrow hclass hborrow).trail
        hsound.placed)⟩, hlen,
      Nat.lt_of_le_of_lt hcapacity c.capacity_lt_addressLimit⟩
    · rw [← hhome, deedsAt_cons_pooled, hhome]
      exact hsound
    · intro loan hloan
      rcases Multiset.mem_cons.mp hloan with rfl | hloan
      · show lease.len ≤ lease.page.block.size
        rw [hlen, hsize]
        exact hcapacity
      · exact h.fit loan hloan

/-- **Borrowing for given parts** adds a loan that holds them. -/
theorem concat (h : s.Sound loans tickets) {number : Nat} (hnumber : number < s.pools.length)
    (parts : List (List UInt8)) :
    Ends (Store.concat number parts s)
      (fun loan t => s.Leads (loan ::ₘ loans) tickets t ∧ loan.len = parts.flatten.length)
      (s.Refused loans tickets parts.flatten.length) := by
  refine (h.borrow hnumber parts.flatten.length false).bind fun loan t ht => ?_
  refine ⟨⟨ht.1.1.of_terms_eq ?_, ht.1.2⟩, (Loan.len_mapBlock _ _ loan).trans ht.2.1⟩
  rw [Multiset.map_cons, Multiset.map_cons, Loan.terms_write]

/-- **Memory for a message** is a loan of its length, from a pool or not. -/
theorem obtain (h : s.Sound loans tickets) {home : Option Nat}
    (hhome : ∀ number ∈ home, number < s.pools.length) (len : Nat) :
    Ends (Store.obtain home len s)
      (fun loan t => s.Leads (loan ::ₘ loans) tickets t ∧ loan.len = len)
      (s.Refused loans tickets len) := by
  cases home with
  | some number =>
    exact (h.borrow (hhome number rfl) len false).mono (fun _ _ ht => ⟨ht.1, ht.2.1⟩)
      fun _ _ ht => ht
  | none =>
    by_cases hlen : len < addressLimit
    · rw [Store.obtain_granted hlen]
      refine ⟨⟨⟨fun other => ?_, fun loan hloan => ?_⟩, .refl s⟩, rfl⟩
      · rw [deedsAt_cons_unpooled]
        exact h.pool other
      · rcases Multiset.mem_cons.mp hloan with rfl | hloan
        · exact Nat.le_refl len
        · exact h.fit loan hloan
    · rw [Store.obtain_refused hlen]
      exact ⟨⟨h, .refl s⟩, rfl, Nat.le_of_not_lt hlen⟩

/-! ## Giving back and losing -/

/-- A loan from the system goes without a trace. -/
theorem of_cons_unpooled {block : Block} (h : s.Sound (.unpooled block ::ₘ loans) tickets) :
    s.Sound loans tickets := by
  refine ⟨fun number => ?_, fun loan hloan => h.fit loan (Multiset.mem_cons_of_mem hloan)⟩
  have hpool := h.pool number
  rwa [deedsAt_cons_unpooled] at hpool

/-- **Giving back** takes a loan away. It never fails. -/
theorem release {loan : Loan} (h : s.Sound (loan ::ₘ loans) tickets) :
    Ends (Store.release loan s) (fun _ t => s.Leads loans tickets t) fun _ _ => False := by
  cases loan with
  | unpooled block => exact ⟨h.of_cons_unpooled, .refl s⟩
  | pooled lease =>
    have hhome := h.home_lt (Multiset.mem_cons_self _ _)
    have hpool := h.pool lease.home
    rw [deedsAt_cons_pooled] at hpool
    obtain ⟨hreclaim, hsound, hsteady⟩ := hpool.reclaim
    show Ends (onPool lease.home (fun p => p.reclaim lease) s) _ _
    rw [onPool_of_ok hreclaim]
    exact ⟨h.commit [] hhome hsound
      (fun other hother => (deedsAt_cons_other rfl loans other hother).symm) (fun _ _ => rfl)
      (fun loan hloan => h.fit loan (Multiset.mem_cons_of_mem hloan)),
      steady_commit [] hhome hsteady ((Pool.Turn.reclaim hreclaim).trail hsound.placed)⟩

/-- **Losing** takes a loan away. It never fails. -/
theorem lose {loan : Loan} (h : s.Sound (loan ::ₘ loans) tickets) :
    Ends (Store.lose loan s) (fun _ t => s.Leads loans tickets t) fun _ _ => False := by
  cases loan with
  | unpooled block => exact ⟨h.of_cons_unpooled, .refl s⟩
  | pooled lease =>
    have hhome := h.home_lt (Multiset.mem_cons_self _ _)
    have hpool := h.pool lease.home
    rw [deedsAt_cons_pooled] at hpool
    obtain ⟨q, hlose, hsound, hsteady⟩ := hpool.lose
    show Ends (onPool lease.home (fun p => p.lose lease) s) _ _
    rw [onPool_of_ok hlose]
    exact ⟨h.commit _ hhome hsound
      (fun other hother => (deedsAt_cons_other rfl loans other hother).symm) (fun _ _ => rfl)
      (fun loan hloan => h.fit loan (Multiset.mem_cons_of_mem hloan)),
      steady_commit _ hhome hsteady ((Pool.Turn.lose hlose).trail hsound.placed)⟩

/-- **A row of loans goes**, one after another, if each of them can. -/
theorem forM {action : Loan → StoreM Unit}
    (haction : ∀ {s : Store} {loan : Loan} {loans : Multiset Loan},
      s.Sound (loan ::ₘ loans) tickets →
      Ends (action loan s) (fun _ t => s.Leads loans tickets t) fun _ _ => False)
    {chunks : List Loan} (h : s.Sound (↑chunks + loans) tickets) :
    Ends (chunks.forM action s) (fun _ t => s.Leads loans tickets t) fun _ _ => False := by
  have hstart : s.Leads (↑chunks + loans) tickets s := ⟨h, .refl s⟩
  refine (Ends.forM (fun rest t => s.Leads (↑rest + loans) tickets t)
    (fun loan rest t ht => ?_) chunks hstart).mono (fun _ t ht => ?_) fun _ _ hf => hf
  · rw [← Multiset.cons_coe, Multiset.cons_add] at ht
    exact (haction ht.1).mono (fun _ u hu => ht.trans hu) fun _ _ hf => hf
  · rwa [Multiset.coe_nil, zero_add] at ht

/-! ## Tickets -/

/-- **Detaching** turns a loan into a ticket for its page, which is parked. -/
theorem detach {loan : Loan} (h : s.Sound (loan ::ₘ loans) tickets) :
    Ends (Store.detach loan s)
      (fun ticket t => t.Sound loans (ticket ::ₘ tickets) ∧ s.Detached loan ticket t)
      fun _ _ => False := by
  cases loan with
  | unpooled block =>
    refine ⟨⟨fun number => ?_, h.of_cons_unpooled.fit⟩, Nat.le_refl _, .refl s,
      fun _ => rfl, fun _ => .refl _, rfl, nofun, fun _ _ _ => .of_eq rfl⟩
    rw [stubsAt_cons_idle]
    exact h.of_cons_unpooled.pool number
  | pooled lease =>
    have hhome := h.home_lt (Multiset.mem_cons_self _ _)
    have hpool := h.pool lease.home
    rw [deedsAt_cons_pooled] at hpool
    obtain ⟨hlt, hgeneration, -⟩ := hpool.placed.of_deed (Multiset.mem_cons_self _ _)
    have hself : ((s.pool lease.home).park lease).slotAt lease.slot =
        { (s.pool lease.home).slotAt lease.slot with
          parked := some ⟨lease.page, lease.len, lease.traced⟩,
          tickets := ((s.pool lease.home).slotAt lease.slot).tickets + 1 } :=
      Pool.slotAt_modifySlot_self _ hlt _
    show Ends (.ok lease.ticket (s.commit lease.home ((s.pool lease.home).park lease) [])) _ _
    refine ⟨?_, ?_, s.quiet_modifySlot hhome _ _, fun number => ?_,
      trail_commit [] hhome ((Pool.Turn.park lease).trail hpool.park.placed), rfl,
      fun other heq => ?_, fun number slot hne => ?_⟩
    · refine h.commit [] hhome ?_ (fun other hother =>
        (deedsAt_cons_other rfl loans other hother).symm) (fun other hother => ?_)
        fun loan hloan => h.fit loan (Multiset.mem_cons_of_mem hloan)
      · rw [Lease.ticket, stubsAt_cons_page]
        exact hpool.park
      · exact stubsAt_cons_of_ne other (Ne.symm hother) _ _ _
    · rw [pools_commit, List.length_set]
    · by_cases hnumber : number = lease.home
      · rw [hnumber, pool_commit_self _ _ hhome]
        rfl
      · rw [pool_commit_of_ne _ _ hnumber]
    · cases heq
      rw [Parks, pool_commit_self _ _ hhome, hself]
      exact ⟨rfl, hgeneration⟩
    · by_cases hnumber : number = lease.home
      · subst hnumber
        rw [pool_commit_self _ _ hhome]
        exact .of_eq (Pool.slotAt_modifySlot_of_ne _ (Ne.symm (hne lease rfl rfl)) _)
      · rw [pool_commit_of_ne _ _ hnumber]
        exact .of_eq rfl

/-- **Copying a ticket** that is out puts it out twice. -/
theorem copyTicket {ticket : Ticket} (h : s.Sound loans tickets) (hticket : ticket ∈ tickets) :
    Ends (Store.copyTicket ticket s)
      (fun copy t => copy = ticket ∧ s.Leads loans (ticket ::ₘ tickets) t ∧ s.Quiet t)
      fun _ _ => False := by
  cases ticket with
  | idle =>
    refine ⟨rfl, ⟨⟨fun number => ?_, h.fit⟩, .refl s⟩, .refl s⟩
    rw [stubsAt_cons_idle]
    exact h.pool number
  | page home slot generation =>
    have hhome := h.stub_home_lt hticket
    have hstub : ⟨slot, generation⟩ ∈ stubsAt home tickets := mem_stubsAt.mpr hticket
    obtain ⟨hsound, hsteady⟩ := (h.pool home).copyTicket hstub
    show Ends (.ok (Ticket.page home slot generation)
      (s.commit home ((s.pool home).copyTicket slot) [])) _ _
    refine ⟨rfl, ⟨h.commit [] hhome ?_ (fun _ _ => rfl) (fun other hother => ?_) h.fit,
      steady_commit [] hhome hsteady ((Pool.Turn.copyTicket slot).trail hsound.placed)⟩,
      s.quiet_modifySlot hhome _ _⟩
    · rw [stubsAt_cons_page]
      exact hsound
    · exact stubsAt_cons_of_ne other (Ne.symm hother) _ _ _

/-- An idle ticket goes without a trace. -/
theorem of_cons_idle (h : s.Sound loans (.idle ::ₘ tickets)) : s.Sound loans tickets := by
  refine ⟨fun number => ?_, h.fit⟩
  have hpool := h.pool number
  rwa [stubsAt_cons_idle] at hpool

/-- **Throwing a ticket away** never fails. -/
theorem discardTicket {ticket : Ticket} (h : s.Sound loans (ticket ::ₘ tickets)) :
    Ends (Store.discardTicket ticket s) (fun _ t => s.LeadsFreeing loans tickets t)
      fun _ _ => False := by
  cases ticket with
  | idle => exact ⟨h.of_cons_idle, h.of_cons_idle.frees_of_steady (.refl s)⟩
  | page home slot generation =>
    have hhome := h.stub_home_lt (Multiset.mem_cons_self _ _)
    have hpool := h.pool home
    rw [stubsAt_cons_page] at hpool
    obtain ⟨q, events, hdiscard, hsound, hfrees⟩ := hpool.discardTicket
    obtain ⟨deal, hturn⟩ := Pool.exists_turn_discardTicket hdiscard
    show Ends (onPool home (fun p => p.discardTicket slot) s) _ _
    rw [onPool_of_ok hdiscard]
    exact ⟨h.commit events hhome hsound (fun _ _ => rfl)
      (fun other hother => (stubsAt_cons_of_ne other (Ne.symm hother) _ _ _).symm) h.fit,
      frees_commit events hhome hfrees (hturn.trail hsound.placed)⟩

/-- **A ticket that is not the last one of its slot** is thrown away without a
trace. -/
theorem quiet_discardTicket {home slot generation : Nat}
    (h : s.Sound loans (.page home slot generation ::ₘ tickets))
    (hothers : ∃ other, .page home slot other ∈ tickets) :
    s.Quiet (s.after (Store.discardTicket (.page home slot generation))) ∧
      s.Steady (s.after (Store.discardTicket (.page home slot generation))) := by
  have hhome := h.stub_home_lt (Multiset.mem_cons_self _ _)
  have hpool := h.pool home
  rw [stubsAt_cons_page] at hpool
  obtain ⟨other, hother⟩ := hothers
  have hdiscard := hpool.discardTicket_of_others ⟨⟨slot, other⟩, mem_stubsAt.mpr hother, rfl⟩
  rw [Store.after, Store.discardTicket, onPool_of_ok hdiscard]
  exact ⟨s.quiet_modifySlot hhome _ _,
    steady_commit _ hhome (.modifySlot _ slot (fun _ => rfl) fun _ => rfl)
      ((Pool.Turn.discardTicket hdiscard).trail hpool.dropTicket.placed)⟩

/-- **The last ticket of a slot** on which a page is parked is not thrown away
unnoticed. -/
theorem notices_discardTicket {lease : Lease} (h : s.Sound loans (lease.ticket ::ₘ tickets))
    (hlast : ∀ other, .page lease.home lease.slot other ∉ tickets) (hparks : s.Parks lease) :
    s.Notices lease (s.after (Store.discardTicket lease.ticket)) := by
  have hhome : lease.home < s.pools.length := h.stub_home_lt (Multiset.mem_cons_self _ _)
  have hpool := h.pool lease.home
  rw [Lease.ticket, stubsAt_cons_page] at hpool
  have hothers : ∀ other ∈ stubsAt lease.home tickets, other.slot ≠ lease.slot := by
    intro other hother hslot
    refine hlast other.generation ?_
    rw [← hslot]
    exact mem_stubsAt.mp hother
  obtain ⟨q, slot, hdiscard, hleaked, hreleased, hfree⟩ :=
    hpool.discardTicket_of_parked hothers hparks.1
  -- what is parked tells what the loan itself would tell
  have hreport : Pool.parkedReport ((s.pool lease.home).slotAt lease.slot)
      ⟨lease.page, lease.len, lease.traced⟩ = Pool.leakReport lease := by
    rw [Pool.parkedReport, hparks.2, Pool.leakReport]
  have hpool' : (s.commit lease.home q [.leaked (Pool.leakReport lease)]).pool lease.home = q :=
    pool_commit_self q _ hhome
  rw [hreport] at hdiscard
  rw [Store.after, Lease.ticket, Store.discardTicket, onPool_of_ok hdiscard]
  refine ⟨?_, ?_, ?_, ?_, slot, fun c => ?_⟩
  · rw [events_commit_leaked]
  · rw [deliveries_commit_leaked]
  · rw [hpool', hleaked]
  · rw [hpool', hreleased]
  · rw [hpool', hfree]

/-- The tickets for a pool, without those of one kind. -/
theorem stubsAt_filter_subset (home slot generation : Nat) (tickets : Multiset Ticket) :
    stubsAt home (tickets.filter (· ≠ .page home slot generation)) ⊆
      (stubsAt home tickets).filter (· ≠ ⟨slot, generation⟩) := by
  intro stub hstub
  obtain ⟨hmem, hne⟩ := Multiset.mem_filter.mp (mem_stubsAt.mp hstub)
  refine Multiset.mem_filter.mpr ⟨mem_stubsAt.mpr hmem, ?_⟩
  rintro rfl
  exact hne rfl

/-- **Handing a ticket in** takes it away. It fails just for a ticket that is not
good. What other tickets are good for stays. -/
theorem redeem {ticket : Ticket} (h : s.Sound loans (ticket ::ₘ tickets)) :
    Ends (Store.redeem ticket s)
      (fun _ t => t.Sound loans tickets ∧ s.Frees t (tickets.filter (· ≠ ticket)) ∧
        s.Honours ticket)
      fun abort t => t.Sound loans tickets ∧ s.Frees t (tickets.filter (· ≠ ticket)) ∧
        abort = .generationMismatch ∧ ¬s.Honours ticket := by
  cases ticket with
  | idle =>
    exact ⟨h.of_cons_idle, (h.of_cons_idle.frees_of_steady (.refl s)).mono
      (Multiset.filter_subset _ _), trivial⟩
  | page home slot generation =>
    have hhome := h.stub_home_lt (Multiset.mem_cons_self _ _)
    have hpool := h.pool home
    rw [stubsAt_cons_page] at hpool
    obtain ⟨q, events, hredeem, hsound, hfrees⟩ := hpool.redeem
    have hsound' : (s.commit home q events).Sound loans tickets :=
      h.commit events hhome hsound (fun _ _ => rfl)
        (fun other hother => (stubsAt_cons_of_ne other (Ne.symm hother) _ _ _).symm) h.fit
    obtain ⟨deal, hturn⟩ := hpool.exists_turn_redeem hredeem
    have hfrees' := frees_commit (s := s) events hhome
      (hfrees.mono (stubsAt_filter_subset home slot generation tickets))
      (hturn.trail hsound.placed)
    show Ends (onPool home (fun p => p.redeem slot generation) s) _ _
    -- the ticket is gone either way, and only the answer depends on the slot
    by_cases hgood : ((s.pool home).slotAt slot).generation = generation
    · rw [if_pos hgood] at hredeem
      rw [onPool_of_ok hredeem]
      exact ⟨hsound', hfrees', hgood⟩
    · rw [if_neg hgood] at hredeem
      rw [onPool_of_error hredeem]
      exact ⟨hsound', hfrees', rfl, hgood⟩

/-- **While the page of a loan is parked**, a ticket for it brings the page back. -/
theorem takesBack_redeem {lease : Lease} (h : s.Sound loans tickets)
    (hticket : lease.ticket ∈ tickets) (hparks : s.Parks lease) :
    ∃ t, Store.redeem lease.ticket s = .ok () t ∧ s.TakesBack lease t := by
  have hhome := h.stub_home_lt hticket
  have hstub : ⟨lease.slot, lease.generation⟩ ∈ stubsAt lease.home tickets :=
    mem_stubsAt.mpr hticket
  obtain ⟨parked, q, hparked, hredeem, hback⟩ := (h.pool lease.home).redeem_of_eq hstub hparks.2
  obtain rfl : ⟨lease.page, lease.len, lease.traced⟩ = parked :=
    Option.some.inj (hparks.1.symm.trans hparked)
  refine ⟨s.commit lease.home q [], ?_, ?_, fun number hne => pool_commit_of_ne q [] hne, rfl, rfl⟩
  · show onPool lease.home (fun p => p.redeem lease.slot lease.generation) s = _
    exact onPool_of_ok hredeem
  · rw [pool_commit_self q [] hhome]
    exact hback

/-- **A ticket that is not honoured** is thrown away. -/
theorem redeem_of_not_honours {lease : Lease} (h : s.Sound loans (lease.ticket ::ₘ tickets))
    (hbad : ¬s.Honours lease.ticket) :
    Store.redeem lease.ticket s =
      .error .generationMismatch (s.after (Store.discardTicket lease.ticket)) := by
  have hpool := h.pool lease.home
  rw [Lease.ticket, stubsAt_cons_page] at hpool
  obtain ⟨q, events, hdiscard, -, -⟩ := hpool.discardTicket
  have hredeem := Pool.Sound.redeem_of_ne hbad
  rw [hdiscard] at hredeem
  rw [Store.after, Lease.ticket, Store.discardTicket, onPool_of_ok hdiscard]
  show onPool lease.home (fun p => p.redeem lease.slot lease.generation) s = _
  exact onPool_of_error hredeem

/-- **A ticket that is not the last one of its slot**, or whose slot has no page, is
thrown away without a trace. -/
theorem countsOut_discardTicket {lease : Lease} (h : s.Sound loans (lease.ticket ::ₘ tickets))
    (hkeeps : (∃ other, .page lease.home lease.slot other ∈ tickets) ∨
      ((s.pool lease.home).slotAt lease.slot).parked = none) :
    s.CountsOut lease (s.after (Store.discardTicket lease.ticket)) := by
  have hhome : lease.home < s.pools.length := h.stub_home_lt (Multiset.mem_cons_self _ _)
  have hpool := h.pool lease.home
  rw [Lease.ticket, stubsAt_cons_page] at hpool
  have hdiscard : (s.pool lease.home).discardTicket lease.slot =
      ⟨(s.pool lease.home).countOut lease.slot, [], .ok ()⟩ := by
    rcases hkeeps with ⟨other, hother⟩ | hnone
    · exact hpool.discardTicket_of_others ⟨⟨lease.slot, other⟩, mem_stubsAt.mpr hother, rfl⟩
    · exact Pool.Sound.discardTicket_of_none hnone
  rw [Store.after, Lease.ticket, Store.discardTicket, onPool_of_ok hdiscard]
  exact ⟨pool_commit_self _ [] hhome, fun number hne => pool_commit_of_ne _ [] hne, rfl, rfl⟩

end Sound

end Store

end Wirepool
