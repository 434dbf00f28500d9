import Mathlib.Data.Multiset.Filter
import Wirepool.Proofs.Action
import Wirepool.Proofs.Memory.View
import Wirepool.Proofs.Pool.History
import Wirepool.Proofs.Pool.SizeClass
import Wirepool.Proofs.Pool.Sound

/-!
# The store in order

A store is in order, for the loans that somebody holds and the tickets that are
out, if each of its pools is in order for those of them that are its own.

What is in the memory of a loan does not matter for this. The *terms* of a loan
are all that matters: the pool it is from, what it says of its page, and the
lengths. Whatever writes through a loan leaves its terms.

Every action of the store has one lemma. It says what the action does to loans
and tickets, that the store stays in order, and which aborts there are.
-/

namespace Wirepool

/-- **The terms of a loan**: all about it but the content of its memory. -/
structure Terms where
  /-- The pool and what the loan says of its page, if it has one. -/
  lease : Option (Nat × Deed)
  len : Nat
  capacity : Nat

/-- The terms of a loan. -/
def Loan.terms : Loan → Terms
  | unpooled block => ⟨none, block.size, block.size⟩
  | pooled lease => ⟨some (lease.home, lease.deed), lease.len, lease.page.block.size⟩

/-- What terms say of a page of the pool with a number. -/
def Terms.deed? (number : Nat) (terms : Terms) : Option Deed :=
  match terms.lease with
  | some (home, deed) => if home = number then some deed else none
  | none => none

/-- **The ticket for a page**, once its loan is detached. -/
def Lease.ticket (lease : Lease) : Ticket := .page lease.home lease.slot lease.generation

/-- The ticket that is left of a loan. -/
def Loan.ticket : Loan → Ticket
  | unpooled _ => .idle
  | pooled lease => lease.ticket

/-- What a ticket says, if it is for a page of the pool with a number. -/
def Ticket.stub? (number : Nat) : Ticket → Option Stub
  | idle => none
  | page home slot generation => if home = number then some ⟨slot, generation⟩ else none

/-- A ticket for a page says its slot and its generation. -/
theorem Ticket.stub?_page (number slot generation : Nat) :
    (page number slot generation).stub? number = some ⟨slot, generation⟩ := if_pos rfl

/-- A ticket that says something is for a page of the pool. -/
theorem Ticket.eq_of_stub? {number : Nat} {ticket : Ticket} {stub : Stub}
    (h : ticket.stub? number = some stub) : ticket = .page number stub.slot stub.generation := by
  cases ticket with
  | idle => cases h
  | page home slot generation =>
    by_cases hhome : home = number
    · subst hhome
      rw [stub?_page] at h
      cases h
      rfl
    · have hnone : (page home slot generation).stub? number = none := if_neg hhome
      rw [hnone] at h
      cases h

/-- What the loans say of pages of one pool. -/
def deedsAt (number : Nat) (loans : Multiset Loan) : Multiset Deed :=
  (loans.map Loan.terms).filterMap (Terms.deed? number)

/-- What the tickets for pages of one pool say. -/
def stubsAt (number : Nat) (tickets : Multiset Ticket) : Multiset Stub :=
  tickets.filterMap (Ticket.stub? number)

/-- The memory has what was asked for. -/
def Terms.Fit (terms : Terms) : Prop := terms.len ≤ terms.capacity

namespace Loan

/-- **Whatever writes through a loan** leaves its terms. -/
@[simp] theorem terms_mapBlock (f : Block → Block) (hf : ∀ b, (f b).size = b.size) (loan : Loan) :
    (loan.mapBlock f hf).terms = loan.terms := by
  cases loan with
  | unpooled block =>
    show (⟨none, (f block).size, (f block).size⟩ : Terms) = ⟨none, block.size, block.size⟩
    rw [hf]
  | pooled lease =>
    show (⟨_, lease.len, (f lease.page.block).size⟩ : Terms) = ⟨_, lease.len, _⟩
    rw [hf]
    rfl

@[simp] theorem terms_write (loan : Loan) (offset : Nat) (row : List UInt8) :
    (loan.write offset row).terms = loan.terms := terms_mapBlock _ _ loan

@[simp] theorem terms_fill (loan : Loan) (offset count : Nat) (value : UInt8) :
    (loan.fill offset count value).terms = loan.terms := terms_mapBlock _ _ loan

/-- **A loan is of the pool with a number**, if it is of a pool at all. -/
def OfPool (number : Nat) (loan : Loan) : Prop :=
  ∀ home ∈ loan.terms.lease.map Prod.fst, home = number

/-- What is in a loan does not say what pool it is of. -/
theorem OfPool.of_terms_eq {number : Nat} {one other : List Loan}
    (h : ∀ loan ∈ one, loan.OfPool number)
    (hterms : other.map Loan.terms = one.map Loan.terms) : ∀ loan ∈ other, loan.OfPool number := by
  intro loan hloan
  have hmem : loan.terms ∈ one.map Loan.terms := hterms ▸ List.mem_map_of_mem hloan
  obtain ⟨before, hbefore, hsame⟩ := List.mem_map.mp hmem
  rw [OfPool, ← hsame]
  exact h before hbefore

/-- A page is for its own pool only. -/
theorem deed?_pooled (lease : Lease) (number : Nat) :
    (pooled lease).terms.deed? number =
      if lease.home = number then some lease.deed else none := rfl

theorem len_terms (loan : Loan) : loan.terms.len = loan.len := by
  cases loan <;> rfl

theorem capacity_terms (loan : Loan) : loan.terms.capacity = loan.block.size := by
  cases loan <;> rfl

end Loan

/-- What a pool offers is of that pool. -/
theorem Pool.Offers.ofPool {home len : Nat} {zero traced : Bool} {loan : Loan}
    (h : Pool.Offers home len zero traced loan) : loan.OfPool home := by
  cases h with
  | unpooled hclass hlen => exact fun number hnumber => absurd hnumber (Option.not_mem_none number)
  | pooled shelved generation =>
    rintro _ ⟨⟩
    rfl

section Parts

variable (number : Nat)

/-- A ticket for a page of a pool says so there. -/
theorem mem_stubsAt {number : Nat} {stub : Stub} {tickets : Multiset Ticket} :
    stub ∈ stubsAt number tickets ↔ .page number stub.slot stub.generation ∈ tickets := by
  rw [stubsAt, Multiset.mem_filterMap]
  constructor
  · rintro ⟨ticket, hticket, hstub⟩
    rwa [Ticket.eq_of_stub? hstub] at hticket
  · exact fun hticket => ⟨_, hticket, Ticket.stub?_page number stub.slot stub.generation⟩

/-- A loan of another pool says nothing. -/
theorem deedsAt_cons_of_none {loan : Loan} (h : loan.terms.deed? number = none)
    (loans : Multiset Loan) : deedsAt number (loan ::ₘ loans) = deedsAt number loans := by
  rw [deedsAt, Multiset.map_cons, Multiset.filterMap_cons_none _ _ h, deedsAt]

@[simp] theorem deedsAt_cons_unpooled (block : Block) (loans : Multiset Loan) :
    deedsAt number (.unpooled block ::ₘ loans) = deedsAt number loans :=
  deedsAt_cons_of_none number rfl loans

@[simp] theorem deedsAt_cons_pooled (lease : Lease) (loans : Multiset Loan) :
    deedsAt lease.home (.pooled lease ::ₘ loans) = lease.deed ::ₘ deedsAt lease.home loans := by
  rw [deedsAt, Multiset.map_cons, Multiset.filterMap_cons_some _ _ _
    ((Loan.deed?_pooled lease lease.home).trans (if_pos rfl)), deedsAt]

theorem deedsAt_cons_of_ne {lease : Lease} (h : lease.home ≠ number) (loans : Multiset Loan) :
    deedsAt number (.pooled lease ::ₘ loans) = deedsAt number loans :=
  deedsAt_cons_of_none number ((Loan.deed?_pooled lease number).trans (if_neg h)) loans

theorem stubsAt_cons_of_none {ticket : Ticket} (h : ticket.stub? number = none)
    (tickets : Multiset Ticket) : stubsAt number (ticket ::ₘ tickets) = stubsAt number tickets := by
  rw [stubsAt, Multiset.filterMap_cons_none _ _ h, stubsAt]

@[simp] theorem stubsAt_cons_idle (tickets : Multiset Ticket) :
    stubsAt number (.idle ::ₘ tickets) = stubsAt number tickets :=
  stubsAt_cons_of_none number rfl tickets

@[simp] theorem stubsAt_cons_page (slot generation : Nat) (tickets : Multiset Ticket) :
    stubsAt number (.page number slot generation ::ₘ tickets) =
      ⟨slot, generation⟩ ::ₘ stubsAt number tickets := by
  rw [stubsAt, Multiset.filterMap_cons_some _ _ _ (Ticket.stub?_page number slot generation),
    stubsAt]

theorem stubsAt_cons_of_ne {home : Nat} (h : home ≠ number) (slot generation : Nat)
    (tickets : Multiset Ticket) :
    stubsAt number (.page home slot generation ::ₘ tickets) = stubsAt number tickets := by
  have hstub : (Ticket.page home slot generation).stub? number = none := if_neg h
  exact stubsAt_cons_of_none number hstub tickets

end Parts

namespace Store

/-- **A store in order**, with the loans that are held and the tickets that are
out. -/
structure Sound (s : Store) (loans : Multiset Loan) (tickets : Multiset Ticket) : Prop where
  /-- Each pool is in order for its own loans and tickets. -/
  pool : ∀ number, (s.pool number).Sound (deedsAt number loans) (stubsAt number tickets)
  /-- Memory has what was asked for. -/
  fit : ∀ loan ∈ loans, loan.terms.Fit

/-- **What is parked stays, and nothing else is parked**, in all pools, of which
none is gone. -/
structure Steady (s t : Store) : Prop where
  length_le : s.pools.length ≤ t.pools.length
  pool : ∀ number, (s.pool number).Steady (t.pool number)
  /-- All that has happened to a pool is transactions. -/
  trail : ∀ number, (s.pool number).Trail (t.pool number)

/-- **What is parked stays where a ticket is good for it, and nothing else is
parked**, in all pools, of which none is gone. -/
structure Frees (s t : Store) (tickets : Multiset Ticket) : Prop where
  length_le : s.pools.length ≤ t.pools.length
  pool : ∀ number, (s.pool number).Frees (t.pool number) (stubsAt number tickets)
  /-- All that has happened to a pool is transactions. -/
  trail : ∀ number, (s.pool number).Trail (t.pool number)

theorem Steady.refl (s : Store) : s.Steady s :=
  ⟨Nat.le_refl _, fun _ => .refl _, fun _ => .refl _⟩

theorem Steady.trans {s t u : Store} (h : s.Steady t) (h' : t.Steady u) : s.Steady u :=
  ⟨Nat.le_trans h.length_le h'.length_le, fun number => (h.pool number).trans (h'.pool number),
    fun number => (h.trail number).trans (h'.trail number)⟩

theorem Frees.trans {s t u : Store} {tickets : Multiset Ticket} (h : s.Frees t tickets)
    (h' : t.Frees u tickets) : s.Frees u tickets :=
  ⟨Nat.le_trans h.length_le h'.length_le, fun number => (h.pool number).trans (h'.pool number),
    fun number => (h.trail number).trans (h'.trail number)⟩

/-- Fewer tickets keep fewer slots. -/
theorem Frees.mono {s t : Store} {tickets fewer : Multiset Ticket} (h : s.Frees t tickets)
    (hfewer : fewer ⊆ tickets) : s.Frees t fewer := by
  refine ⟨h.length_le, fun number => (h.pool number).mono fun stub hstub => ?_, h.trail⟩
  exact mem_stubsAt.mpr (hfewer (mem_stubsAt.mp hstub))

/-- Whatever is steady frees nothing in a store in order. -/
theorem Sound.frees_of_steady {s t : Store} {loans : Multiset Loan} {tickets : Multiset Ticket}
    (h : s.Sound loans tickets) (hsteady : s.Steady t) : s.Frees t tickets :=
  ⟨hsteady.length_le, fun number => (h.pool number).frees_of_steady (hsteady.pool number),
    hsteady.trail⟩

/-! ## What a transaction leaves behind -/

/-- The store after a transaction on a pool: the pool as given, and the events
told. -/
def commit (s : Store) (number : Nat) (p : Pool) (events : List Event) : Store :=
  events.foldl tell { s with pools := s.pools.set number p }

/-- A transaction with an answer leaves behind what it says. -/
theorem onPool_of_ok {α : Type} {number : Nat} {transaction : Pool → Transaction α} {s : Store}
    {p : Pool} {events : List Event} {a : α}
    (h : transaction (s.pool number) = ⟨p, events, .ok a⟩) :
    onPool number transaction s = .ok a (s.commit number p events) := by
  unfold onPool
  rw [h]
  rfl

/-- So does one that aborts. -/
theorem onPool_of_error {α : Type} {number : Nat} {transaction : Pool → Transaction α} {s : Store}
    {p : Pool} {events : List Event} {abort : Abort}
    (h : transaction (s.pool number) = ⟨p, events, .error abort⟩) :
    onPool number transaction s = .error abort (s.commit number p events) := by
  unfold onPool
  rw [h]
  rfl

/-- What a pool lends is lent by the store. -/
theorem borrow_of_ok {number len : Nat} {zero : Bool} {s : Store} {p : Pool}
    {events : List Event} {loan : Loan}
    (h : (s.pool number).borrow number len zero (s.tracking || s.tracing) =
      ⟨p, events, .ok loan⟩) :
    Store.borrow number len zero s = .ok loan (s.commit number p events) := by
  show onPool number (fun p => p.borrow number len zero (s.tracking || s.tracing)) s = _
  exact onPool_of_ok h

/-- What a pool refuses is refused by the store. -/
theorem borrow_of_error {number len : Nat} {zero : Bool} {s : Store} {p : Pool}
    {events : List Event} {abort : Abort}
    (h : (s.pool number).borrow number len zero (s.tracking || s.tracing) =
      ⟨p, events, .error abort⟩) :
    Store.borrow number len zero s = .error abort (s.commit number p events) := by
  show onPool number (fun p => p.borrow number len zero (s.tracking || s.tracing)) s = _
  exact onPool_of_error h

/-- What is borrowed is what the pool offers. -/
theorem ends_borrow_offers (number len : Nat) (zero : Bool) (s : Store) :
    Ends (Store.borrow number len zero s)
      (fun loan _ => Pool.Offers number len zero (s.tracking || s.tracing) loan)
      fun _ _ => True := by
  show Ends (onPool number (fun p => p.borrow number len zero (s.tracking || s.tracing)) s) _ _
  unfold onPool
  dsimp only
  split
  · next loan hresult => exact Pool.offers_of_result_borrow hresult
  · trivial

/-- What no class serves is memory of the system, which has all that addresses can span. -/
theorem borrow_bypassed {len : Nat} (hclass : SizeClass.ofLength? len = none)
    (hlen : len < addressLimit) (number : Nat) (zero : Bool) (s : Store) :
    Store.borrow number len zero s = .ok (.unpooled (.zeroed len)) (s.commit number
      { s.pool number with bypassed := (s.pool number).bypassed + 1 } [.bypassed len]) := by
  refine borrow_of_ok ((Pool.borrow_of_none _ hclass number zero _).trans ?_)
  rw [Block.allocate, if_pos hlen]
  rfl

/-- What addresses cannot span is refused. -/
theorem borrow_refused {len : Nat} (hclass : SizeClass.ofLength? len = none)
    (hlen : ¬len < addressLimit) (number : Nat) (zero : Bool) (s : Store) :
    Store.borrow number len zero s = .error .capacityOverflow (s.commit number
      { s.pool number with bypassed := (s.pool number).bypassed + 1 } [.bypassed len]) := by
  refine borrow_of_error ((Pool.borrow_of_none _ hclass number zero _).trans ?_)
  rw [Block.allocate, if_neg hlen]
  rfl

@[simp] theorem pools_tell (s : Store) (event : Event) : (s.tell event).pools = s.pools := by
  cases event <;> rfl

/-- Telling changes no pool. -/
theorem pools_foldl_tell (events : List Event) (s : Store) :
    (events.foldl tell s).pools = s.pools := by
  induction events generalizing s with
  | nil => rfl
  | cons event events ih => rw [List.foldl_cons, ih, pools_tell]

section Commit

variable (s : Store) (number : Nat) (p : Pool) (events : List Event)

@[simp] theorem pools_commit : (s.commit number p events).pools = s.pools.set number p :=
  pools_foldl_tell events _

variable {s number}

/-- The pool is the given one. -/
theorem pool_commit_self (h : number < s.pools.length) :
    (s.commit number p events).pool number = p := by
  rw [pool, pools_commit, List.getElem?_set_self h]
  rfl

/-- The other pools are as before. -/
theorem pool_commit_of_ne {other : Nat} (h : other ≠ number) :
    (s.commit number p events).pool other = s.pool other := by
  rw [pool, pools_commit, List.getElem?_set_ne (Ne.symm h), pool]

variable {p}

/-- What happens to one pool is all that happens. -/
theorem trail_commit (h : number < s.pools.length) (htrail : (s.pool number).Trail p)
    (other : Nat) : (s.pool other).Trail ((s.commit number p events).pool other) := by
  by_cases hother : other = number
  · rw [hother, pool_commit_self p events h]
    exact htrail
  · rw [pool_commit_of_ne p events hother]
    exact .refl _

/-- All is steady if the pool is. -/
theorem steady_commit (h : number < s.pools.length) (hsteady : (s.pool number).Steady p)
    (htrail : (s.pool number).Trail p) : s.Steady (s.commit number p events) := by
  refine ⟨by rw [pools_commit, List.length_set], fun other => ?_, trail_commit events h htrail⟩
  by_cases hother : other = number
  · rw [hother, pool_commit_self p events h]
    exact hsteady
  · rw [pool_commit_of_ne p events hother]
    exact .refl _

/-- The store frees what the pool does. -/
theorem frees_commit {tickets : Multiset Ticket} (h : number < s.pools.length)
    (hfrees : (s.pool number).Frees p (stubsAt number tickets))
    (htrail : (s.pool number).Trail p) : s.Frees (s.commit number p events) tickets := by
  refine ⟨by rw [pools_commit, List.length_set], fun other => ?_, trail_commit events h htrail⟩
  by_cases hother : other = number
  · rw [hother, pool_commit_self p events h]
    exact hfrees
  · rw [pool_commit_of_ne p events hother]
    exact .refl _ _

/-- **The store stays in order** if the pool does, and loans and tickets of the
other pools are as before. -/
theorem Sound.commit {loans loans' : Multiset Loan} {tickets tickets' : Multiset Ticket}
    (hs : s.Sound loans tickets) (h : number < s.pools.length)
    (hp : p.Sound (deedsAt number loans') (stubsAt number tickets'))
    (hloans : ∀ other, other ≠ number → deedsAt other loans' = deedsAt other loans)
    (htickets : ∀ other, other ≠ number → stubsAt other tickets' = stubsAt other tickets)
    (hfit : ∀ loan ∈ loans', loan.terms.Fit) :
    (s.commit number p events).Sound loans' tickets' := by
  refine ⟨fun other => ?_, hfit⟩
  by_cases hother : other = number
  · subst hother
    rw [pool_commit_self p events h]
    exact hp
  · rw [pool_commit_of_ne p events hother, hloans other hother, htickets other hother]
    exact hs.pool other

/-- A lost loan is told. -/
theorem events_commit_leaked (report : LeakReport) :
    (s.commit number p [.leaked report]).events = .leaked report :: s.events :=
  rfl

/-- A lost loan is reported to the tracker, if there is one. -/
theorem deliveries_commit_leaked (report : LeakReport) :
    (s.commit number p [.leaked report]).deliveries =
      deliver s.tracker [report] ++ s.deliveries :=
  rfl

end Commit

/-- **Nothing is told or counted**, and no page comes back. -/
structure Quiet (s t : Store) : Prop where
  events : t.events = s.events
  deliveries : t.deliveries = s.deliveries
  tracker : t.tracker = s.tracker
  leaked : ∀ number, (t.pool number).leaked = (s.pool number).leaked
  released : ∀ number, (t.pool number).released = (s.pool number).released
  shelves : ∀ number, (t.pool number).shelves = (s.pool number).shelves

theorem Quiet.refl (s : Store) : s.Quiet s :=
  ⟨rfl, rfl, rfl, fun _ => rfl, fun _ => rfl, fun _ => rfl⟩

theorem Quiet.trans {s t u : Store} (h : s.Quiet t) (h' : t.Quiet u) : s.Quiet u :=
  ⟨h'.events.trans h.events, h'.deliveries.trans h.deliveries, h'.tracker.trans h.tracker,
    fun number => (h'.leaked number).trans (h.leaked number),
    fun number => (h'.released number).trans (h.released number),
    fun number => (h'.shelves number).trans (h.shelves number)⟩

/-- A change of a slot is quiet. -/
theorem quiet_modifySlot (s : Store) {number : Nat} (h : number < s.pools.length) (slot : Nat)
    (f : Slot → Slot) : s.Quiet (s.commit number ((s.pool number).modifySlot slot f) []) := by
  have hpool (other : Nat) : (s.commit number ((s.pool number).modifySlot slot f) []).pool other =
      if other = number then (s.pool number).modifySlot slot f else s.pool other := by
    by_cases hother : other = number
    · rw [if_pos hother, hother, pool_commit_self _ _ h]
    · rw [if_neg hother, pool_commit_of_ne _ _ hother]
  refine ⟨rfl, rfl, rfl, fun other => ?_, fun other => ?_, fun other => ?_⟩ <;> rw [hpool]
  all_goals
    split
    · next hother =>
      rw [hother]
      rfl
    · rfl

namespace Sound

variable {s : Store} {loans loans' : Multiset Loan} {tickets : Multiset Ticket}

/-- **Whatever leaves the terms of the loans** leaves the store in order. -/
theorem of_terms_eq (h : s.Sound loans tickets)
    (heq : loans'.map Loan.terms = loans.map Loan.terms) : s.Sound loans' tickets := by
  refine ⟨fun number => ?_, fun loan hloan => ?_⟩
  · rw [deedsAt, heq, ← deedsAt]
    exact h.pool number
  · have hmem : loan.terms ∈ loans'.map Loan.terms := Multiset.mem_map_of_mem _ hloan
    rw [heq] at hmem
    obtain ⟨old, hold, hterms⟩ := Multiset.mem_map.mp hmem
    exact hterms ▸ h.fit old hold

/-- **As much is seen of a loan as was asked for.** -/
theorem length_view (h : s.Sound loans tickets) {loan : Loan} (hloan : loan ∈ loans) :
    loan.view.length = loan.len := by
  have hfit := h.fit loan hloan
  rw [Terms.Fit, Loan.len_terms, Loan.capacity_terms] at hfit
  rw [Loan.length_view, Nat.min_eq_left hfit]

/-- A store with the same pools is in order as well. -/
theorem of_pools_eq {t : Store} (h : s.Sound loans tickets) (heq : t.pools = s.pools) :
    t.Sound loans tickets := by
  refine ⟨fun number => ?_, h.fit⟩
  rw [Store.pool, heq, ← Store.pool]
  exact h.pool number

/-- Pages that are lent are of pools that exist. -/
theorem home_lt {lease : Lease} (h : s.Sound loans tickets) (hlease : .pooled lease ∈ loans) :
    lease.home < s.pools.length := by
  by_contra hge
  have hmem : lease.deed ∈ deedsAt lease.home loans := by
    obtain ⟨others, rfl⟩ := Multiset.exists_cons_of_mem hlease
    rw [deedsAt_cons_pooled]
    exact Multiset.mem_cons_self _ _
  have hlt := ((h.pool lease.home).placed.of_deed hmem).1
  rw [Store.pool, List.getElem?_eq_none (Nat.le_of_not_lt hge)] at hlt
  exact Nat.not_lt_zero _ hlt

/-- Tickets are for pools that exist. -/
theorem stub_home_lt {home slot generation : Nat} (h : s.Sound loans tickets)
    (hticket : .page home slot generation ∈ tickets) : home < s.pools.length := by
  by_contra hge
  have hmem : ⟨slot, generation⟩ ∈ stubsAt home tickets := by
    obtain ⟨others, rfl⟩ := Multiset.exists_cons_of_mem hticket
    rw [stubsAt_cons_page]
    exact Multiset.mem_cons_self _ _
  have hlt := (h.pool home).slot_lt hmem
  rw [Store.pool, List.getElem?_eq_none (Nat.le_of_not_lt hge)] at hlt
  exact Nat.not_lt_zero _ hlt

end Sound

end Store

end Wirepool
