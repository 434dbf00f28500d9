import Wirepool.Proofs.Pool.Tenants
import Wirepool.Proofs.Store.Messages

/-!
# The depots of a store

Each pool of a store has a depot, and what the borrowers hold in it is said beside the
store, as everywhere. Every action of the store has one lemma: it makes the depot of each
pool become another one by moves that a license allows. An action on one pool is no move in
the others.

A borrower who writes does so outside the store, so writing is no action. It is a relation
between two loans, and rows of loans are rewritten loan by loan. Which pages these are is
left to the license, and a store in order tells that they are not the pages of anybody else.
-/

namespace Wirepool

/-! ## Writing -/

/-- **What is written in front** of a position leaves what stands behind it. -/
theorem Block.drop_toBytes_write (b : Block) {offset count : Nat} {row : List UInt8}
    (h : row.length ≤ count - offset) :
    (b.write offset row).toBytes.drop count = b.toBytes.drop count := by
  apply List.ext_getElem?
  intro i
  rw [List.getElem?_drop, List.getElem?_drop, getElem?_toBytes_write, if_neg (by omega)]

namespace Loan

/-- The loan, if it is of a page of the pool with a number. -/
def leaseAt? (number : Nat) : Loan → Option Lease
  | unpooled _ => none
  | pooled lease => if lease.home = number then some lease else none

/-- **A borrower writes to a loan.** -/
inductive Rewrites : Loan → Loan → Prop
  | unpooled (before after : Block) : Rewrites (.unpooled before) (.unpooled after)
  | pooled {before after : Lease} (h : before.Rewrites after) :
      Rewrites (.pooled before) (.pooled after)

theorem Rewrites.refl (loan : Loan) : loan.Rewrites loan := by
  cases loan with
  | unpooled block => exact .unpooled block block
  | pooled lease => exact .pooled (.refl lease)

theorem Rewrites.trans {before between after : Loan} (h : before.Rewrites between)
    (h' : between.Rewrites after) : before.Rewrites after := by
  cases h with
  | unpooled one other =>
    cases h' with
    | unpooled _ last => exact .unpooled one last
  | pooled h =>
    cases h' with
    | pooled h' => exact .pooled (h.trans h')

/-- **Writing stays in what is seen.** -/
theorem rewrites_write (loan : Loan) (offset : Nat) (row : List UInt8) :
    loan.Rewrites (loan.write offset row) := by
  cases loan with
  | unpooled block => exact .unpooled block _
  | pooled lease =>
    refine .pooled ⟨rfl, rfl, lease.page.block.drop_toBytes_write ?_⟩
    rw [List.length_take]
    exact Nat.min_le_left _ _

/-- So does filling. -/
theorem rewrites_fill (loan : Loan) (offset count : Nat) (value : UInt8) :
    loan.Rewrites (loan.fill offset count value) := by
  cases loan with
  | unpooled block => exact .unpooled block _
  | pooled lease =>
    refine .pooled ⟨rfl, rfl, ?_⟩
    show ((lease.page.block.fill offset (min count (lease.len - offset)) value).toBytes).drop _ = _
    rw [Block.toBytes_fill]
    refine lease.page.block.drop_toBytes_write ?_
    rw [List.length_replicate]
    exact Nat.min_le_right _ _

/-- Rows of loans are rewritten loan by loan. -/
theorem forall₂_rewrites_refl (chunks : List Loan) : List.Forall₂ Rewrites chunks chunks :=
  List.forall₂_same.mpr fun chunk _ => .refl chunk

theorem forall₂_rewrites_trans {one other last : List Loan}
    (h : List.Forall₂ Rewrites one other) (h' : List.Forall₂ Rewrites other last) :
    List.Forall₂ Rewrites one last := by
  induction h generalizing last with
  | nil => exact h'
  | cons hchunk _ ih =>
    cases h' with
    | cons hchunk' hrest => exact .cons (hchunk.trans hchunk') (ih hrest)

end Loan

/-! ## What is held of one pool -/

/-- The loans of pages of one pool. -/
def leasesAt (number : Nat) (loans : Multiset Loan) : Multiset Lease :=
  loans.filterMap (Loan.leaseAt? number)

/-- **Nobody holds a page** of the pool with a number. -/
def NotHeld (number : Nat) (loans : Multiset Loan) (page : PageId) : Prop :=
  ∀ lease ∈ leasesAt number loans, lease.page.id ≠ page

section Held

variable (number : Nat) (loans : Multiset Loan)

theorem leasesAt_cons_unpooled (block : Block) :
    leasesAt number (.unpooled block ::ₘ loans) = leasesAt number loans :=
  Multiset.filterMap_cons_none _ _ rfl

theorem leasesAt_cons_pooled (lease : Lease) :
    leasesAt lease.home (.pooled lease ::ₘ loans) = lease ::ₘ leasesAt lease.home loans :=
  Multiset.filterMap_cons_some _ _ _ (if_pos rfl)

variable {number}

theorem leasesAt_cons_of_ne {lease : Lease} (h : number ≠ lease.home) :
    leasesAt number (.pooled lease ::ₘ loans) = leasesAt number loans :=
  Multiset.filterMap_cons_none _ _ (if_neg (Ne.symm h))

variable {loans}

theorem mem_leasesAt {lease : Lease} :
    lease ∈ leasesAt number loans ↔ .pooled lease ∈ loans ∧ lease.home = number := by
  rw [leasesAt, Multiset.mem_filterMap]
  constructor
  · rintro ⟨loan, hloan, hlease⟩
    cases loan with
    | unpooled block => cases hlease
    | pooled other =>
      rw [Loan.leaseAt?] at hlease
      split at hlease
      · next hhome =>
        cases hlease
        exact ⟨hloan, hhome⟩
      · cases hlease
  · rintro ⟨hlease, hhome⟩
    exact ⟨_, hlease, if_pos hhome⟩

end Held

namespace Store

/-- **The depot of the pool with a number**, if the borrowers hold these loans. -/
def depot (s : Store) (number : Nat) (loans : Multiset Loan) : Depot :=
  (s.pool number).depot number (leasesAt number loans)

/-- **Pages pass** from those who hold `loans` to those who hold `loans'`, by moves that a
license allows. -/
def Passes (s : Store) (number : Nat) (license : License) (loans : Multiset Loan) (t : Store)
    (loans' : Multiset Loan) : Prop :=
  (s.depot number loans).Becomes license (t.depot number loans')

variable {s t u : Store} {loans loans' loans'' : Multiset Loan} {tickets : Multiset Ticket}
  {number home : Nat} {license : License}

namespace Passes

theorem trans (h : s.Passes number license loans t loans')
    (h' : t.Passes number license loans' u loans'') : s.Passes number license loans u loans'' :=
  Depot.Becomes.trans h h'

/-- Nothing passes where nothing of the pool is different. -/
theorem of_eq (hpool : t.pool number = s.pool number)
    (hheld : leasesAt number loans' = leasesAt number loans) :
    s.Passes number license loans t loans' := by
  unfold Passes depot
  rw [hpool, hheld]
  exact .refl _ _

theorem refl (s : Store) (loans : Multiset Loan) : s.Passes number license loans s loans :=
  of_eq rfl rfl

end Passes

/-- A lease is placed in its pool. -/
theorem Sound.placed_of_pooled {lease : Lease} (h : s.Sound (.pooled lease ::ₘ loans) tickets) :
    (s.pool lease.home).Placed (lease.deed ::ₘ deedsAt lease.home loans) := by
  have hplaced := (h.pool lease.home).placed
  rwa [deedsAt_cons_pooled] at hplaced

/-- **A page that somebody holds** is held by nobody else. -/
theorem Sound.notHeld {loan : Loan} (h : s.Sound (loan ::ₘ loans) tickets) {lease : Lease}
    (hlease : lease ∈ loan.leaseAt? number) : NotHeld number loans lease.page.id := by
  intro other hother hpage
  cases loan with
  | unpooled block => cases hlease
  | pooled held =>
    rw [Loan.leaseAt?] at hlease
    split at hlease
    · next hhome =>
      cases hlease
      subst hhome
      have hnodup := h.placed_of_pooled.pages_nodup
      rw [Multiset.map_cons, Multiset.nodup_cons] at hnodup
      obtain ⟨hmem, hhome⟩ := mem_leasesAt.mp hother
      obtain ⟨others, rfl⟩ := Multiset.exists_cons_of_mem hmem
      refine hnodup.1 (Multiset.mem_map.mpr ⟨other.deed, ?_, hpage⟩)
      rw [← hhome, deedsAt_cons_pooled]
      exact Multiset.mem_cons_self _ _
    · cases hlease

/-- No page of a row of loans is held by anybody else. -/
theorem Sound.notHeld_of_mem {chunks : List Loan} (h : s.Sound (↑chunks + loans) tickets)
    {chunk : Loan} (hchunk : chunk ∈ chunks) {lease : Lease}
    (hlease : lease ∈ chunk.leaseAt? number) : NotHeld number loans lease.page.id := by
  obtain ⟨others, hothers⟩ := Multiset.exists_cons_of_mem (Multiset.mem_coe.mpr hchunk)
  rw [hothers, Multiset.cons_add] at h
  intro other hother
  obtain ⟨hmem, hhome⟩ := mem_leasesAt.mp hother
  exact h.notHeld hlease other (mem_leasesAt.mpr ⟨Multiset.mem_add.mpr (.inr hmem), hhome⟩)

/-! ## Rewriting -/

/-- **A borrower writes** to a page that may be written to. -/
theorem passes_rewrite {before after : Loan} (h : before.Rewrites after)
    (hwrites : ∀ lease ∈ before.leaseAt? number, license.writes lease.page.id)
    (loans : Multiset Loan) :
    s.Passes number license (before ::ₘ loans) s (after ::ₘ loans) := by
  cases h with
  | unpooled one other =>
    exact .of_eq rfl (by rw [leasesAt_cons_unpooled, leasesAt_cons_unpooled])
  | @pooled one other h =>
    have hhome : other.home = one.home := (congrArg Lease.home h.lease_eq).trans rfl
    by_cases hnumber : number = one.home
    · subst hnumber
      have hafter : leasesAt one.home (.pooled other ::ₘ loans) =
          other ::ₘ leasesAt one.home loans := by
        rw [← hhome, leasesAt_cons_pooled]
      unfold Passes depot
      rw [leasesAt_cons_pooled, hafter]
      exact .single (.write rfl h) (hwrites one (if_pos rfl))
    · refine .of_eq rfl ?_
      rw [leasesAt_cons_of_ne loans hnumber, leasesAt_cons_of_ne loans (hhome.symm ▸ hnumber)]

/-- **A row of loans is rewritten**, one after another. -/
theorem passes_row {chunks chunks' : List Loan}
    (h : List.Forall₂ Loan.Rewrites chunks chunks')
    (hwrites : ∀ chunk ∈ chunks, ∀ lease ∈ chunk.leaseAt? number, license.writes lease.page.id)
    (loans : Multiset Loan) :
    s.Passes number license (↑chunks + loans) s (↑chunks' + loans) := by
  induction h generalizing loans with
  | nil => exact .refl s _
  | @cons chunk chunk' rest rest' hchunk _ ih =>
    have hfirst := passes_rewrite (s := s) hchunk (hwrites chunk List.mem_cons_self)
      (↑rest + loans)
    have hothers := ih (fun other hother => hwrites other (List.mem_cons_of_mem _ hother))
      (chunk' ::ₘ loans)
    rw [Multiset.add_cons, Multiset.add_cons] at hothers
    rw [← Multiset.cons_coe, ← Multiset.cons_coe, Multiset.cons_add, Multiset.cons_add]
    exact hfirst.trans hothers

/-- **Whoever holds a row of loans** may write to all of it. -/
theorem Sound.passes_rewrites {chunks chunks' : List Loan} (h : s.Sound (↑chunks + loans) tickets)
    (hrewrites : List.Forall₂ Loan.Rewrites chunks chunks')
    (hwrites : ∀ page, NotHeld number loans page → license.writes page) :
    s.Passes number license (↑chunks + loans) s (↑chunks' + loans) :=
  passes_row hrewrites (fun _ hchunk _ hlease => hwrites _ (h.notHeld_of_mem hchunk hlease)) loans

/-! ## Actions -/

/-- **A transaction on one pool** is no move in the others. -/
theorem passes_commit (h : home < s.pools.length) {events : List Event} {q : Pool}
    (hpool : ((s.pool home).depot home (leasesAt home loans)).Becomes license
      (q.depot home (leasesAt home loans')))
    (hothers : ∀ other, other ≠ home → leasesAt other loans' = leasesAt other loans) :
    s.Passes number license loans (s.commit home q events) loans' := by
  by_cases hnumber : number = home
  · subst hnumber
    unfold Passes depot
    rw [pool_commit_self q events h]
    exact hpool
  · exact .of_eq (pool_commit_of_ne q events hnumber) (hothers number hnumber)

/-- **Borrowing** lends a page, or none. -/
theorem Sound.passes_borrow (h : s.Sound loans tickets) (number : Nat)
    (hhome : home < s.pools.length) (len : Nat) (zero : Bool) (hlends : license.lends = true) :
    Ends (Store.borrow home len zero s)
      (fun loan t => s.Passes number license loans t (loan ::ₘ loans))
      fun _ t => s.Passes number license loans t loans := by
  cases hclass : SizeClass.ofLength? len with
  | none =>
    have hbypassed : s.Passes number license loans (s.commit home
        { s.pool home with bypassed := (s.pool home).bypassed + 1 } [.bypassed len]) loans :=
      passes_commit hhome (.refl _ _) fun _ _ => rfl
    by_cases hlen : len < addressLimit
    · rw [borrow_bypassed hclass hlen]
      exact hbypassed.trans (.of_eq rfl (leasesAt_cons_unpooled number loans _))
    · rw [borrow_refused hclass hlen]
      exact hbypassed
  | some c =>
    obtain ⟨q, lease, events, hborrow, rfl, -, hmakes⟩ :=
      (h.pool home).placed.makes_borrow hclass home zero (s.tracking || s.tracing)
    rw [borrow_of_ok hborrow]
    refine passes_commit hhome ?_ fun other hother => leasesAt_cons_of_ne loans hother
    rw [leasesAt_cons_pooled]
    exact .single (hmakes _) hlends

/-- **Memory for a message** is borrowed, or it is none of a pool. -/
theorem Sound.passes_obtain (h : s.Sound loans tickets) (number : Nat) {home : Option Nat}
    (hhome : ∀ number ∈ home, number < s.pools.length) (len : Nat)
    (hlends : license.lends = true) :
    Ends (Store.obtain home len s)
      (fun loan t => s.Passes number license loans t (loan ::ₘ loans))
      fun _ t => s.Passes number license loans t loans := by
  cases home with
  | some home => exact h.passes_borrow number (hhome home rfl) len false hlends
  | none =>
    by_cases hlen : len < addressLimit
    · rw [obtain_granted hlen]
      exact .of_eq rfl (leasesAt_cons_unpooled number loans _)
    · rw [obtain_refused hlen]
      exact .refl s loans

/-- **Borrowing for given parts** writes to a page that nobody else holds. -/
theorem Sound.passes_concat (h : s.Sound loans tickets) (number : Nat)
    (hhome : home < s.pools.length) (parts : List (List UInt8)) (hlends : license.lends = true)
    (hwrites : ∀ page, NotHeld number loans page → license.writes page) :
    Ends (Store.concat home parts s)
      (fun loan t => s.Passes number license loans t (loan ::ₘ loans))
      fun _ t => s.Passes number license loans t loans := by
  refine Ends.bind (((h.borrow hhome parts.flatten.length false).and
    (h.passes_borrow number hhome parts.flatten.length false hlends)).mono (fun _ _ ht => ht)
    fun _ _ ht => ht.2) fun loan t ht => ?_
  obtain ⟨⟨hleads, -⟩, hpasses⟩ := ht
  exact hpasses.trans (passes_rewrite (loan.rewrites_write 0 parts.flatten)
    (fun lease hlease => hwrites _ (hleads.1.notHeld hlease)) loans)

/-- **A lease that leaves its borrower** by one move of its pool. -/
theorem Sound.passes_leave {lease : Lease} (h : s.Sound (.pooled lease ::ₘ loans) tickets)
    (number : Nat) {move : Move} {q : Pool} (events : List Event)
    (hmakes : ((s.pool lease.home).depot lease.home (lease ::ₘ leasesAt lease.home loans)).Makes
      move (q.depot lease.home (leasesAt lease.home loans)))
    (hmove : move.Within license) :
    s.Passes number license (.pooled lease ::ₘ loans) (s.commit lease.home q events) loans := by
  refine passes_commit (h.home_lt (Multiset.mem_cons_self _ _)) ?_ fun other hother =>
    (leasesAt_cons_of_ne loans hother).symm
  rw [leasesAt_cons_pooled]
  exact .single hmakes hmove

/-- **Giving memory back** is a return. -/
theorem Sound.passes_release {loan : Loan} (h : s.Sound (loan ::ₘ loans) tickets) (number : Nat)
    (hregains : license.regains = true) :
    Ends (Store.release loan s) (fun _ t => s.Passes number license (loan ::ₘ loans) t loans)
      fun _ _ => False := by
  cases loan with
  | unpooled block => exact .of_eq rfl (leasesAt_cons_unpooled number loans _).symm
  | pooled lease =>
    obtain ⟨q, hreclaim, hmakes⟩ := h.placed_of_pooled.makes_reclaim lease.home _
    show Ends (onPool lease.home (fun p => p.reclaim lease) s) _ _
    rw [onPool_of_ok hreclaim]
    exact h.passes_leave number [] hmakes hregains

/-- **Losing memory** is a return as well. -/
theorem Sound.passes_lose {loan : Loan} (h : s.Sound (loan ::ₘ loans) tickets) (number : Nat)
    (hregains : license.regains = true) :
    Ends (Store.lose loan s) (fun _ t => s.Passes number license (loan ::ₘ loans) t loans)
      fun _ _ => False := by
  cases loan with
  | unpooled block => exact .of_eq rfl (leasesAt_cons_unpooled number loans _).symm
  | pooled lease =>
    obtain ⟨q, events, hlose, hmakes⟩ := h.placed_of_pooled.makes_lose lease.home _
    show Ends (onPool lease.home (fun p => p.lose lease) s) _ _
    rw [onPool_of_ok hlose]
    exact h.passes_leave number events hmakes hregains

/-- **A row of loans comes back**, one after another. -/
theorem Sound.passes_forM {action : Loan → StoreM Unit}
    (haction : ∀ {s : Store} {loan : Loan} {loans : Multiset Loan},
      s.Sound (loan ::ₘ loans) tickets →
      Ends (action loan s) (fun _ t => s.Leads loans tickets t ∧
        s.Passes number license (loan ::ₘ loans) t loans) fun _ _ => False)
    {chunks : List Loan} (h : s.Sound (↑chunks + loans) tickets) :
    Ends (chunks.forM action s) (fun _ t => s.Passes number license (↑chunks + loans) t loans)
      fun _ _ => False := by
  refine (Ends.forM (fun rest t => t.Sound (↑rest + loans) tickets ∧
    s.Passes number license (↑chunks + loans) t (↑rest + loans)) (fun loan rest t ht => ?_) chunks
    ⟨h, .refl s _⟩).mono (fun _ t ht => ?_) fun _ _ hf => hf
  · rw [← Multiset.cons_coe, Multiset.cons_add] at ht
    exact (haction ht.1).mono (fun _ u hu => ⟨hu.1.1, ht.2.trans hu.2⟩) fun _ _ hf => hf
  · rw [Multiset.coe_nil, zero_add] at ht
    exact ht.2

theorem Sound.passes_forM_release {chunks : List Loan} (h : s.Sound (↑chunks + loans) tickets)
    (number : Nat) (hregains : license.regains = true) :
    Ends (chunks.forM Store.release s)
      (fun _ t => s.Passes number license (↑chunks + loans) t loans) fun _ _ => False :=
  passes_forM (fun hs => (hs.release.and (hs.passes_release number hregains)).mono
    (fun _ _ ht => ht) fun _ _ hf => hf.1) h

theorem Sound.passes_forM_lose {chunks : List Loan} (h : s.Sound (↑chunks + loans) tickets)
    (number : Nat) (hregains : license.regains = true) :
    Ends (chunks.forM Store.lose s)
      (fun _ t => s.Passes number license (↑chunks + loans) t loans) fun _ _ => False :=
  passes_forM (fun hs => (hs.lose.and (hs.passes_lose number hregains)).mono
    (fun _ _ ht => ht) fun _ _ hf => hf.1) h

/-- **Detaching a loan** leaves its page with its slot. -/
theorem Sound.passes_detach {loan : Loan} (h : s.Sound (loan ::ₘ loans) tickets) (number : Nat)
    (hdetaches : license.detaches = true) :
    Ends (Store.detach loan s) (fun _ t => s.Passes number license (loan ::ₘ loans) t loans)
      fun _ _ => False := by
  cases loan with
  | unpooled block => exact .of_eq rfl (leasesAt_cons_unpooled number loans _).symm
  | pooled lease =>
    show s.Passes number license (.pooled lease ::ₘ loans) (s.commit lease.home
      ((s.pool lease.home).park lease) []) loans
    exact h.passes_leave number [] (h.placed_of_pooled.makes_park _) hdetaches

/-- **Copying a ticket** is nothing to any page. -/
theorem Sound.passes_copyTicket {ticket : Ticket} (h : s.Sound loans tickets) (number : Nat)
    (hticket : ticket ∈ tickets) :
    Ends (Store.copyTicket ticket s) (fun _ t => s.Passes number license loans t loans)
      fun _ _ => False := by
  cases ticket with
  | idle => exact .refl s loans
  | page home slot generation =>
    have hsteady : (s.pool home).Steady ((s.pool home).copyTicket slot) :=
      .modifySlot _ slot (fun _ => rfl) fun _ => rfl
    show s.Passes number license loans (s.commit home ((s.pool home).copyTicket slot) []) loans
    have hsame : ((s.pool home).copyTicket slot).depot home (leasesAt home loans) =
        (s.pool home).depot home (leasesAt home loans) :=
      Pool.depot_congr (fun _ => rfl) (hsteady.lease?_eq home)
    refine passes_commit (h.stub_home_lt hticket) ?_ fun _ _ => rfl
    rw [hsame]
    exact .refl _ _

/-- **Throwing a ticket away** is the return of what is parked, or nothing. -/
theorem Sound.passes_discardTicket {ticket : Ticket} (h : s.Sound loans (ticket ::ₘ tickets))
    (number : Nat) (hcollects : license.collects = true) :
    Ends (Store.discardTicket ticket s) (fun _ t => s.Passes number license loans t loans)
      fun _ _ => False := by
  cases ticket with
  | idle => exact .refl s loans
  | page home slot generation =>
    have hpool := h.pool home
    rw [stubsAt_cons_page] at hpool
    obtain ⟨q, events, hdiscard, hbecomes⟩ :=
      hpool.becomes_discardTicket home (leasesAt home loans) hcollects
    show Ends (onPool home (fun p => p.discardTicket slot) s) _ _
    rw [onPool_of_ok hdiscard]
    exact passes_commit (h.stub_home_lt (Multiset.mem_cons_self _ _)) hbecomes fun _ _ => rfl

/-- **Handing a ticket in** is the return of what is parked, or nothing. -/
theorem Sound.passes_redeem {ticket : Ticket} (h : s.Sound loans (ticket ::ₘ tickets))
    (number : Nat) (hcollects : license.collects = true) :
    Ends (Store.redeem ticket s) (fun _ t => s.Passes number license loans t loans)
      fun _ t => s.Passes number license loans t loans := by
  cases ticket with
  | idle => exact .refl s loans
  | page home slot generation =>
    have hpool := h.pool home
    rw [stubsAt_cons_page] at hpool
    obtain ⟨q, events, hredeem, hbecomes⟩ :=
      hpool.becomes_redeem home (leasesAt home loans) hcollects
    have hcommit : s.Passes number license loans (s.commit home q events) loans :=
      passes_commit (h.stub_home_lt (Multiset.mem_cons_self _ _)) hbecomes fun _ _ => rfl
    show Ends (onPool home (fun p => p.redeem slot generation) s) _ _
    by_cases hgood : ((s.pool home).slotAt slot).generation = generation
    · rw [if_pos hgood] at hredeem
      rw [onPool_of_ok hredeem]
      exact hcommit
    · rw [if_neg hgood] at hredeem
      rw [onPool_of_error hredeem]
      exact hcommit

end Store

end Wirepool
