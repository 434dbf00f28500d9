import Wirepool.Proofs.Pool.Accounts
import Wirepool.Proofs.Store.Actions

/-!
# Books on the loans of a store

Each pool of a store has books of its own, and the journal is shared by all of them. A
lost loan is told without the pool it was lost to, so the entries of all pools are kept in
one row, in the order in which they are made: the warnings in the journal are the lost
loans of that row, one by one.

An account is open if somebody holds the loan or if its page is parked. The books of a
store balance over an action if those of all its pools do. Each action of the store has one
lemma that says what it enters, and a row of actions enters what each of them does.
-/

namespace Wirepool

/-- The account of a loan on such terms, if it is a page of a pool. -/
def Terms.account? (terms : Terms) : Option Account :=
  terms.lease.map fun (home, deed) => ⟨home, deed.generation, terms.capacity, terms.len⟩

/-- The account of a loan, if it is a page of a pool. -/
def Loan.account? (loan : Loan) : Option Account := loan.terms.account?

/-- Writing to memory does not change its account. -/
@[simp] theorem Loan.account?_write (loan : Loan) (offset : Nat) (row : List UInt8) :
    (loan.write offset row).account? = loan.account? :=
  congrArg Terms.account? (loan.terms_write offset row)

/-- The entries on loans of one pool. -/
def accountsOf (number : Nat) (row : List Account) : List Account :=
  row.filter fun account => account.home = number

/-- The accounts of those loans of one pool that somebody holds. -/
def heldAccounts (number : Nat) (loans : Multiset Loan) : Multiset Account :=
  ((loans.map Loan.terms).filterMap Terms.account?).filter fun account => account.home = number

@[simp] theorem accountsOf_append (number : Nat) (row later : List Account) :
    accountsOf number (row ++ later) = accountsOf number row ++ accountsOf number later :=
  List.filter_append _ _

/-- All entries are on loans of a pool if they are on its loans. -/
theorem accountsOf_of_own {number : Nat} {row : List Account}
    (h : ∀ account ∈ row, account.home = number) (other : Nat) :
    accountsOf other row = if other = number then row else [] := by
  split
  · next heq =>
    exact List.filter_eq_self.mpr fun account haccount =>
      decide_eq_true ((h account haccount).trans heq.symm)
  · next hne =>
    refine List.filter_eq_nil_iff.mpr fun account haccount hother => hne ?_
    exact (of_decide_eq_true hother).symm.trans (h account haccount)

section Held

variable (number : Nat) (loans : Multiset Loan)

theorem heldAccounts_add (more : Multiset Loan) :
    heldAccounts number (loans + more) = heldAccounts number loans + heldAccounts number more := by
  rw [heldAccounts, Multiset.map_add, Multiset.filterMap_add, Multiset.filter_add]
  rfl

/-- The accounts of a row of loans are its own. -/
theorem heldAccounts_coe (loans : List Loan) :
    heldAccounts number loans = ↑(accountsOf number (loans.filterMap Loan.account?)) := by
  rw [heldAccounts, Multiset.map_coe, Multiset.filterMap_coe, Multiset.filter_coe,
    List.filterMap_map]
  rfl

theorem heldAccounts_cons (loan : Loan) :
    heldAccounts number (loan ::ₘ loans) =
      ↑(accountsOf number loan.account?.toList) + heldAccounts number loans := by
  rw [← Multiset.singleton_add, heldAccounts_add, ← Multiset.coe_singleton, heldAccounts_coe]
  rfl

theorem heldAccounts_cons_unpooled (block : Block) :
    heldAccounts number (.unpooled block ::ₘ loans) = heldAccounts number loans := by
  rw [heldAccounts_cons]
  exact zero_add _

theorem heldAccounts_cons_pooled (lease : Lease) :
    heldAccounts lease.home (.pooled lease ::ₘ loans) =
      lease.account ::ₘ heldAccounts lease.home loans := by
  have hown : ∀ account ∈ [lease.account], account.home = lease.home := by
    intro account haccount
    rw [List.mem_singleton.mp haccount]
    rfl
  rw [heldAccounts_cons]
  show (↑(accountsOf lease.home [lease.account]) : Multiset Account) + _ = _
  rw [accountsOf_of_own hown, if_pos rfl]
  rfl

theorem heldAccounts_cons_of_ne {number : Nat} {lease : Lease} (h : number ≠ lease.home) :
    heldAccounts number (.pooled lease ::ₘ loans) = heldAccounts number loans := by
  have hown : ∀ account ∈ [lease.account], account.home = lease.home := by
    intro account haccount
    rw [List.mem_singleton.mp haccount]
    rfl
  rw [heldAccounts_cons]
  show (↑(accountsOf number [lease.account]) : Multiset Account) + _ = _
  rw [accountsOf_of_own hown, if_neg h]
  exact zero_add _

variable {number loans}

/-- What is held is the memory of a loan. -/
theorem mem_heldAccounts {account : Account} : account ∈ heldAccounts number loans ↔
    ∃ lease, .pooled lease ∈ loans ∧ lease.home = number ∧ lease.account = account := by
  rw [heldAccounts, Multiset.mem_filter, Multiset.mem_filterMap]
  constructor
  · rintro ⟨⟨terms, hterms, haccount⟩, hhome⟩
    obtain ⟨loan, hloan, rfl⟩ := Multiset.mem_map.mp hterms
    cases loan with
    | unpooled block => cases haccount
    | pooled lease =>
      obtain rfl : lease.account = account := Option.some.inj haccount
      exact ⟨lease, hloan, hhome, rfl⟩
  · rintro ⟨lease, hlease, hhome, rfl⟩
    exact ⟨⟨_, Multiset.mem_map_of_mem _ hlease, rfl⟩, hhome⟩

/-- Whatever leaves the terms of loans leaves their accounts. -/
theorem heldAccounts_of_terms_eq {loans' : Multiset Loan}
    (h : loans'.map Loan.terms = loans.map Loan.terms) :
    heldAccounts number loans' = heldAccounts number loans := by
  rw [heldAccounts, h, heldAccounts]

end Held

/-! ## What is delivered of reports -/

/-- Of no reports none is delivered. -/
theorem deliver_nil (tracker : Option Tracker) : deliver tracker [] = [] := by
  cases tracker <;> rfl

/-- What is delivered of two rows is what is delivered of each of them. -/
theorem deliver_append (tracker : Option Tracker) (row later : List LeakReport) :
    deliver tracker (row ++ later) = deliver tracker row ++ deliver tracker later := by
  cases tracker with
  | none => rfl
  | some tracker => exact List.map_append

/-- Reports are delivered in the order in which they come. -/
theorem deliver_reverse (tracker : Option Tracker) (row : List LeakReport) :
    deliver tracker row.reverse = (deliver tracker row).reverse := by
  cases tracker with
  | none => rfl
  | some tracker => exact List.map_reverse

/-! ## The books of a store -/

namespace Store

/-- **The open accounts of a pool**: of the loans that are held and of the pages that are
parked. -/
def openAccounts (s : Store) (loans : Multiset Loan) (number : Nat) : Multiset Account :=
  heldAccounts number loans + (s.pool number).parkedAccounts number

/-- What the warnings in the journal say, the latest in front. -/
def warned (s : Store) : List (Nat × Nat × Nat) :=
  (s.events.filterMap Event.report?).map LeakReport.figures

/-- What the reports say that trackers have received, the latest in front. -/
def reported (s : Store) : List (Nat × Nat × Nat) :=
  s.deliveries.map fun delivery => delivery.report.figures

/-- **The accounts of a store tally.** Somebody holds `loans` before and `loans'`
afterwards. -/
structure Tallies (s : Store) (loans : Multiset Loan) (row : Dealings) (t : Store)
    (loans' : Multiset Loan) : Prop where
  /-- What was open or is lent is still open or has ended. -/
  balance : ∀ number, s.openAccounts loans number + ↑(accountsOf number row.lent) =
    t.openAccounts loans' number +
      (↑(accountsOf number row.returned) + ↑(accountsOf number row.lost))
  /-- The loans of a pool are numbered. -/
  numbered : ∀ number, (accountsOf number row.lent).map Account.generation =
    List.range' ((s.pool number).generation + 1) (accountsOf number row.lent).length
  generation : ∀ number, (t.pool number).generation =
    (s.pool number).generation + (accountsOf number row.lent).length
  /-- A loan is a page of the class that serves what was asked for. -/
  served : ∀ account ∈ row.lent, ∃ c, SizeClass.ofLength? account.len = some c ∧
    account.capacity = c.capacity
  /-- A pool counts its lost loans. -/
  leaked : ∀ number, (t.pool number).leaked =
    (s.pool number).leaked + (accountsOf number row.lost).length
  /-- There is a warning for each of them. -/
  warned : t.warned = (row.lost.map Account.figures).reverse ++ s.warned

/-- **The books of a store balance**: the accounts tally, and if there is a tracker it
receives a report on each loan that is lost. -/
structure Balances (s : Store) (loans : Multiset Loan) (row : Dealings) (t : Store)
    (loans' : Multiset Loan) : Prop extends s.Tallies loans row t loans' where
  reported : t.reported =
    (if s.tracking then (row.lost.map Account.figures).reverse else []) ++ s.reported
  tracker : t.tracker = s.tracker

/-- **One row of entries after another.** -/
theorem Tallies.trans {s t u : Store} {loans loans' loans'' : Multiset Loan}
    {row later : Dealings} (h : s.Tallies loans row t loans')
    (h' : t.Tallies loans' later u loans'') : s.Tallies loans (row ++ later) u loans'' := by
  refine ⟨fun number => ?_, fun number => ?_, fun number => ?_, fun account haccount => ?_,
    fun number => ?_, ?_⟩
  · have hfirst := h.balance number
    have hsecond := h'.balance number
    rw [Dealings.lent_append, Dealings.returned_append, Dealings.lost_append, accountsOf_append,
      accountsOf_append, accountsOf_append, ← Multiset.coe_add, ← Multiset.coe_add,
      ← Multiset.coe_add, ← add_assoc, hfirst, add_right_comm, hsecond]
    abel
  · rw [Dealings.lent_append, accountsOf_append, List.map_append, h.numbered, h'.numbered,
      h.generation, List.length_append, ← List.range'_append_1]
    congr 2
    omega
  · rw [h'.generation, h.generation, Dealings.lent_append, accountsOf_append, List.length_append,
      Nat.add_assoc]
  · exact (List.mem_append.mp haccount).elim (h.served account) (h'.served account)
  · rw [h'.leaked, h.leaked, Dealings.lost_append, accountsOf_append, List.length_append,
      Nat.add_assoc]
  · rw [h'.warned, h.warned, Dealings.lost_append, List.map_append, List.reverse_append,
      List.append_assoc]

namespace Balances

variable {s t u : Store} {loans loans' loans'' : Multiset Loan} {row later : Dealings}

/-- **One row of entries after another.** -/
theorem trans (h : s.Balances loans row t loans') (h' : t.Balances loans' later u loans'') :
    s.Balances loans (row ++ later) u loans'' := by
  refine ⟨h.toTallies.trans h'.toTallies, ?_, h'.tracker.trans h.tracker⟩
  rw [h'.reported, h.reported, tracking, h.tracker, ← tracking, Dealings.lost_append,
    List.map_append, List.reverse_append]
  cases s.tracking <;> simp

/-- **Nothing is entered** where no loan is made or ends. -/
theorem of_pool_eq (hpool : ∀ number, t.pool number = s.pool number)
    (hheld : ∀ number, heldAccounts number loans' = heldAccounts number loans)
    (hwarned : t.warned = s.warned) (hreported : t.reported = s.reported)
    (htracker : t.tracker = s.tracker) : s.Balances loans {} t loans' := by
  refine ⟨⟨fun number => ?_, fun _ => rfl, fun number => ?_, nofun, fun number => ?_, hwarned⟩,
    ?_, htracker⟩
  · rw [openAccounts, openAccounts, hpool, hheld]
    rfl
  · rw [hpool]
    rfl
  · rw [hpool]
    rfl
  · rw [hreported]
    cases s.tracking <;> rfl

theorem refl (s : Store) (loans : Multiset Loan) : s.Balances loans {} s loans :=
  of_pool_eq (fun _ => rfl) (fun _ => rfl) rfl rfl rfl

/-- Whatever leaves the terms of loans is no entry. -/
theorem of_terms_eq (h : s.Balances loans row t loans')
    (heq : loans''.map Loan.terms = loans'.map Loan.terms) : s.Balances loans row t loans'' := by
  refine ⟨⟨fun number => ?_, h.numbered, h.generation, h.served, h.leaked, h.warned⟩, h.reported,
    h.tracker⟩
  rw [h.balance, openAccounts, openAccounts, heldAccounts_of_terms_eq heq]

end Balances

/-- **Loans are made and none ends.** -/
def Borrows (s : Store) (loans : Multiset Loan) (t : Store) (loans' : Multiset Loan) : Prop :=
  ∃ row, s.Balances loans ⟨row, [], []⟩ t loans'

namespace Borrows

variable {s t u : Store} {loans loans' loans'' : Multiset Loan}

theorem refl (s : Store) (loans : Multiset Loan) : s.Borrows loans s loans := ⟨[], .refl s loans⟩

theorem trans (h : s.Borrows loans t loans') (h' : t.Borrows loans' u loans'') :
    s.Borrows loans u loans'' := by
  obtain ⟨row, hrow⟩ := h
  obtain ⟨later, hlater⟩ := h'
  exact ⟨row ++ later, hrow.trans hlater⟩

/-- Chunks on the same terms are as good as those that were borrowed. -/
theorem of_terms_eq {chunks chunks' : List Loan} (h : s.Borrows loans t (↑chunks + loans'))
    (hterms : chunks'.map Loan.terms = chunks.map Loan.terms) :
    s.Borrows loans t (↑chunks' + loans') := by
  obtain ⟨row, hrow⟩ := h
  refine ⟨row, hrow.of_terms_eq ?_⟩
  rw [Multiset.map_add, Multiset.map_add, Multiset.map_coe, Multiset.map_coe, hterms]

end Borrows

/-! ## Telling -/

theorem events_tell (s : Store) (event : Event) : (s.tell event).events = event :: s.events := by
  cases event <;> rfl

theorem tracker_tell (s : Store) (event : Event) : (s.tell event).tracker = s.tracker := by
  cases event <;> rfl

/-- A lost loan is reported to the tracker, anything else to nobody. -/
theorem deliveries_tell (s : Store) (event : Event) : (s.tell event).deliveries =
    deliver s.tracker event.report?.toList ++ s.deliveries := by
  cases event with
  | leaked report => rfl
  | _ => exact (congrArg (· ++ s.deliveries) (deliver_nil s.tracker)).symm

theorem warned_tell (s : Store) (event : Event) :
    (s.tell event).warned = event.report?.toList.map LeakReport.figures ++ s.warned := by
  rw [warned, events_tell, warned]
  cases event <;> rfl

theorem reported_tell (s : Store) (event : Event) : (s.tell event).reported =
    (if s.tracking then event.report?.toList.map LeakReport.figures else []) ++ s.reported := by
  rw [reported, deliveries_tell, List.map_append, ← reported, tracking]
  cases s.tracker with
  | none => rfl
  | some tracker => rw [deliver, List.map_map]; rfl

/-- **What is told in turn** is warned of and reported in turn. -/
theorem told_foldl (events : List Event) (s : Store) :
    (events.foldl tell s).warned =
        ((events.filterMap Event.report?).map LeakReport.figures).reverse ++ s.warned ∧
      (events.foldl tell s).reported = (if s.tracking then
        ((events.filterMap Event.report?).map LeakReport.figures).reverse else []) ++ s.reported ∧
      (events.foldl tell s).tracker = s.tracker := by
  induction events generalizing s with
  | nil => exact ⟨rfl, by cases s.tracking <;> rfl, rfl⟩
  | cons event events ih =>
    obtain ⟨hwarned, hreported, htracker⟩ := ih (s.tell event)
    have hrow : (event :: events).filterMap Event.report? =
        event.report?.toList ++ events.filterMap Event.report? := by
      cases event <;> rfl
    have hone : (event.report?.toList.map LeakReport.figures).reverse =
        event.report?.toList.map LeakReport.figures := by
      cases event <;> rfl
    rw [List.foldl_cons, hrow, List.map_append, List.reverse_append, hone]
    refine ⟨?_, ?_, htracker.trans (tracker_tell s event)⟩
    · rw [hwarned, warned_tell, List.append_assoc]
    · rw [hreported, reported_tell, tracking, tracker_tell, ← tracking]
      cases s.tracking <;> simp

/-- Telling anything but a lost loan is no entry. -/
theorem balances_tell (s : Store) (loans : Multiset Loan) {event : Event}
    (h : event.report? = none) : s.Balances loans {} (s.tell event) loans := by
  refine .of_pool_eq (fun number => by rw [pool, pools_tell, pool]) (fun _ => rfl) ?_ ?_
    (tracker_tell s event)
  · rw [warned_tell, h]
    rfl
  · rw [reported_tell, h]
    cases s.tracking <;> rfl

/-! ## Transactions -/

section Actions

variable {s : Store} {loans loans' : Multiset Loan} {tickets : Multiset Ticket} {number : Nat}

/-- **A transaction on one pool** enters what it does there. -/
theorem balances_commit (h : number < s.pools.length) {row : Dealings} {events : List Event}
    {q : Pool} (hpool : (s.pool number).Balances number (heldAccounts number loans) row events q
      (heldAccounts number loans'))
    (hothers : ∀ other, other ≠ number → heldAccounts other loans' = heldAccounts other loans) :
    s.Balances loans row (s.commit number q events) loans' := by
  have hown := hpool.own
  simp only [List.mem_append] at hown
  have hlent := accountsOf_of_own fun account ha => hown account (.inl (.inl ha))
  have hreturned := accountsOf_of_own fun account ha => hown account (.inl (.inr ha))
  have hlost := accountsOf_of_own fun account ha => hown account (.inr ha)
  obtain ⟨hwarned, hreported, htracker⟩ :=
    told_foldl events { s with pools := s.pools.set number q }
  rw [hpool.told] at hwarned hreported
  refine ⟨⟨fun other => ?_, fun other => ?_, fun other => ?_, hpool.served, fun other => ?_,
    hwarned⟩, hreported, htracker⟩
  all_goals by_cases hother : other = number
  · subst hother
    rw [hlent, hreturned, hlost, if_pos rfl, if_pos rfl, if_pos rfl, openAccounts, openAccounts,
      pool_commit_self q events h, hpool.balance]
  · rw [hlent, hreturned, hlost, if_neg hother, if_neg hother, if_neg hother, openAccounts,
      openAccounts, pool_commit_of_ne q events hother, hothers other hother]
    rfl
  · subst hother
    rw [hlent, if_pos rfl, hpool.numbered]
  · rw [hlent, if_neg hother]
    rfl
  · subst hother
    rw [hlent, if_pos rfl, pool_commit_self q events h, hpool.generation]
  · rw [hlent, if_neg hother, pool_commit_of_ne q events hother]
    rfl
  · subst hother
    rw [hlost, if_pos rfl, pool_commit_self q events h, hpool.leaked]
  · rw [hlost, if_neg hother, pool_commit_of_ne q events hother]
    rfl

/-- **Borrowing** enters the loan that is made, if it is a page of the pool. -/
theorem Sound.balances_borrow (h : s.Sound loans tickets) (hnumber : number < s.pools.length)
    (len : Nat) (zero : Bool) :
    Ends (Store.borrow number len zero s)
      (fun loan t => s.Balances loans ⟨loan.account?.toList, [], []⟩ t (loan ::ₘ loans))
      fun _ t => s.Balances loans {} t loans := by
  cases hclass : SizeClass.ofLength? len with
  | none =>
    have hpool : (s.pool number).Balances number (heldAccounts number loans) {} [.bypassed len]
        { s.pool number with bypassed := (s.pool number).bypassed + 1 }
        (heldAccounts number loans) :=
      Pool.balances_of_eq (p := s.pool number)
        (q := { s.pool number with bypassed := (s.pool number).bypassed + 1 }) rfl rfl rfl rfl _
    have hbypassed : s.Balances loans {} _ loans := balances_commit hnumber hpool fun _ _ => rfl
    by_cases hlen : len < addressLimit
    · rw [borrow_bypassed hclass hlen]
      exact hbypassed.trans (.of_pool_eq (fun _ => rfl)
        (fun other => heldAccounts_cons_unpooled other loans _) rfl rfl rfl)
    · rw [borrow_refused hclass hlen]
      exact hbypassed
  | some c =>
    obtain ⟨q, lease, events, hborrow, hbalances⟩ :=
      (h.pool number).balances_borrow hclass number zero (s.tracking || s.tracing)
    obtain rfl : lease.home = number :=
      (hbalances 0).own lease.account (List.mem_append_left _ (List.mem_append_left _
        (List.mem_singleton_self _)))
    rw [borrow_of_ok hborrow]
    refine balances_commit hnumber ?_ fun other hother => heldAccounts_cons_of_ne loans hother
    rw [heldAccounts_cons_pooled]
    exact hbalances _

/-- So does borrowing for given parts. -/
theorem Sound.balances_concat (h : s.Sound loans tickets) (hnumber : number < s.pools.length)
    (parts : List (List UInt8)) :
    Ends (Store.concat number parts s)
      (fun loan t => s.Balances loans ⟨loan.account?.toList, [], []⟩ t (loan ::ₘ loans))
      fun _ t => s.Balances loans {} t loans := by
  refine (h.balances_borrow hnumber parts.flatten.length false).bind fun loan t ht => ?_
  show s.Balances loans ⟨(loan.write 0 parts.flatten).account?.toList, [], []⟩ t _
  rw [Loan.account?_write]
  refine ht.of_terms_eq ?_
  rw [Multiset.map_cons, Multiset.map_cons, Loan.terms_write]

/-- **Giving memory back** enters its loan as given back. -/
theorem Sound.balances_release {loan : Loan} (h : s.Sound (loan ::ₘ loans) tickets) :
    Ends (Store.release loan s)
      (fun _ t => s.Balances (loan ::ₘ loans) ⟨[], loan.account?.toList, []⟩ t loans)
      fun _ _ => False := by
  cases loan with
  | unpooled block =>
    exact .of_pool_eq (fun _ => rfl)
      (fun other => (heldAccounts_cons_unpooled other loans _).symm) rfl rfl rfl
  | pooled lease =>
    have hhome := h.home_lt (Multiset.mem_cons_self _ _)
    have hpool := h.pool lease.home
    rw [deedsAt_cons_pooled] at hpool
    obtain ⟨q, hreclaim, hbalances⟩ := hpool.balances_reclaim (heldAccounts lease.home loans)
    show Ends (onPool lease.home (fun p => p.reclaim lease) s) _ _
    rw [onPool_of_ok hreclaim]
    refine balances_commit hhome ?_ fun other hother =>
      (heldAccounts_cons_of_ne loans hother).symm
    rw [heldAccounts_cons_pooled]
    exact hbalances

/-- **Losing memory** enters its loan as lost. -/
theorem Sound.balances_lose {loan : Loan} (h : s.Sound (loan ::ₘ loans) tickets) :
    Ends (Store.lose loan s)
      (fun _ t => s.Balances (loan ::ₘ loans) ⟨[], [], loan.account?.toList⟩ t loans)
      fun _ _ => False := by
  cases loan with
  | unpooled block =>
    exact .of_pool_eq (fun _ => rfl)
      (fun other => (heldAccounts_cons_unpooled other loans _).symm) rfl rfl rfl
  | pooled lease =>
    have hhome := h.home_lt (Multiset.mem_cons_self _ _)
    have hpool := h.pool lease.home
    rw [deedsAt_cons_pooled] at hpool
    obtain ⟨q, hlose, hbalances⟩ := hpool.balances_lose (heldAccounts lease.home loans)
    show Ends (onPool lease.home (fun p => p.lose lease) s) _ _
    rw [onPool_of_ok hlose]
    refine balances_commit hhome ?_ fun other hother =>
      (heldAccounts_cons_of_ne loans hother).symm
    rw [heldAccounts_cons_pooled]
    exact hbalances

/-- **A row of loans ends**, one after another, all of them in the same way. -/
theorem Sound.balances_forM {action : Loan → StoreM Unit} (ends : List Account → Dealings)
    (hends : ∀ row later, ends (row ++ later) = ends row ++ ends later)
    (hnil : ends [] = {})
    (haction : ∀ {s : Store} {loan : Loan} {loans : Multiset Loan},
      s.Sound (loan ::ₘ loans) tickets →
      Ends (action loan s) (fun _ t => s.Leads loans tickets t ∧
        s.Balances (loan ::ₘ loans) (ends loan.account?.toList) t loans) fun _ _ => False)
    {chunks : List Loan} (h : s.Sound (↑chunks + loans) tickets) :
    Ends (chunks.forM action s)
      (fun _ t => s.Balances (↑chunks + loans) (ends (chunks.filterMap Loan.account?)) t loans)
      fun _ _ => False := by
  induction chunks generalizing s with
  | nil =>
    show s.Balances (↑([] : List Loan) + loans) (ends []) s loans
    rw [hnil, Multiset.coe_nil, zero_add]
    exact .refl s loans
  | cons chunk chunks ih =>
    rw [← Multiset.cons_coe, Multiset.cons_add] at h ⊢
    rw [List.forM_eq_forM, List.forM_cons]
    refine (haction h).bind fun _ t ht => ?_
    obtain ⟨hleads, hfirst⟩ := ht
    refine (ih hleads.1).mono (fun _ u hu => ?_) fun _ _ hf => hf
    have hrow : (chunk :: chunks).filterMap Loan.account? =
        chunk.account?.toList ++ chunks.filterMap Loan.account? := by
      rw [List.filterMap_cons]
      cases chunk.account? <;> rfl
    rw [hrow, hends]
    exact hfirst.trans hu

/-- **Giving a row of loans back** enters all of them as given back. -/
theorem Sound.balances_forM_release {chunks : List Loan}
    (h : s.Sound (↑chunks + loans) tickets) :
    Ends (chunks.forM Store.release s)
      (fun _ t => s.Balances (↑chunks + loans) ⟨[], chunks.filterMap Loan.account?, []⟩ t loans)
      fun _ _ => False :=
  balances_forM (fun row => ⟨[], row, []⟩) (fun _ _ => rfl) rfl
    (fun hs => (hs.release.and hs.balances_release).mono (fun _ _ ht => ht) fun _ _ hf => hf.1) h

/-- **Losing a row of loans** enters all of them as lost. -/
theorem Sound.balances_forM_lose {chunks : List Loan} (h : s.Sound (↑chunks + loans) tickets) :
    Ends (chunks.forM Store.lose s)
      (fun _ t => s.Balances (↑chunks + loans) ⟨[], [], chunks.filterMap Loan.account?⟩ t loans)
      fun _ _ => False :=
  balances_forM (fun row => ⟨[], [], row⟩) (fun _ _ => rfl) rfl
    (fun hs => (hs.lose.and hs.balances_lose).mono (fun _ _ ht => ht) fun _ _ hf => hf.1) h

/-- **Detaching a loan** is no entry. -/
theorem Sound.balances_detach {loan : Loan} (h : s.Sound (loan ::ₘ loans) tickets) :
    Ends (Store.detach loan s) (fun _ t => s.Balances (loan ::ₘ loans) {} t loans)
      fun _ _ => False := by
  cases loan with
  | unpooled block =>
    exact .of_pool_eq (fun _ => rfl)
      (fun other => (heldAccounts_cons_unpooled other loans _).symm) rfl rfl rfl
  | pooled lease =>
    have hhome := h.home_lt (Multiset.mem_cons_self _ _)
    have hpool := h.pool lease.home
    rw [deedsAt_cons_pooled] at hpool
    show s.Balances (.pooled lease ::ₘ loans) {} (s.commit lease.home
      ((s.pool lease.home).park lease) []) loans
    refine balances_commit hhome ?_ fun other hother =>
      (heldAccounts_cons_of_ne loans hother).symm
    rw [heldAccounts_cons_pooled]
    exact hpool.placed.balances_park _

/-- **Copying a ticket** is no entry. -/
theorem Sound.balances_copyTicket {ticket : Ticket} (h : s.Sound loans tickets)
    (hticket : ticket ∈ tickets) :
    Ends (Store.copyTicket ticket s) (fun _ t => s.Balances loans {} t loans)
      fun _ _ => False := by
  cases ticket with
  | idle => exact .refl s loans
  | page home slot generation =>
    have hsteady : (s.pool home).Steady ((s.pool home).copyTicket slot) :=
      .modifySlot _ slot (fun _ => rfl) fun _ => rfl
    show s.Balances loans {} (s.commit home ((s.pool home).copyTicket slot) []) loans
    exact balances_commit (h.stub_home_lt hticket)
      (Pool.balances_of_eq (hsteady.parkedAccounts_eq home) rfl rfl rfl _) fun _ _ => rfl

/-- **Throwing a ticket away** enters nothing, or a loan that is lost by it. -/
theorem Sound.balances_discardTicket {ticket : Ticket} (h : s.Sound loans (ticket ::ₘ tickets)) :
    Ends (Store.discardTicket ticket s)
      (fun _ t => ∃ row, s.Balances loans ⟨[], [], row⟩ t loans) fun _ _ => False := by
  cases ticket with
  | idle => exact ⟨[], .refl s loans⟩
  | page home slot generation =>
    have hpool := h.pool home
    rw [stubsAt_cons_page] at hpool
    obtain ⟨q, row, events, hdiscard, hbalances⟩ :=
      hpool.balances_discardTicket home (heldAccounts home loans)
    show Ends (onPool home (fun p => p.discardTicket slot) s) _ _
    rw [onPool_of_ok hdiscard]
    exact ⟨row, balances_commit (h.stub_home_lt (Multiset.mem_cons_self _ _)) hbalances
      fun _ _ => rfl⟩

/-- The account that a ticket closes if it is handed in. -/
def honoured (s : Store) : Ticket → Option Account
  | .idle => none
  | .page home slot generation => (s.pool home).honoured home slot generation

/-- **Handing a ticket in** enters the loan that it is good for as given back. A ticket that
is good for nothing goes as if it had been thrown away. -/
theorem Sound.balances_redeem {ticket : Ticket} (h : s.Sound loans (ticket ::ₘ tickets)) :
    Ends (Store.redeem ticket s)
      (fun _ t => ∃ row, s.Balances loans ⟨[], (s.honoured ticket).toList, row⟩ t loans)
      fun _ t => ∃ row, s.Balances loans ⟨[], (s.honoured ticket).toList, row⟩ t loans := by
  cases ticket with
  | idle => exact ⟨[], .refl s loans⟩
  | page home slot generation =>
    have hhome := h.stub_home_lt (Multiset.mem_cons_self _ _)
    have hpool := h.pool home
    rw [stubsAt_cons_page] at hpool
    obtain ⟨q, row, events, hredeem, hbalances⟩ :=
      hpool.balances_redeem home (heldAccounts home loans)
    have hcommit : s.Balances loans ⟨[], (s.honoured (.page home slot generation)).toList, row⟩
        (s.commit home q events) loans := balances_commit hhome hbalances fun _ _ => rfl
    show Ends (onPool home (fun p => p.redeem slot generation) s) _ _
    by_cases hgood : ((s.pool home).slotAt slot).generation = generation
    · rw [if_pos hgood] at hredeem
      rw [onPool_of_ok hredeem]
      exact ⟨row, hcommit⟩
    · rw [if_neg hgood] at hredeem
      rw [onPool_of_error hredeem]
      exact ⟨row, hcommit⟩

end Actions

end Store

end Wirepool
