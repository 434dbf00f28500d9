import Mathlib.Tactic.Abel
import Wirepool.Proofs.Pool.History

/-!
# Books on the loans of a pool

A pool keeps counters, and what it tells of a lost loan it tells once. Which loans are
still to come back is nowhere written down. So books are kept here, beside the pool: a
loan is entered when it is lent, and once more when it ends, as given back or as lost.
What is entered is its *account*, which is all that tells it from other loans and all that
a report on it would say.

The books *balance* if the accounts that are open are just those of the loans that somebody
holds and of the pages that are parked. A parked page is an open account by itself: its slot
knows the length that was asked for and has the generation of the loan. Detaching a loan
therefore is no entry at all, since its account only goes from the holder to the slot.
-/

namespace Wirepool

/-! ## Accounts -/

/-- **A loan, as it stands in the books.** -/
structure Account where
  /-- The number of its pool. -/
  home : Nat
  generation : Nat
  /-- The size of the page. -/
  capacity : Nat
  /-- The length that was asked for. -/
  len : Nat
  deriving DecidableEq

/-- The account of a loan. -/
def Lease.account (lease : Lease) : Account :=
  ⟨lease.home, lease.generation, lease.page.block.size, lease.len⟩

/-- The account of a loan whose page is parked in a pool under its generation. -/
def Parked.account (home generation : Nat) (parked : Parked) : Account :=
  ⟨home, generation, parked.page.block.size, parked.len⟩

/-- The account of the loan whose page is parked on a slot of a pool, if there is one. -/
def Slot.account? (home : Nat) (slot : Slot) : Option Account :=
  slot.parked.map (Parked.account home slot.generation)

/-- What a report says of a loan, but for where it was made. -/
def LeakReport.figures (report : LeakReport) : Nat × Nat × Nat :=
  (report.generation, report.capacity, report.len)

/-- What a report on a loan would say. -/
def Account.figures (account : Account) : Nat × Nat × Nat :=
  (account.generation, account.capacity, account.len)

/-- The report that an event tells, if it tells of a lost loan. -/
def Event.report? : Event → Option LeakReport
  | leaked report => some report
  | _ => none

/-- **Nothing but a lost loan is worth a warning.** -/
theorem Event.severity_eq_warning_iff (event : Event) :
    event.severity = .warning ↔ event.report?.isSome := by
  cases event <;> simp [severity, report?]

/-- **Entries in the books**, oldest first. -/
structure Dealings where
  /-- Loans that were made. -/
  lent : List Account := []
  /-- Loans that were given back. -/
  returned : List Account := []
  /-- Loans that were lost. -/
  lost : List Account := []

namespace Dealings

instance : Append Dealings where
  append row later :=
    ⟨row.lent ++ later.lent, row.returned ++ later.returned, row.lost ++ later.lost⟩

@[simp] theorem lent_append (row later : Dealings) :
    (row ++ later).lent = row.lent ++ later.lent := rfl

@[simp] theorem returned_append (row later : Dealings) :
    (row ++ later).returned = row.returned ++ later.returned := rfl

@[simp] theorem lost_append (row later : Dealings) :
    (row ++ later).lost = row.lost ++ later.lost := rfl

end Dealings

namespace Pool

/-! ## Accounts of parked pages -/

/-- **The accounts of the loans whose pages are parked** in the pool with the number
`home`. -/
def parkedAccounts (p : Pool) (home : Nat) : Multiset Account :=
  ∑ slot ∈ Finset.range p.slots.length, ↑((p.slotAt slot).account? home).toList

section Parked

variable {p q : Pool} {home slot : Nat}

/-- There is nothing on slots that do not exist. -/
theorem parkedAccounts_eq_sum {count : Nat} (h : p.slots.length ≤ count) (home : Nat) :
    p.parkedAccounts home =
      ∑ slot ∈ Finset.range count, ↑((p.slotAt slot).account? home).toList := by
  refine Finset.sum_subset (Finset.range_subset_range.mpr h) fun slot _ hout => ?_
  rw [slotAt_of_le p (Nat.le_of_not_lt fun hlt => hout (Finset.mem_range.mpr hlt))]
  rfl

/-- **What is different on one slot** is all that is different. -/
theorem parkedAccounts_add (home slot : Nat)
    (h : ∀ other, other ≠ slot →
      (q.slotAt other).account? home = (p.slotAt other).account? home) :
    q.parkedAccounts home + ↑((p.slotAt slot).account? home).toList =
      p.parkedAccounts home + ↑((q.slotAt slot).account? home).toList := by
  let count := p.slots.length + q.slots.length + (slot + 1)
  have hslot : slot ∈ Finset.range count := Finset.mem_range.mpr (by omega)
  rw [parkedAccounts_eq_sum (show p.slots.length ≤ count by omega),
    parkedAccounts_eq_sum (show q.slots.length ≤ count by omega),
    ← Finset.add_sum_erase _ _ hslot, ← Finset.add_sum_erase _ _ hslot]
  have hothers : ∑ other ∈ (Finset.range count).erase slot,
        (↑((q.slotAt other).account? home).toList : Multiset Account) =
      ∑ other ∈ (Finset.range count).erase slot, ↑((p.slotAt other).account? home).toList :=
    Finset.sum_congr rfl fun other hother => by rw [h other (Finset.ne_of_mem_erase hother)]
  rw [hothers]
  abel

/-- If nothing is different on any slot, nothing is. -/
theorem parkedAccounts_congr (home : Nat)
    (h : ∀ slot, (q.slotAt slot).account? home = (p.slotAt slot).account? home) :
    q.parkedAccounts home = p.parkedAccounts home := by
  have hadd := parkedAccounts_add home 0 fun other _ => h other
  rwa [h 0, add_right_cancel_iff] at hadd

/-- **What is parked stays in the books** while all is steady. -/
theorem Steady.parkedAccounts_eq (h : p.Steady q) (home : Nat) :
    q.parkedAccounts home = p.parkedAccounts home := by
  refine parkedAccounts_congr home fun slot => ?_
  cases hparked : (p.slotAt slot).parked with
  | some parked =>
    obtain ⟨hsame, hgeneration⟩ := h.keepsSlot slot parked hparked
    rw [Slot.account?, hsame, hgeneration, Slot.account?]
  | none =>
    -- nothing was parked there, and nothing is
    have hnone : (q.slotAt slot).parked = none :=
      (h.slot slot).elim (fun hkeeps => hkeeps.1.trans hparked) fun hrenews => hrenews.1
    rw [Slot.account?, hnone, Slot.account?, hparked]
    rfl

/-- **An open account by itself** is a page that is parked. -/
theorem mem_parkedAccounts {account : Account} :
    account ∈ p.parkedAccounts home ↔ ∃ slot, (p.slotAt slot).account? home = some account := by
  rw [parkedAccounts, Multiset.mem_sum]
  simp only [Multiset.mem_coe, Option.mem_toList]
  refine ⟨fun ⟨slot, _, h⟩ => ⟨slot, h⟩, fun ⟨slot, h⟩ => ⟨slot, ?_, h⟩⟩
  by_contra hout
  rw [slotAt_of_le p (Nat.le_of_not_lt fun hlt => hout (Finset.mem_range.mpr hlt))] at h
  cases h

end Parked

/-! ## Balances -/

/-- **The books of a pool balance over a transaction.** Before it the accounts `held` are
in the hands of somebody, and afterwards the accounts `held'`. -/
structure Balances (p : Pool) (home : Nat) (held : Multiset Account) (row : Dealings)
    (events : List Event) (q : Pool) (held' : Multiset Account) : Prop where
  /-- All entries are on loans of the pool. -/
  own : ∀ account ∈ row.lent ++ row.returned ++ row.lost, account.home = home
  /-- What was open or is lent is still open or has ended. -/
  balance : held + p.parkedAccounts home + ↑row.lent =
    held' + q.parkedAccounts home + (↑row.returned + ↑row.lost)
  /-- Loans are numbered. -/
  numbered : row.lent.map Account.generation = List.range' (p.generation + 1) row.lent.length
  generation : q.generation = p.generation + row.lent.length
  /-- A loan is a page of the class that serves what was asked for. -/
  served : ∀ account ∈ row.lent, ∃ c, SizeClass.ofLength? account.len = some c ∧
    account.capacity = c.capacity
  leaked : q.leaked = p.leaked + row.lost.length
  /-- Lost loans are told. -/
  told : (events.filterMap Event.report?).map LeakReport.figures = row.lost.map Account.figures

section Balances

variable {p q : Pool} {held : Multiset Account} {deeds : Multiset Deed} {stubs : Multiset Stub}
  {events : List Event} {home : Nat}

/-- **Nothing is entered** where no loan is made or ends. -/
theorem balances_of_eq (hparked : q.parkedAccounts home = p.parkedAccounts home)
    (hgeneration : q.generation = p.generation) (hleaked : q.leaked = p.leaked)
    (htold : events.filterMap Event.report? = []) (held : Multiset Account) :
    p.Balances home held {} events q held :=
  ⟨nofun, by rw [hparked]; rfl, rfl, hgeneration, nofun, hleaked, by rw [htold]; rfl⟩

/-- What a pool tells of borrowing is that a class grew. -/
theorem told_borrow {len : Nat} {zero traced : Bool} {c : SizeClass} {result : Except Abort Loan}
    (hclass : SizeClass.ofLength? len = some c)
    (h : p.borrow home len zero traced = ⟨q, events, result⟩) :
    events.filterMap Event.report? = [] := by
  have hlend (r : Pool) (shelved : Shelved) :
      (r.lend home shelved len zero traced).events = [] := by
    unfold lend
    dsimp only
    split <;> rfl
  rw [borrow, hclass] at h
  cases hfree : (p.shelf c).free with
  | cons top free =>
    simp only [acquire, hfree] at h
    cases h
    rw [hlend]
    rfl
  | nil =>
    simp only [acquire, hfree] at h
    cases h
    rw [hlend]
    rfl

/-- **A loan is entered** when it is made. -/
theorem Sound.balances_borrow (h : p.Sound deeds stubs) {len : Nat} {c : SizeClass}
    (hclass : SizeClass.ofLength? len = some c) (home : Nat) (zero traced : Bool) :
    ∃ q lease events, p.borrow home len zero traced = ⟨q, events, .ok (.pooled lease)⟩ ∧
      ∀ held, p.Balances home held ⟨[lease.account], [], []⟩ events q
        (lease.account ::ₘ held) := by
  obtain ⟨q, lease, events, hborrow, -, hsteady, hhome, hlen, hc, hnext⟩ :=
    h.borrow hclass home zero traced
  have hbooks := books_borrow hclass hborrow
  refine ⟨q, lease, events, hborrow, fun held => ⟨List.forall_mem_singleton.mpr hhome, ?_, ?_,
    hbooks.generation, List.forall_mem_singleton.mpr ⟨c, ?_, ?_⟩, hbooks.leaked,
    by rw [told_borrow hclass hborrow]; rfl⟩⟩
  · rw [hsteady.parkedAccounts_eq, Multiset.coe_singleton, Multiset.coe_nil, add_zero,
      add_zero, add_comm, Multiset.singleton_add, Multiset.cons_add]
  · exact congrArg (fun generation => [generation]) hnext
  · show SizeClass.ofLength? lease.len = some c
    rw [hlen, hclass]
  · show lease.page.block.size = c.capacity
    rw [lease.page.size_eq, hc]

/-- **A loan that is given back** is entered as given back. -/
theorem Sound.balances_reclaim {lease : Lease} (h : p.Sound (lease.deed ::ₘ deeds) stubs)
    (held : Multiset Account) :
    ∃ q, p.reclaim lease = ⟨q, [], .ok ()⟩ ∧ p.Balances lease.home (lease.account ::ₘ held)
      ⟨[], [lease.account], []⟩ [] q held := by
  obtain ⟨hreclaim, -, hsteady⟩ := h.reclaim
  refine ⟨_, hreclaim, List.forall_mem_singleton.mpr rfl, ?_, rfl, rfl, nofun, rfl, rfl⟩
  rw [hsteady.parkedAccounts_eq, Multiset.coe_singleton, Multiset.coe_nil, add_zero, add_zero,
    Multiset.cons_add, ← Multiset.singleton_add, add_comm]

/-- **A loan that is lost** is entered as lost, and that is told. -/
theorem Sound.balances_lose {lease : Lease} (h : p.Sound (lease.deed ::ₘ deeds) stubs)
    (held : Multiset Account) :
    ∃ q, p.lose lease = ⟨q, [.leaked (leakReport lease)], .ok ()⟩ ∧
      p.Balances lease.home (lease.account ::ₘ held) ⟨[], [], [lease.account]⟩
        [.leaked (leakReport lease)] q held := by
  obtain ⟨q, hlose, -, hsteady⟩ := h.lose
  have hbooks := books_lose hlose
  refine ⟨q, hlose, List.forall_mem_singleton.mpr rfl, ?_, rfl, hbooks.generation, nofun,
    hbooks.leaked, rfl⟩
  rw [hsteady.parkedAccounts_eq, Multiset.coe_singleton, Multiset.coe_nil, add_zero, zero_add,
    Multiset.cons_add, ← Multiset.singleton_add, add_comm]

/-- **A loan that is detached** is not entered: its account is open as before. -/
theorem Placed.balances_park {lease : Lease} (h : p.Placed (lease.deed ::ₘ deeds))
    (held : Multiset Account) :
    p.Balances lease.home (lease.account ::ₘ held) {} [] (p.park lease) held := by
  obtain ⟨hlt, hgeneration, -, hparked⟩ := h.of_deed (Multiset.mem_cons_self _ _)
  have hbefore : (p.slotAt lease.slot).account? lease.home = none :=
    congrArg (Option.map _) hparked
  have hafter : ((p.park lease).slotAt lease.slot).account? lease.home = some lease.account := by
    have hself : ((p.park lease).slotAt lease.slot).generation = lease.generation :=
      (congrArg Slot.generation (slotAt_modifySlot_self p hlt _)).trans hgeneration
    have hpage : ((p.park lease).slotAt lease.slot).parked =
        some ⟨lease.page, lease.len, lease.traced⟩ :=
      congrArg Slot.parked (slotAt_modifySlot_self p hlt _)
    rw [Slot.account?, hself, hpage]
    rfl
  have hadd := parkedAccounts_add (q := p.park lease) lease.home lease.slot fun other hother =>
    congrArg (Slot.account? lease.home) (slotAt_modifySlot_of_ne p hother _)
  rw [hbefore, hafter] at hadd
  have hparks : (p.park lease).parkedAccounts lease.home =
      p.parkedAccounts lease.home + {lease.account} := (add_zero _).symm.trans hadd
  refine ⟨nofun, ?_, rfl, rfl, nofun, rfl, rfl⟩
  show lease.account ::ₘ held + p.parkedAccounts lease.home + 0 = held + _ + (0 + 0)
  rw [hparks, ← Multiset.singleton_add]
  abel

/-! ## Tickets -/

/-- A slot from which the parked page is gone has closed its account. -/
theorem parkedAccounts_eq_cons {slot : Nat} {account : Account}
    (hbefore : (p.slotAt slot).account? home = some account)
    (hafter : (q.slotAt slot).parked = none)
    (hothers : ∀ other, other ≠ slot → q.slotAt other = p.slotAt other) :
    p.parkedAccounts home = account ::ₘ q.parkedAccounts home := by
  have hadd := parkedAccounts_add home slot fun other hother =>
    congrArg (Slot.account? home) (hothers other hother)
  have hnone : (q.slotAt slot).account? home = none := by
    rw [Slot.account?, hafter]
    rfl
  rw [hbefore, hnone, Option.toList_none, Option.toList_some, Multiset.coe_nil, add_zero,
    Multiset.coe_singleton] at hadd
  rw [← hadd, add_comm, Multiset.singleton_add]

/-- **A slot whose last ticket is gone**: what is parked there is entered as lost. -/
theorem Placed.balances_retire (h : p.Placed deeds) (home slot : Nat) (held : Multiset Account) :
    ∃ q row events, p.retire slot = ⟨q, events, .ok ()⟩ ∧
      p.Balances home held ⟨[], [], row⟩ events q held := by
  cases hparked : (p.slotAt slot).parked with
  | none => exact ⟨p, [], [], Sound.retire_of_none hparked, balances_of_eq rfl rfl rfl rfl held⟩
  | some parked =>
    obtain ⟨hlt, -⟩ := h.of_parked hparked
    have haccount : (p.slotAt slot).account? home =
        some (parked.account home (p.slotAt slot).generation) := congrArg (Option.map _) hparked
    have hclosed : p.parkedAccounts home = parked.account home (p.slotAt slot).generation ::ₘ
        (({ p with leaked := p.leaked + 1 }.modifySlot slot fun _ => {}).addSlot.shelve
          parked.page p.slots.length).parkedAccounts home := by
      refine parkedAccounts_eq_cons haccount ?_ fun other hother => ?_
      · rw [slotAt_shelve, slotAt_addSlot]
        exact congrArg Slot.parked (slotAt_modifySlot_self _ hlt _)
      · rw [slotAt_shelve, slotAt_addSlot]
        exact slotAt_modifySlot_of_ne _ hother _
    refine ⟨_, [parked.account home (p.slotAt slot).generation], _,
      Sound.retire_of_parked h hparked, List.forall_mem_singleton.mpr rfl, ?_, rfl, rfl, nofun,
      rfl, rfl⟩
    rw [hclosed, ← Multiset.singleton_add, Multiset.coe_nil, Multiset.coe_singleton]
    abel

/-- What a pool comes to from another one that has the same books. -/
theorem Balances.of_before {r : Pool} {row : Dealings} {held' : Multiset Account}
    (h : q.Balances home held row events r held')
    (hparked : q.parkedAccounts home = p.parkedAccounts home)
    (hgeneration : q.generation = p.generation) (hleaked : q.leaked = p.leaked) :
    p.Balances home held row events r held' := by
  refine ⟨h.own, ?_, ?_, ?_, h.served, ?_, h.told⟩
  · rw [← hparked, h.balance]
  · rw [h.numbered, hgeneration]
  · rw [h.generation, hgeneration]
  · rw [h.leaked, hleaked]

/-- **A ticket that is thrown away** is no entry, unless it was the last one for a page that
is parked. -/
theorem Sound.balances_discardTicket {stub : Stub} (h : p.Sound deeds (stub ::ₘ stubs))
    (home : Nat) (held : Multiset Account) :
    ∃ q row events, p.discardTicket stub.slot = ⟨q, events, .ok ()⟩ ∧
      p.Balances home held ⟨[], [], row⟩ events q held := by
  have hsteady : p.Steady (p.countOut stub.slot) :=
    .modifySlot p stub.slot (fun _ => rfl) fun _ => rfl
  show ∃ q row events, (if ((p.countOut stub.slot).slotAt stub.slot).tickets = 0 then
    (p.countOut stub.slot).retire stub.slot else ⟨p.countOut stub.slot, [], .ok ()⟩) = _ ∧ _
  split
  · obtain ⟨q, row, events, hretire, hbalances⟩ :=
      (show (p.countOut stub.slot).Sound deeds stubs from h.dropTicket).placed.balances_retire home
        stub.slot held
    exact ⟨q, row, events, hretire,
      hbalances.of_before (hsteady.parkedAccounts_eq home) rfl rfl⟩
  · exact ⟨_, [], [], rfl, balances_of_eq (hsteady.parkedAccounts_eq home) rfl rfl rfl held⟩

/-- **The account that a ticket closes** if it is handed in: that of the page on its slot, if
it is good for it. -/
def honoured (p : Pool) (home slot generation : Nat) : Option Account :=
  if (p.slotAt slot).generation = generation then (p.slotAt slot).account? home else none

/-- **A ticket that is handed in** closes the account it is good for. If there is none, it
goes as if it had been thrown away. -/
theorem Sound.balances_redeem {stub : Stub} (h : p.Sound deeds (stub ::ₘ stubs)) (home : Nat)
    (held : Multiset Account) :
    ∃ q row events, p.redeem stub.slot stub.generation = ⟨q, events,
        if (p.slotAt stub.slot).generation = stub.generation then .ok ()
        else .error .generationMismatch⟩ ∧
      p.Balances home held ⟨[], (p.honoured home stub.slot stub.generation).toList, row⟩ events q
        held := by
  by_cases hgood : (p.slotAt stub.slot).generation = stub.generation
  · obtain ⟨parked, q, hparked, hredeem, hback⟩ :=
      h.redeem_of_eq (Multiset.mem_cons_self _ _) hgood
    have haccount : (p.slotAt stub.slot).account? home =
        some (parked.account home (p.slotAt stub.slot).generation) :=
      congrArg (Option.map _) hparked
    have hclosed := parkedAccounts_eq_cons haccount (congrArg Slot.parked hback.slotAt_self)
      hback.slotAt_of_ne
    rw [honoured, if_pos hgood, if_pos hgood, haccount]
    refine ⟨q, [], [], hredeem, List.forall_mem_singleton.mpr rfl, ?_, rfl, hback.generation,
      nofun, hback.leaked, rfl⟩
    rw [hclosed, ← Multiset.singleton_add]
    show held + (_ + _) + 0 = held + _ + ({_} + 0)
    abel
  · obtain ⟨q, row, events, hdiscard, hbalances⟩ := h.balances_discardTicket home held
    rw [honoured, if_neg hgood, if_neg hgood]
    exact ⟨q, row, events, by rw [redeem_of_ne hgood, hdiscard], hbalances⟩

end Balances

/-! ## Parked pages have tickets -/

/-- **Pages are parked only where there are tickets.** -/
def Attended (p : Pool) : Prop :=
  ∀ slot, (p.slotAt slot).tickets = 0 → (p.slotAt slot).parked = none

section Attended

variable {p q : Pool} {slot : Nat}

/-- A change of the other slots. -/
theorem Attended.of_others (h : p.Attended) (slot : Nat)
    (hothers : ∀ other, other ≠ slot → q.slotAt other = p.slotAt other)
    (hself : (q.slotAt slot).tickets = 0 → (q.slotAt slot).parked = none) : q.Attended := by
  intro other hother
  by_cases heq : other = slot
  · rw [heq] at hother ⊢
    exact hself hother
  · rw [hothers other heq] at hother ⊢
    exact h other hother

/-- A change of a slot that leaves a page only where there is a ticket. -/
theorem Attended.modifySlot (h : p.Attended) {f : Slot → Slot}
    (hf : (f (p.slotAt slot)).tickets = 0 → (f (p.slotAt slot)).parked = none) :
    (p.modifySlot slot f).Attended := by
  refine h.of_others slot (fun other hother => slotAt_modifySlot_of_ne p hother f) ?_
  rcases Nat.lt_or_ge slot p.slots.length with hlt | hge
  · rw [slotAt_modifySlot_self p hlt]
    exact hf
  · rw [slotAt_of_le _ (by rwa [length_slots_modifySlot])]
    exact fun _ => rfl

/-- Another generation on a slot is nothing to tickets and pages. -/
theorem Attended.setGeneration (h : p.Attended) (slot generation : Nat) :
    (p.setGeneration slot generation).Attended :=
  h.modifySlot (h slot)

/-- A pool with the same slots. -/
theorem Attended.of_slotAt_eq (h : p.Attended) (heq : ∀ slot, q.slotAt slot = p.slotAt slot) :
    q.Attended := by
  intro slot hslot
  rw [heq] at hslot ⊢
  exact h slot hslot

/-- A ticket that is thrown away does not leave a page behind without a ticket. -/
theorem Attended.discardTicket (h : p.Attended) {deeds : Multiset Deed} (hplaced : p.Placed deeds)
    (slot : Nat) : (p.discardTicket slot).pool.Attended := by
  have hothers (other : Nat) (hother : other ≠ slot) :
      (p.countOut slot).slotAt other = p.slotAt other := slotAt_modifySlot_of_ne p hother _
  have hcounted : (p.countOut slot).Placed deeds := hplaced.modifySlot rfl rfl
  show (if ((p.countOut slot).slotAt slot).tickets = 0 then (p.countOut slot).retire slot
    else ⟨p.countOut slot, [], .ok ()⟩ : Transaction Unit).pool.Attended
  split
  · cases hparked : ((p.countOut slot).slotAt slot).parked with
    | none =>
      rw [Sound.retire_of_none hparked]
      exact h.of_others slot hothers fun _ => hparked
    | some parked =>
      obtain ⟨hlt, -⟩ := hcounted.of_parked hparked
      rw [Sound.retire_of_parked hcounted hparked]
      refine h.of_others slot (fun other hother => ?_) fun _ => ?_
      · rw [slotAt_shelve, slotAt_addSlot]
        exact (slotAt_modifySlot_of_ne _ hother _).trans (hothers other hother)
      · rw [slotAt_shelve, slotAt_addSlot]
        exact congrArg Slot.parked (slotAt_modifySlot_self _ hlt _)
  · next hmore => exact h.of_others slot hothers fun hnone => absurd hnone hmore

/-- Lending a page that was shelved changes a generation at most. -/
theorem Attended.lend (h : p.Attended) (home : Nat) (shelved : Shelved) (len : Nat)
    (zero traced : Bool) : (p.lend home shelved len zero traced).pool.Attended := by
  unfold Pool.lend
  dsimp only
  split
  · exact ((h.of_slotAt_eq fun _ => rfl).setGeneration _ _).of_slotAt_eq fun _ => rfl
  · exact h.of_slotAt_eq fun _ => rfl

/-- A page is borrowed from the shelf, or its slot is made for it. -/
theorem Attended.borrow (h : p.Attended) (home len : Nat) (zero traced : Bool) :
    (p.borrow home len zero traced).pool.Attended := by
  unfold Pool.borrow
  cases SizeClass.ofLength? len with
  | none => exact h.of_slotAt_eq fun _ => rfl
  | some c =>
    cases hfree : (p.shelf c).free with
    | cons top free =>
      simp only [acquire, hfree]
      exact (h.of_slotAt_eq (slotAt_setShelf p c _)).lend home top len zero traced
    | nil =>
      simp only [acquire, hfree]
      exact (h.of_slotAt_eq fun slot => (slotAt_setShelf _ c _ slot).trans
        (slotAt_addSlot p slot)).lend home _ len zero traced

/-- A page that comes back is on no slot any more. -/
theorem Attended.reclaim (h : p.Attended) (lease : Lease) : (p.reclaim lease).pool.Attended := by
  unfold Pool.reclaim
  split
  · exact (h.setGeneration lease.slot 0).of_slotAt_eq (slotAt_shelve _ _ _)
  · exact h

/-- A page for which a ticket is handed in leaves its slot before the ticket is gone. -/
theorem Attended.redeem (h : p.Attended) {deeds : Multiset Deed} (hplaced : p.Placed deeds)
    {generation : Nat} {parked : Parked} {events : List Event}
    (hparked : (p.slotAt slot).parked = some parked)
    (hredeem : p.redeem slot generation = ⟨q, events, .ok ()⟩) : q.Attended := by
  let freed := ((p.setGeneration slot 0).modifySlot slot
    fun s => { s with parked := none }).shelve parked.page slot
  have hlt : slot < (p.setGeneration slot 0).slots.length := by
    rw [Pool.setGeneration, length_slots_modifySlot]
    exact (hplaced.of_parked hparked).1
  have hnone : (freed.slotAt slot).parked = none :=
    congrArg Slot.parked (slotAt_modifySlot_self _ hlt _)
  have hfreed : freed.Attended :=
    ((h.setGeneration slot 0).modifySlot fun _ => rfl).of_slotAt_eq (slotAt_shelve _ _ _)
  unfold Pool.redeem unpark at hredeem
  split at hredeem
  · simp only [hparked] at hredeem
    rw [Sound.discardTicket_of_none hnone] at hredeem
    cases hredeem
    exact hfreed.modifySlot fun _ => hnone
  · cases hredeem

/-- **No transaction** leaves a page behind without a ticket. -/
theorem Turn.attended {deal : Deal} (hturn : p.Turn deal q) {deeds : Multiset Deed}
    (hplaced : p.Placed deeds) (h : p.Attended) : q.Attended := by
  cases hturn with
  | @borrow home len zero traced _ _ _ _ _ hborrow
  | @bypass home len zero traced _ _ _ _ hborrow =>
    have hafter := h.borrow home len zero traced
    rwa [hborrow] at hafter
  | @reclaim lease _ _ hreclaim =>
    have hafter := h.reclaim lease
    rwa [hreclaim] at hafter
  | @lose lease _ _ hlose =>
    have hcounted : { p with leaked := p.leaked + 1 }.Attended := h.of_slotAt_eq fun _ => rfl
    obtain rfl : ({ p with leaked := p.leaked + 1 }.reclaim lease).pool = q :=
      congrArg Transaction.pool hlose
    exact hcounted.reclaim lease
  | park lease => exact h.modifySlot fun hnone => absurd hnone (Nat.succ_ne_zero _)
  | copyTicket slot => exact h.modifySlot fun hnone => absurd hnone (Nat.succ_ne_zero _)
  | @discardTicket slot _ hdiscard | @discardLast slot _ _ _ _ hdiscard =>
    have hafter := h.discardTicket hplaced slot
    rwa [hdiscard] at hafter
  | redeem hparked hredeem => exact h.redeem hplaced hparked hredeem

/-- **In the history of a pool** pages are always parked where there are tickets. -/
theorem Turns.attended {row : List Deal} (h : ({} : Pool).Turns row p) : p.Attended := by
  induction h with
  | nil => exact fun slot _ => congrArg Slot.parked (slotAt_of_le _ (Nat.zero_le slot))
  | concat h hturn _ ih =>
    obtain ⟨deeds, hplaced⟩ := h.exists_placed
    exact hturn.attended hplaced ih

end Attended

end Pool

end Wirepool
