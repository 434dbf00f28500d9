import Wirepool.Proofs.Session.Books
import Wirepool.Proofs.Session.Conservation

/-!
# How loans end

A loan can go through many hands: it may be a chunk of an arena or of a buffer, and it may
be detached, so that its page lies on a slot and nobody holds it at all. It ends when it is
given back or when it is lost, and it can be lost in as many ways as it can be held. That it
ends in one way only, and is told of at most once, is a statement about all that has
happened; no session shows it by itself.

So a ledger is kept of a run, a row for each command. In the ledger a loan is known by its
account, and since loans are numbered there is one account for each of them. The open
accounts and those that have ended are the accounts of all loans that were made, so each of
them is in one of three places: open, given back or lost. The warnings are the lost ones.
-/

namespace Wirepool

namespace Dealings

/-- All entries of several rows. -/
def total (rows : List Dealings) : Dealings := rows.foldl (· ++ ·) {}

theorem total_concat (rows : List Dealings) (row : Dealings) :
    total (rows ++ [row]) = total rows ++ row := by
  rw [total, List.foldl_append]
  rfl

end Dealings

namespace Session

variable {s : Session} {commands : List Command} {rows : List Dealings} {command : Command}
  {row : Dealings} {number : Nat}

/-- **The open accounts of a pool**: of the loans that somebody holds and of the pages that
are parked. -/
def openAccounts (s : Session) (number : Nat) : Multiset Account :=
  s.store.openAccounts s.holdings number

/-- **A ledger of a run**: a row for each command. -/
inductive Ledger : List Command → List Dealings → Prop where
  | nil : Ledger [] []
  | concat {commands : List Command} {rows : List Dealings} {command : Command} {row : Dealings}
    (h : Ledger commands rows) (hrow : (({} : Session).play commands).2.Enters command row) :
    Ledger (commands ++ [command]) (rows ++ [row])

/-- Every run has a ledger. -/
theorem exists_ledger (commands : List Command) : ∃ rows, Ledger commands rows := by
  induction commands using List.reverseRecOn with
  | nil => exact ⟨[], .nil⟩
  | append_singleton commands command ih =>
    obtain ⟨rows, hrows⟩ := ih
    obtain ⟨row, hrow⟩ := (sound_play commands).exists_enters command
    exact ⟨rows ++ [row], hrows.concat hrow⟩

/-- **A ledger tallies** from the very first command on. -/
theorem Ledger.tallies (h : Ledger commands rows) :
    ({} : Store).Tallies 0 (.total rows) (({} : Session).play commands).2.store
      (({} : Session).play commands).2.holdings := by
  induction h with
  | nil => exact (Store.Balances.refl {} 0).toTallies
  | concat h hrow ih =>
    rw [play_concat, Dealings.total_concat]
    exact ih.trans hrow.tallies

/-- **The reports are on lost loans**, on some of them or on all. -/
theorem Ledger.reported (h : Ledger commands rows) :
    ∃ reported : List Account, reported.Sublist (Dealings.total rows).lost ∧
      (({} : Session).play commands).2.store.reported =
        (reported.map Account.figures).reverse := by
  induction h with
  | nil => exact ⟨[], .slnil, rfl⟩
  | @concat commands rows command row h hrow ih =>
    obtain ⟨reported, hsublist, heq⟩ := ih
    rw [play_concat, Dealings.total_concat, hrow.reported, heq]
    by_cases htracking : (({} : Session).play commands).2.store.tracking = true
    · refine ⟨reported ++ row.lost, hsublist.append (.refl _), ?_⟩
      rw [if_pos htracking, List.map_append, List.reverse_append]
    · refine ⟨reported, hsublist.trans (List.sublist_append_left _ _), ?_⟩
      rw [if_neg htracking, List.nil_append]

/-- **The loans of a pool** are open or have ended. -/
theorem Ledger.lent_eq (h : Ledger commands rows) (number : Nat) :
    (↑(accountsOf number (Dealings.total rows).lent) : Multiset Account) =
      (({} : Session).play commands).2.openAccounts number +
        (↑(accountsOf number (Dealings.total rows).returned) +
          ↑(accountsOf number (Dealings.total rows).lost)) := by
  have hbalance := h.tallies.balance number
  have hnothing : ({} : Store).openAccounts 0 number = 0 := rfl
  rwa [hnothing, zero_add] at hbalance

/-- **They are numbered.** -/
theorem Ledger.generations (h : Ledger commands rows) (number : Nat) :
    (accountsOf number (Dealings.total rows).lent).map Account.generation =
      List.range' 1 ((({} : Session).play commands).2.store.pool number).borrowed := by
  obtain ⟨deals, hdeals⟩ := exists_chronicle commands number
  have hgeneration := h.tallies.generation number
  have hzero : (({} : Store).pool number).generation = 0 := rfl
  rw [hzero, Nat.zero_add] at hgeneration
  rw [h.tallies.numbered, ← hgeneration, hdeals.conserves.generation, hzero]

/-- So no two of them have the same account. -/
theorem Ledger.nodup (h : Ledger commands rows) (number : Nat) :
    (accountsOf number (Dealings.total rows).lent).Nodup := by
  refine List.Nodup.of_map Account.generation ?_
  rw [h.generations]
  exact List.nodup_range'

/-! ## One place for each loan -/

/-- Entries on a loan are entries on a loan of its pool. -/
theorem count_accountsOf (account : Account) (row : List Account) :
    (accountsOf account.home row).count account = row.count account :=
  List.count_filter (decide_eq_true rfl)

/-- **Each loan is in one place**: open, given back or lost. -/
theorem Ledger.count_eq_one (h : Ledger commands rows) {account : Account}
    (hlent : account ∈ (Dealings.total rows).lent) :
    ((({} : Session).play commands).2.openAccounts account.home).count account +
      ((Dealings.total rows).returned.count account + (Dealings.total rows).lost.count account)
      = 1 := by
  have hone : (accountsOf account.home (Dealings.total rows).lent).count account = 1 :=
    List.count_eq_one_of_mem (h.nodup account.home)
      (List.mem_filter.mpr ⟨hlent, decide_eq_true rfl⟩)
  rw [← Multiset.coe_count, h.lent_eq, Multiset.count_add, Multiset.count_add, Multiset.coe_count,
    Multiset.coe_count, count_accountsOf, count_accountsOf] at hone
  exact hone

/-- Nothing is in these places but loans that were made. -/
theorem Ledger.mem_lent (h : Ledger commands rows) {account : Account}
    (hplace : account ∈ (({} : Session).play commands).2.openAccounts number ∨
      account ∈ (Dealings.total rows).returned ∨ account ∈ (Dealings.total rows).lost) :
    account ∈ (Dealings.total rows).lent := by
  have hmem {other : Nat} (hin : account ∈ (({} : Session).play commands).2.openAccounts other +
        (↑(accountsOf other (Dealings.total rows).returned) +
          ↑(accountsOf other (Dealings.total rows).lost))) :
      account ∈ (Dealings.total rows).lent := by
    rw [← h.lent_eq] at hin
    exact List.mem_of_mem_filter hin
  have hown {row : List Account} (hrow : account ∈ row) : account ∈ accountsOf account.home row :=
    List.mem_filter.mpr ⟨hrow, decide_eq_true rfl⟩
  rcases hplace with hopen | hreturned | hlost
  · exact hmem (Multiset.mem_add.mpr (.inl hopen))
  · exact hmem (Multiset.mem_add.mpr (.inr (Multiset.mem_add.mpr (.inl (hown hreturned)))))
  · exact hmem (Multiset.mem_add.mpr (.inr (Multiset.mem_add.mpr (.inr (hown hlost)))))

/-- **A loan is lost by a command** if it was open, or was made by it, and then is neither open
nor given back by it. -/
theorem Ledger.mem_lost_iff (h : Ledger commands rows)
    (hrow : (({} : Session).play commands).2.Enters command row) (account : Account) :
    account ∈ row.lost ↔
      (account ∈ (({} : Session).play commands).2.openAccounts account.home ∨
        account ∈ row.lent) ∧
      account ∉ ((({} : Session).play commands).2.step command).2.openAccounts account.home ∧
      account ∉ row.returned := by
  have hnodup := (h.concat hrow).nodup account.home
  have hlent := congrArg (Multiset.count account) (h.lent_eq account.home)
  have hbalance := congrArg (Multiset.count account) (hrow.tallies.balance account.home)
  have hmost := List.nodup_iff_count_le_one.mp hnodup account
  rw [Dealings.total_concat, Dealings.lent_append, accountsOf_append, List.count_append,
    ← Multiset.coe_count, hlent] at hmost
  simp only [Multiset.count_add, Multiset.coe_count, count_accountsOf] at hbalance hmost
  rw [← List.count_pos_iff, ← List.count_pos_iff, ← List.count_pos_iff, ← Multiset.count_pos,
    ← Multiset.count_pos]
  unfold openAccounts at hmost ⊢
  omega

/-! ## Pools that nobody holds anything of -/

/-- **Nobody holds anything of a pool** any more, no memory and no ticket. -/
structure Deserted (s : Session) (number : Nat) : Prop where
  loans : ∀ lease, .pooled lease ∈ s.holdings → lease.home ≠ number
  tickets : ∀ slot generation, .page number slot generation ∉ s.tickets.values

/-- **A pool nobody holds a ticket of** has no pages that are parked. -/
theorem Deserted.parked_eq_none (h : (({} : Session).play commands).2.Deserted number)
    (slot : Nat) :
    (((({} : Session).play commands).2.store.pool number).slotAt slot).parked = none :=
  parked_eq_none_of_no_ticket (h.tickets slot)

/-- None of its loans is open. -/
theorem Deserted.openAccounts_eq (h : (({} : Session).play commands).2.Deserted number) :
    (({} : Session).play commands).2.openAccounts number = 0 := by
  refine Multiset.eq_zero_of_forall_notMem fun account hopen => ?_
  rcases Multiset.mem_add.mp hopen with hheld | hparked
  · obtain ⟨lease, hlease, hhome, -⟩ := mem_heldAccounts.mp hheld
    exact h.loans lease hlease hhome
  · obtain ⟨slot, hslot⟩ := Pool.mem_parkedAccounts.mp hparked
    rw [Slot.account?, h.parked_eq_none slot] at hslot
    cases hslot

/-- None of its pages is lent. -/
theorem Deserted.lent_eq (h : (({} : Session).play commands).2.Deserted number)
    (c : SizeClass) : (({} : Session).play commands).2.lent number c = 0 := by
  have hheld : (({} : Session).play commands).2.holdings.countP
      (fun loan => loan.isOf number c) = 0 := by
    refine Multiset.countP_eq_zero.mpr fun loan hloan hof => ?_
    cases loan with
    | unpooled block => cases hof
    | pooled lease => exact h.loans lease hloan (of_decide_eq_true hof).1
  have hparked : ((({} : Session).play commands).2.store.pool number).parkedCount c = 0 := by
    refine Finset.card_eq_zero.mpr (Finset.filter_eq_empty_iff.mpr fun slot _ hclass => ?_)
    rw [h.parked_eq_none slot] at hclass
    cases hclass
  rw [lent, hheld, hparked]

/-- **Its lost loans** are those that were never given back. -/
theorem Ledger.length_lost (h : Ledger commands rows)
    (hdeserted : (({} : Session).play commands).2.Deserted number) :
    (accountsOf number (Dealings.total rows).lost).length =
      ((accountsOf number (Dealings.total rows).lent).filter
        (· ∉ (Dealings.total rows).returned)).length := by
  have hperm : (accountsOf number (Dealings.total rows).lent).Perm
      (accountsOf number (Dealings.total rows).returned ++
        accountsOf number (Dealings.total rows).lost) := by
    rw [← Multiset.coe_eq_coe, h.lent_eq, hdeserted.openAccounts_eq, zero_add, Multiset.coe_add]
  have hdisjoint := List.disjoint_of_nodup_append (hperm.nodup_iff.mp (h.nodup number))
  have hreturned : (accountsOf number (Dealings.total rows).returned).filter
      (· ∉ (Dealings.total rows).returned) = [] :=
    List.filter_eq_nil_iff.mpr fun account haccount hnot =>
      of_decide_eq_true hnot (List.mem_of_mem_filter haccount)
  have hlost : (accountsOf number (Dealings.total rows).lost).filter
      (· ∉ (Dealings.total rows).returned) = accountsOf number (Dealings.total rows).lost := by
    refine List.filter_eq_self.mpr fun account haccount => decide_eq_true fun hback => ?_
    exact hdisjoint (List.mem_filter.mpr ⟨hback, (List.mem_filter.mp haccount).2⟩) haccount
  rw [(hperm.filter _).length_eq, List.filter_append, hreturned, hlost, List.nil_append]

/-! ## The sessions that can be reached -/

/-- **The loans of a run end once**, by its books. -/
structure EndsOnce (s : Session) (book : Dealings) : Prop where
  /-- The loans of a pool are those with the generations one, two and so on. -/
  numbered : ∀ number, (accountsOf number book.lent).map Account.generation =
    List.range' 1 (s.store.pool number).borrowed
  /-- Each is a page of the class that serves the length that was asked for. -/
  served : ∀ account ∈ book.lent, ∃ c, SizeClass.ofLength? account.len = some c ∧
    account.capacity = c.capacity
  /-- Each is open, or was given back and never lost, or was lost and never given back. -/
  once : ∀ account ∈ book.lent, (s.openAccounts account.home).count account +
    (book.returned.count account + book.lost.count account) = 1
  /-- And nothing else is open, was given back or was lost. -/
  mem_lent : ∀ number account, account ∈ s.openAccounts number ∨ account ∈ book.returned ∨
    account ∈ book.lost → account ∈ book.lent
  /-- The warnings are on the lost loans, one on each. -/
  warned : s.store.warned = (book.lost.map Account.figures).reverse
  /-- The reports that were received are on lost loans, at most one on each. -/
  reported : ∃ reported : List Account, reported.Sublist book.lost ∧
    s.store.reported = (reported.map Account.figures).reverse
  /-- A pool counts its lost loans. -/
  leaked : ∀ number, (s.store.pool number).leaked = (accountsOf number book.lost).length

/-- **A pool has everything back**, and the loans it counts as lost are those that were never
given back. -/
structure Restored (p : Pool) (number : Nat) (book : Dealings) : Prop where
  outstanding : p.outstanding = 0
  available : ∀ c, (p.shelf c).created = (p.shelf c).free.length
  leaked : p.leaked = ((accountsOf number book.lent).filter (· ∉ book.returned)).length

/-- **Every loan ends once.** Any run of commands has a ledger. Its rows say of each command
which loans it makes, which it gives back, and which are lost by it; these are the ones that
were open or just made, and then are neither open nor given back. All in all each loan of a
pool is open, given back once or lost once, and no two of these. The warnings are on the lost
loans, one on each with its generation, the size of its page and the length that was asked
for, and nothing but a lost loan is worth a warning; the reports are on some of them, and a
pool counts its own. As soon as nobody holds anything of a pool, it has everything back, and
the loans that it counts as lost are those that were never given back. -/
theorem every_loan_ends_once (commands : List Command) :
    let s := (({} : Session).play commands).2
    ∃ rows, Ledger commands rows ∧ s.EndsOnce (.total rows) ∧
      (∀ command row, s.Enters command row → ∀ account, account ∈ row.lost ↔
        (account ∈ s.openAccounts account.home ∨ account ∈ row.lent) ∧
          account ∉ (s.step command).2.openAccounts account.home ∧ account ∉ row.returned) ∧
      (∀ event : Event, event.severity = .warning ↔ event.report?.isSome) ∧
      ∀ number, s.Deserted number → Restored (s.store.pool number) number (.total rows) := by
  intro s
  obtain ⟨rows, hrows⟩ := exists_ledger commands
  have hleaked (number : Nat) : (s.store.pool number).leaked =
      (accountsOf number (Dealings.total rows).lost).length :=
    (hrows.tallies.leaked number).trans (Nat.zero_add _)
  refine ⟨rows, hrows, ⟨hrows.generations, hrows.tallies.served, fun account => hrows.count_eq_one,
    fun number account => hrows.mem_lent, ?_, hrows.reported, hleaked⟩,
    fun command row hrow => hrows.mem_lost_iff hrow, Event.severity_eq_warning_iff,
    fun number hdeserted => ?_⟩
  · exact hrows.tallies.warned.trans (List.append_nil _)
  · obtain ⟨deals, hdeals⟩ := exists_chronicle commands number
    refine ⟨?_, fun c => ?_, ?_⟩
    · rw [hdeals.conserves.outstanding]
      exact Finset.sum_eq_zero fun c _ => hdeserted.lent_eq c
    · rw [hdeals.conserves.created, hdeserted.lent_eq, Nat.add_zero]
    · rw [hleaked, hrows.length_lost hdeserted]

/-- One loan is detached, and its ticket is handed in twice; another one is dropped. -/
theorem every_loan_ends_once_copied :
    let commands : List Command := [.pool (.make "pool"), .pool (.borrow "pool" 16 false "one"),
      .pool (.borrow "pool" 2000 false "other"), .loan (.detach "one" "ticket"),
      .ticket (.clone "ticket" "copy"), .ticket (.redeem "ticket"), .ticket (.redeem "copy"),
      .loan (.drop "other")]
    let s := (({} : Session).play commands).2
    s.Deserted 0 ∧ s.store.warned = [(2, 2048, 2000)] ∧ ∃ rows, Ledger commands rows ∧
      s.EndsOnce (.total rows) ∧ Restored (s.store.pool 0) 0 (.total rows) := by
  intro commands s
  have hholdings : s.holdings = 0 := by rfl
  have htickets : s.tickets.values = [] := by rfl
  have hdeserted : s.Deserted 0 := by
    refine ⟨fun lease hlease => ?_, fun slot generation hticket => ?_⟩
    · rw [hholdings] at hlease
      exact absurd hlease (Multiset.notMem_zero _)
    · rw [htickets] at hticket
      cases hticket
  obtain ⟨rows, hrows, hends, -, -, hrestored⟩ := every_loan_ends_once commands
  exact ⟨hdeserted, by rfl, rows, hrows, hends, hrestored 0 hdeserted⟩

end Session

end Wirepool
