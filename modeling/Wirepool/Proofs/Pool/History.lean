import Mathlib.Data.List.Infix
import Mathlib.Order.Bounds.Basic
import Wirepool.Proofs.Pool.Census
import Wirepool.Proofs.Pool.Sound

/-!
# The history of a pool

A pool changes by transactions, one after another. Of each it is enough to know
which *deal* it makes: a page of a class is lent under a generation, or a page of a
class comes back, or neither. All figures of a pool follow from its deals. Counters
count them; a page that is lent is taken from the shelf or, if there is none, made,
so a class has as many pages as were ever lent at once.

The history passes moments that nobody sees from outside, because one command may
carry out several transactions.
-/

namespace Wirepool

/-- **What a transaction does to the pages of a pool.** -/
inductive Deal where
  /-- A page of a class is lent under a generation. -/
  | lend (c : SizeClass) (generation : Nat)
  /-- A page of a class comes back; `lost` is whether its loan was lost. -/
  | regain (c : SizeClass) (lost : Bool)
  /-- No page is lent, and none comes back. -/
  | pass
  deriving DecidableEq

namespace Deal

/-- Whether a page is lent. -/
def isLend : Deal → Bool
  | lend _ _ => true
  | _ => false

/-- Whether a page comes back. -/
def isRegain : Deal → Bool
  | regain _ _ => true
  | _ => false

/-- Whether a loan is lost. -/
def isLoss : Deal → Bool
  | regain _ lost => lost
  | _ => false

/-- Whether a page of a class is lent. -/
def lends (c : SizeClass) : Deal → Bool
  | lend d _ => d = c
  | _ => false

/-- Whether a page of a class comes back. -/
def regains (c : SizeClass) : Deal → Bool
  | regain d _ => d = c
  | _ => false

/-- The generation of the loan, if a page is lent. -/
def generation? : Deal → Option Nat
  | lend _ generation => some generation
  | _ => none

/-- No page is lent and comes back by one deal. -/
theorem regains_of_lends {c : SizeClass} {deal : Deal} (h : deal.lends c = true) :
    deal.regains c = false := by
  cases deal with
  | lend d generation => rfl
  | regain d lost => cases h
  | pass => rfl

end Deal

namespace Pool

/-- **A transaction on a pool**, as the store carries it out, with the deal it makes.
A ticket that is refused goes as if it had been thrown away. -/
inductive Turn (p : Pool) : Deal → Pool → Prop
  | borrow {home len : Nat} {zero traced : Bool} {c : SizeClass} {q : Pool}
      {events : List Event} {lease : Lease} (hclass : SizeClass.ofLength? len = some c)
      (h : p.borrow home len zero traced = ⟨q, events, .ok (.pooled lease)⟩) :
      Turn p (.lend c lease.generation) q
  | bypass {home len : Nat} {zero traced : Bool} {q : Pool} {events : List Event}
      {result : Except Abort Loan} (hclass : SizeClass.ofLength? len = none)
      (h : p.borrow home len zero traced = ⟨q, events, result⟩) : Turn p .pass q
  | reclaim {lease : Lease} {q : Pool} {events : List Event}
      (h : p.reclaim lease = ⟨q, events, .ok ()⟩) : Turn p (.regain lease.page.sizeClass false) q
  | lose {lease : Lease} {q : Pool} {events : List Event}
      (h : p.lose lease = ⟨q, events, .ok ()⟩) : Turn p (.regain lease.page.sizeClass true) q
  | park (lease : Lease) : Turn p .pass (p.park lease)
  | copyTicket (slot : Nat) : Turn p .pass (p.copyTicket slot)
  | discardTicket {slot : Nat} {q : Pool} (h : p.discardTicket slot = ⟨q, [], .ok ()⟩) :
      Turn p .pass q
  | discardLast {slot : Nat} {parked : Parked} {q : Pool} {report : LeakReport}
      (hparked : (p.slotAt slot).parked = some parked)
      (h : p.discardTicket slot = ⟨q, [.leaked report], .ok ()⟩) :
      Turn p (.regain parked.page.sizeClass true) q
  | redeem {slot generation : Nat} {parked : Parked} {q : Pool} {events : List Event}
      (hparked : (p.slotAt slot).parked = some parked)
      (h : p.redeem slot generation = ⟨q, events, .ok ()⟩) :
      Turn p (.regain parked.page.sizeClass false) q

/-- **What a deal does to the figures of a pool.** -/
structure Books (p : Pool) (deal : Deal) (q : Pool) : Prop where
  borrowed : q.borrowed = p.borrowed + [deal].countP Deal.isLend
  released : q.released = p.released + [deal].countP Deal.isRegain
  leaked : q.leaked = p.leaked + [deal].countP Deal.isLoss
  generation : q.generation = p.generation + [deal].countP Deal.isLend
  /-- A loan gets the next generation. -/
  next : ∀ generation ∈ deal.generation?, generation = q.generation
  /-- A page is made if one is lent and none is on the shelf. -/
  created : ∀ c, (q.shelf c).created = (p.shelf c).created +
    if deal.lends c ∧ (p.shelf c).free = [] then 1 else 0
  /-- Otherwise it is taken from the shelf. -/
  available : ∀ c, (q.shelf c).free.length +
      (if deal.lends c ∧ (p.shelf c).free ≠ [] then 1 else 0) =
    (p.shelf c).free.length + [deal].countP (Deal.regains c)

section Books

variable {p q : Pool}

/-- Where no page is lent and none comes back, all figures are as before. -/
theorem books_pass (hshelves : q.shelves = p.shelves) (hborrowed : q.borrowed = p.borrowed)
    (hreleased : q.released = p.released) (hleaked : q.leaked = p.leaked)
    (hgeneration : q.generation = p.generation) : p.Books .pass q := by
  have hshelf (c : SizeClass) : q.shelf c = p.shelf c := by rw [shelf, hshelves, shelf]
  refine ⟨hborrowed, hreleased, hleaked, hgeneration,
    fun _ h => absurd h (Option.not_mem_none _), fun c => ?_, fun c => ?_⟩
  · rw [hshelf]
    rfl
  · rw [hshelf]
    rfl

/-- A page that comes back is put on the shelf of its class. -/
theorem books_regain {page : Page} {slot : Nat} {lost : Bool}
    (hshelves : q.shelves = (p.shelve page slot).shelves) (hborrowed : q.borrowed = p.borrowed)
    (hreleased : q.released = p.released + 1) (hleaked : q.leaked = p.leaked + lost.toNat)
    (hgeneration : q.generation = p.generation) :
    p.Books (.regain page.sizeClass lost) q := by
  have hshelf (c : SizeClass) : q.shelf c = (p.shelve page slot).shelf c := by
    rw [shelf, hshelves, shelf]
  refine ⟨hborrowed, hreleased, ?_, hgeneration,
    fun _ h => absurd h (Option.not_mem_none _), fun c => ?_, fun c => ?_⟩
  · rw [hleaked]
    cases lost <;> rfl
  · rw [hshelf, shelf_shelve]
    by_cases hc : c = page.sizeClass
    · rw [if_pos hc, hc]
      rfl
    · rw [if_neg hc]
      rfl
  · rw [hshelf, shelf_shelve]
    by_cases hc : c = page.sizeClass
    · rw [if_pos hc, hc]
      simp [Deal.lends, Deal.regains]
    · rw [if_neg hc]
      simp [Deal.lends, Deal.regains, Ne.symm hc]

/-- A page that is lent is taken from the shelf of its class, or made. -/
theorem books_lend {c : SizeClass} {generation : Nat}
    (hcreated : ∀ d, (q.shelf d).created = (p.shelf d).created +
      if c = d ∧ (p.shelf d).free = [] then 1 else 0)
    (hfree : ∀ d, (q.shelf d).free = if c = d then (p.shelf d).free.tail else (p.shelf d).free)
    (hborrowed : q.borrowed = p.borrowed + 1) (hreleased : q.released = p.released)
    (hleaked : q.leaked = p.leaked) (hgeneration : q.generation = p.generation + 1)
    (hnext : generation = p.generation + 1) : p.Books (.lend c generation) q := by
  refine ⟨hborrowed, hreleased, hleaked, hgeneration, ?_, fun d => ?_, fun d => ?_⟩
  · rintro _ ⟨⟩
    rw [hnext, hgeneration]
  · rw [hcreated]
    simp [Deal.lends]
  · rw [hfree]
    by_cases hd : c = d
    · cases hshelf : (p.shelf d).free <;> simp [Deal.lends, Deal.regains, hd]
    · simp [Deal.lends, Deal.regains, hd]

/-- **What a borrower gets** is lent under the next generation. -/
theorem books_borrow {home len : Nat} {zero traced : Bool} {c : SizeClass} {events : List Event}
    {lease : Lease} (hclass : SizeClass.ofLength? len = some c)
    (h : p.borrow home len zero traced = ⟨q, events, .ok (.pooled lease)⟩) :
    p.Books (.lend c lease.generation) q := by
  have hlend {r : Pool} {shelved : Shelved} {told : List Event}
      (hr : (⟨(r.lend home shelved len zero traced).pool, told ++ (r.lend home shelved len zero
        traced).events, (r.lend home shelved len zero traced).result⟩ : Transaction Loan) =
          ⟨q, events, .ok (.pooled lease)⟩) :
      q = { r.setGeneration shelved.slot (r.generation + 1) with
        generation := r.generation + 1, borrowed := r.borrowed + 1 } ∧
        lease.generation = r.generation + 1 := by
    unfold lend at hr
    dsimp only at hr
    split at hr
    · cases hr
      exact ⟨rfl, rfl⟩
    · cases hr
  rw [borrow, hclass] at h
  cases hfree : (p.shelf c).free with
  | cons top free =>
    simp only [acquire, hfree] at h
    obtain ⟨rfl, hnext⟩ := hlend h
    refine books_lend (fun d => ?_) (fun d => ?_) rfl rfl rfl rfl hnext
    · show ((p.setShelf c _).shelf d).created = _
      rw [shelf_setShelf]
      by_cases hd : d = c
      · subst hd
        simp [hfree]
      · rw [if_neg hd, if_neg fun hne => hd hne.1.symm]
        rfl
    · show ((p.setShelf c _).shelf d).free = _
      rw [shelf_setShelf]
      by_cases hd : d = c
      · subst hd
        rw [if_pos rfl, if_pos rfl, hfree]
        rfl
      · rw [if_neg hd, if_neg (Ne.symm hd)]
  | nil =>
    simp only [acquire, hfree] at h
    obtain ⟨rfl, hnext⟩ := hlend h
    refine books_lend (fun d => ?_) (fun d => ?_) rfl rfl rfl rfl hnext
    · show ((p.addSlot.setShelf c _).shelf d).created = _
      rw [shelf_setShelf]
      by_cases hd : d = c
      · subst hd
        rw [if_pos rfl, if_pos ⟨rfl, hfree⟩]
      · rw [if_neg hd, if_neg fun hne => hd hne.1.symm]
        rfl
    · show ((p.addSlot.setShelf c _).shelf d).free = _
      rw [shelf_setShelf]
      by_cases hd : d = c
      · subst hd
        rw [if_pos rfl, if_pos rfl, hfree]
        rfl
      · rw [if_neg hd, if_neg (Ne.symm hd)]
        rfl

/-- What is given back was lent. -/
theorem books_reclaim {lease : Lease} {events : List Event}
    (h : p.reclaim lease = ⟨q, events, .ok ()⟩) :
    p.Books (.regain lease.page.sizeClass false) q := by
  unfold reclaim at h
  split at h
  · cases h
    exact books_regain rfl rfl rfl rfl rfl
  · cases h

/-- What is lost comes back all the same. -/
theorem books_lose {lease : Lease} {events : List Event}
    (h : p.lose lease = ⟨q, events, .ok ()⟩) :
    p.Books (.regain lease.page.sizeClass true) q := by
  unfold lose reclaim at h
  dsimp only at h
  split at h
  · cases h
    exact books_regain rfl rfl rfl rfl rfl
  · cases h

/-- **A ticket that is thrown away** makes a pool take back what is parked on its
slot, if it was the last one, and then that is told. -/
theorem books_retire {slot : Nat} {events : List Event}
    (h : p.retire slot = ⟨q, events, .ok ()⟩) :
    (events = [] ∧ q = p) ∨ ∃ parked report, (p.slotAt slot).parked = some parked ∧
      events = [.leaked report] ∧ p.Books (.regain parked.page.sizeClass true) q := by
  unfold retire at h
  dsimp only at h
  split at h
  · cases h
    exact .inl ⟨rfl, rfl⟩
  · next parked hparked =>
    split at h
    · cases h
      exact .inl ⟨rfl, rfl⟩
    · cases h
      exact .inr ⟨parked, _, hparked, rfl, books_regain rfl rfl rfl rfl rfl⟩

/-- What is on a slot is no figure of a pool. -/
theorem Books.of_modifySlot {slot : Nat} {f : Slot → Slot} {deal : Deal}
    (h : (p.modifySlot slot f).Books deal q) : p.Books deal q :=
  ⟨h.borrowed, h.released, h.leaked, h.generation, h.next, h.created, h.available⟩

/-- **A ticket that is thrown away** goes, or makes the pool take back what is parked
on its slot, and then that is told. -/
theorem books_discardTicket {slot : Nat} {events : List Event}
    (h : p.discardTicket slot = ⟨q, events, .ok ()⟩) :
    (events = [] ∧ p.Books .pass q) ∨ ∃ parked report, (p.slotAt slot).parked = some parked ∧
      events = [.leaked report] ∧ p.Books (.regain parked.page.sizeClass true) q := by
  have hcounted : p.Books .pass (p.countOut slot) := books_pass rfl rfl rfl rfl rfl
  have hkeeps : ((p.countOut slot).slotAt slot).parked = (p.slotAt slot).parked :=
    (p.keepsSlot_modifySlot slot (f := fun s => { s with tickets := s.tickets - 1 })
      (fun _ => rfl) (fun _ => rfl) slot).1
  change (if ((p.countOut slot).slotAt slot).tickets = 0 then (p.countOut slot).retire slot
    else ⟨p.countOut slot, [], .ok ()⟩) = _ at h
  split at h
  · rcases books_retire h with ⟨rfl, rfl⟩ | ⟨parked, report, hparked, rfl, hbooks⟩
    · exact .inl ⟨rfl, hcounted⟩
    · exact .inr ⟨parked, report, hkeeps.symm.trans hparked, rfl, hbooks.of_modifySlot⟩
  · cases h
    exact .inl ⟨rfl, hcounted⟩

/-- A ticket that is honoured brings back what is parked on its slot. -/
theorem books_redeem {slot generation : Nat} {parked : Parked} {events : List Event}
    (hparked : (p.slotAt slot).parked = some parked)
    (h : p.redeem slot generation = ⟨q, events, .ok ()⟩) :
    p.Books (.regain parked.page.sizeClass false) q := by
  have hlt : slot < p.slots.length := by
    by_contra hge
    rw [slotAt_of_le p (Nat.le_of_not_lt hge)] at hparked
    cases hparked
  have hlt' : slot < (p.setGeneration slot 0).slots.length := by
    rw [setGeneration, length_slots_modifySlot]
    exact hlt
  let freed := ((p.setGeneration slot 0).modifySlot slot
    fun s => { s with parked := none }).shelve parked.page slot
  have hfreed : (freed.slotAt slot).parked = none :=
    congrArg Slot.parked (slotAt_modifySlot_self _ hlt' _)
  unfold redeem unpark at h
  split at h
  · simp only [hparked] at h
    rw [Sound.discardTicket_of_none hfreed] at h
    cases h
    exact books_regain rfl rfl rfl rfl rfl
  · cases h

/-- **Every transaction** does to the figures of a pool what its deal does. -/
theorem Turn.books {deal : Deal} (h : p.Turn deal q) : p.Books deal q := by
  cases h with
  | borrow hclass h => exact books_borrow hclass h
  | bypass hclass h =>
    rw [borrow_of_none p hclass] at h
    cases h
    exact books_pass rfl rfl rfl rfl rfl
  | reclaim h => exact books_reclaim h
  | lose h => exact books_lose h
  | park lease => exact books_pass rfl rfl rfl rfl rfl
  | copyTicket slot => exact books_pass rfl rfl rfl rfl rfl
  | discardTicket h =>
    rcases books_discardTicket h with ⟨-, hbooks⟩ | ⟨_, _, -, htold, -⟩
    · exact hbooks
    · cases htold
  | discardLast hparked h =>
    rcases books_discardTicket h with ⟨htold, -⟩ | ⟨other, _, hother, -, hbooks⟩
    · cases htold
    · cases hparked.symm.trans hother
      exact hbooks
  | redeem hparked h => exact books_redeem hparked h

/-- Whatever comes of throwing a ticket away is a transaction. -/
theorem exists_turn_discardTicket {slot : Nat} {events : List Event}
    (h : p.discardTicket slot = ⟨q, events, .ok ()⟩) : ∃ deal, p.Turn deal q := by
  rcases books_discardTicket h with ⟨rfl, -⟩ | ⟨parked, report, hparked, rfl, -⟩
  · exact ⟨_, .discardTicket h⟩
  · exact ⟨_, .discardLast hparked h⟩

/-- So is whatever comes of handing one in. -/
theorem Sound.exists_turn_redeem {deeds : Multiset Deed} {stubs : Multiset Stub} {stub : Stub}
    (hp : p.Sound deeds (stub ::ₘ stubs)) {events : List Event} {result : Except Abort Unit}
    (h : p.redeem stub.slot stub.generation = ⟨q, events, result⟩) : ∃ deal, p.Turn deal q := by
  by_cases hgood : (p.slotAt stub.slot).generation = stub.generation
  · obtain ⟨parked, taken, hparked, hredeem, -⟩ :=
      hp.redeem_of_eq (Multiset.mem_cons_self _ _) hgood
    cases hredeem.symm.trans h
    exact ⟨_, .redeem hparked hredeem⟩
  · obtain ⟨left, told, hdiscard, -, -⟩ := hp.discardTicket
    rw [redeem_of_ne hgood, hdiscard] at h
    cases h
    exact exists_turn_discardTicket hdiscard

end Books

/-! ## A row of transactions -/

/-- **A history**: transactions in turn, each of which leaves every page in one
place. -/
inductive Turns (p : Pool) : List Deal → Pool → Prop
  | nil : Turns p [] p
  | concat {row : List Deal} {q r : Pool} {deal : Deal} (h : Turns p row q)
      (hturn : q.Turn deal r) (hplaced : ∃ deeds, r.Placed deeds) : Turns p (row ++ [deal]) r

/-- One history after another. -/
theorem Turns.append {p q r : Pool} {row later : List Deal} (h : p.Turns row q)
    (h' : q.Turns later r) : p.Turns (row ++ later) r := by
  induction h' with
  | nil => rwa [List.append_nil]
  | concat _ hturn hplaced ih =>
    rw [← List.append_assoc]
    exact .concat ih hturn hplaced

/-- **A pool comes to be another one** by some history. -/
def Trail (p q : Pool) : Prop := ∃ row, p.Turns row q

theorem Trail.refl (p : Pool) : p.Trail p := ⟨[], .nil⟩

theorem Trail.trans {p q r : Pool} (h : p.Trail q) (h' : q.Trail r) : p.Trail r := by
  obtain ⟨row, hrow⟩ := h
  obtain ⟨later, hlater⟩ := h'
  exact ⟨row ++ later, hrow.append hlater⟩

/-- One transaction is a history. -/
theorem Turn.trail {p q : Pool} {deal : Deal} (h : p.Turn deal q) {deeds : Multiset Deed}
    (hplaced : q.Placed deeds) : p.Trail q :=
  ⟨[] ++ [deal], .concat .nil h ⟨deeds, hplaced⟩⟩

/-- **So many pages of a class are lent** after deals in turn: all that were lent but
those that came back. -/
def Leaves (c : SizeClass) (row : List Deal) (count : Nat) : Prop :=
  count + row.countP (Deal.regains c) = row.countP (Deal.lends c)

/-- Nothing is on the shelves of a fresh pool. -/
theorem shelf_empty (c : SizeClass) : ({} : Pool).shelf c = {} := by
  show (Vector.replicate classCount ({} : Shelf))[c.val] = {}
  rw [Vector.getElem_replicate]

namespace Turns

variable {row before : List Deal} {p : Pool}

/-- At any time every page is in one place. -/
theorem exists_placed (h : ({} : Pool).Turns row p) : ∃ deeds, p.Placed deeds := by
  cases h with
  | nil => exact ⟨0, placed_empty⟩
  | concat _ _ hplaced => exact hplaced

/-- **What came before** is a history, and no class had more pages then. -/
theorem exists_before (h : ({} : Pool).Turns row p) (hbefore : before <+: row) :
    ∃ q, ({} : Pool).Turns before q ∧ ∀ c, (q.shelf c).created ≤ (p.shelf c).created := by
  induction h with
  | nil =>
    rw [List.prefix_nil.mp hbefore]
    exact ⟨_, .nil, fun _ => Nat.le_refl _⟩
  | concat h hturn hplaced ih =>
    rcases List.prefix_concat_iff.mp hbefore with rfl | hbefore
    · exact ⟨_, .concat h hturn hplaced, fun _ => Nat.le_refl _⟩
    · obtain ⟨q, hq, hle⟩ := ih hbefore
      refine ⟨q, hq, fun c => Nat.le_trans (hle c) ?_⟩
      rw [hturn.books.created]
      exact Nat.le_add_right _ _

/-- **The counters of a pool** count its deals. -/
theorem counters (h : ({} : Pool).Turns row p) :
    p.borrowed = row.countP Deal.isLend ∧ p.released = row.countP Deal.isRegain ∧
      p.leaked = row.countP Deal.isLoss ∧ p.generation = row.countP Deal.isLend := by
  induction h with
  | nil => exact ⟨rfl, rfl, rfl, rfl⟩
  | concat _ hturn _ ih =>
    obtain ⟨hborrowed, hreleased, hleaked, hgeneration⟩ := ih
    have hbooks := hturn.books
    refine ⟨?_, ?_, ?_, ?_⟩
    · rw [hbooks.borrowed, hborrowed, List.countP_append]
    · rw [hbooks.released, hreleased, List.countP_append]
    · rw [hbooks.leaked, hleaked, List.countP_append]
    · rw [hbooks.generation, hgeneration, List.countP_append]

/-- **The loans of a pool are numbered** from one on. -/
theorem generations (h : ({} : Pool).Turns row p) :
    row.filterMap Deal.generation? = List.range' 1 p.generation := by
  induction h with
  | nil => rfl
  | @concat row q r deal h hturn _ ih =>
    have hgeneration := hturn.books.generation
    rw [List.filterMap_append, ih]
    cases deal with
    | lend c generation =>
      have hnext : generation = r.generation := hturn.books.next generation rfl
      rw [hgeneration] at hnext ⊢
      show _ ++ [generation] = List.range' 1 (q.generation + 1)
      rw [List.range'_1_concat, hnext, Nat.add_comm 1]
      rfl
    | regain c lost =>
      rw [hgeneration]
      exact List.append_nil _
    | pass =>
      rw [hgeneration]
      exact List.append_nil _

/-- **The pages of a class that were made** are those on its shelf and those that are
lent. -/
theorem balance (h : ({} : Pool).Turns row p) (c : SizeClass) :
    (p.shelf c).created + row.countP (Deal.regains c) =
      (p.shelf c).free.length + row.countP (Deal.lends c) := by
  induction h with
  | nil => rw [shelf_empty]; rfl
  | @concat row q r deal h hturn _ ih =>
    have hcreated := hturn.books.created c
    have havailable := hturn.books.available c
    rw [List.countP_append, List.countP_append]
    rw [List.countP_singleton] at havailable ⊢
    rw [List.countP_singleton]
    by_cases hlends : deal.lends c = true
    · have hregains := Deal.regains_of_lends hlends
      by_cases hfree : (q.shelf c).free = []
      · simp only [hlends, hregains, hfree, ne_eq, not_true_eq_false, and_true, and_false, if_true,
          if_false, List.length_nil, Bool.false_eq_true] at hcreated havailable ih ⊢
        omega
      · simp only [hlends, hregains, hfree, ne_eq, not_false_eq_true, and_true, and_false, if_true,
          if_false, Bool.false_eq_true] at hcreated havailable ⊢
        omega
    · simp only [hlends, false_and, if_false, Bool.false_eq_true] at hcreated havailable ⊢
      omega

/-- So many pages are lent as are made and not on the shelf. -/
theorem leaves_iff (h : ({} : Pool).Turns row p) {c : SizeClass} {count : Nat} :
    Leaves c row count ↔ (p.shelf c).created = (p.shelf c).free.length + count := by
  have hbalance := h.balance c
  unfold Leaves
  omega

/-- **As many are lent as the deeds say** that every page is in one place for. -/
theorem leaves_lentCount (h : ({} : Pool).Turns row p) {deeds : Multiset Deed}
    (hplaced : p.Placed deeds) (c : SizeClass) : Leaves c row (p.lentCount deeds c) :=
  h.leaves_iff.mpr (hplaced.created_eq c)

/-- **A class has as many pages as were ever lent at once.** -/
theorem isGreatest_created (h : ({} : Pool).Turns row p) (c : SizeClass) :
    IsGreatest { count | ∃ before, before <+: row ∧ Leaves c before count }
      (p.shelf c).created := by
  refine ⟨?_, ?_⟩
  · induction h with
    | nil =>
      rw [shelf_empty]
      exact ⟨[], List.nil_prefix, rfl⟩
    | @concat row q r deal h hturn hplaced ih =>
      have hcreated := hturn.books.created c
      by_cases hgrows : deal.lends c ∧ (q.shelf c).free = []
      · -- no page was on the shelf, so all of them are lent now
        refine ⟨row ++ [deal], List.prefix_rfl, ?_⟩
        have havailable := hturn.books.available c
        rw [List.countP_singleton, Deal.regains_of_lends hgrows.1,
          if_neg fun hmore => hmore.2 hgrows.2, hgrows.2] at havailable
        have hnone : (r.shelf c).free.length = 0 := havailable
        refine (concat h hturn hplaced).leaves_iff.mpr ?_
        rw [hnone, Nat.zero_add]
      · rw [if_neg hgrows] at hcreated
        obtain ⟨before, hbefore, hleaves⟩ := ih
        exact ⟨before, hbefore.trans (List.prefix_append row [deal]), hcreated.symm ▸ hleaves⟩
  · rintro count ⟨before, hbefore, hleaves⟩
    obtain ⟨q, hq, hle⟩ := h.exists_before hbefore
    have hcount := hq.leaves_iff.mp hleaves
    exact Nat.le_trans (by omega) (hle c)

end Turns

end Pool

namespace Deal

/-- Each page that is lent is of one class. -/
theorem sum_countP_lends (row : List Deal) :
    ∑ c, row.countP (lends c) = row.countP isLend := by
  induction row with
  | nil => rfl
  | cons deal row ih =>
    simp only [List.countP_cons, Finset.sum_add_distrib, ih]
    cases deal <;> simp [lends, isLend]

/-- So is each page that comes back. -/
theorem sum_countP_regains (row : List Deal) :
    ∑ c, row.countP (regains c) = row.countP isRegain := by
  induction row with
  | nil => rfl
  | cons deal row ih =>
    simp only [List.countP_cons, Finset.sum_add_distrib, ih]
    cases deal <;> simp [regains, isRegain]

/-- A loan that is lost comes back. -/
theorem countP_isLoss_le (row : List Deal) : row.countP isLoss ≤ row.countP isRegain :=
  List.countP_mono_left fun deal _ h => by
    cases deal with
    | regain c lost => rfl
    | lend c generation => exact h
    | pass => exact h

end Deal

end Wirepool
