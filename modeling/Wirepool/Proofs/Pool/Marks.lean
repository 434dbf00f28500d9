import Wirepool.Proofs.Pool.Accounts

/-!
# Where loans were made

Of a loan it may be known where it was made. This *mark* is set when the loan is made, it goes
with the loan wherever that goes, and in the end a report shows it. Nothing that a pool does
depends on it.

So a pool is compared with one that is the same but for the marks, which are given from
outside: a mark for every generation. Each transaction does the same to both pools and tells
the same, and the marks of the second pool are still those that were given.

Two transactions do this in good order only. A slot may be lent on only if no page is parked
there, because the new generation would ask for another mark of that page; and a page must be
parked under the generation of its loan.
-/

namespace Wirepool

/-- **Marks for loans**, by the number of the pool and the generation: whether it is known
where a loan was made. -/
abbrev Marks := Nat → Nat → Bool

/-- The loan of a page with the mark for its generation. -/
def Lease.marked (mark : Nat → Bool) (lease : Lease) : Lease :=
  { lease with traced := mark lease.generation }

/-- **A loan with the mark that is given for it.** -/
def Loan.marked (marks : Marks) : Loan → Loan
  | unpooled block => .unpooled block
  | pooled lease => .pooled (lease.marked (marks lease.home))

/-- A report with the mark for the generation of its loan. -/
def LeakReport.marked (mark : Nat → Bool) (report : LeakReport) : LeakReport :=
  { report with traced := mark report.generation }

/-- An event with the mark for the loan that it tells of, if it tells of one. -/
def Event.marked (mark : Nat → Bool) : Event → Event
  | leaked report => .leaked (report.marked mark)
  | event => event

/-- An event that tells of no loan has no mark. -/
theorem Event.marked_of_report?_eq_none {event : Event} (h : event.report? = none)
    (mark : Nat → Bool) : event.marked mark = event := by
  cases event with
  | leaked report => cases h
  | _ => rfl

/-- Events that tell of no loan have no marks. -/
theorem Event.map_marked {row : List Event} (h : row.filterMap Event.report? = [])
    (mark : Nat → Bool) : row.map (Event.marked mark) = row := by
  refine (List.map_congr_left fun event hevent => ?_).trans (List.map_id row)
  exact marked_of_report?_eq_none (List.filterMap_eq_nil_iff.mp h event hevent) mark

/-- The same page, parked with whatever mark. It is as given as long as there is a generation
that it can be given for. -/
def Parked.Marked (mark : Nat → Bool) (generation : Nat) (one other : Parked) : Prop :=
  ∃ traced, other = { one with traced } ∧ (generation ≠ 0 → traced = mark generation)

/-- **The same slot but for the mark** of the page that is parked there. -/
structure Slot.Marked (mark : Nat → Bool) (s t : Slot) : Prop where
  generation_eq : t.generation = s.generation
  tickets_eq : t.tickets = s.tickets
  parked : Option.Rel (Parked.Marked mark s.generation) s.parked t.parked

/-- An empty slot has no mark. -/
theorem Slot.Marked.empty (mark : Nat → Bool) : ({} : Slot).Marked mark {} := ⟨rfl, rfl, .none⟩

/-- The slot with the mark taken off the page that is parked there. -/
def Slot.unmarked (s : Slot) : Slot :=
  { s with parked := s.parked.map fun parked => { parked with traced := false } }

/-- Slots that are the same but for the mark are the same without it. -/
theorem Slot.Marked.unmarked_eq {mark : Nat → Bool} {s t : Slot} (h : s.Marked mark t) :
    t.unmarked = s.unmarked := by
  obtain ⟨generation, parked, tickets⟩ := s
  obtain ⟨generation', parked', tickets'⟩ := t
  obtain ⟨rfl, rfl, hparked⟩ := h
  cases hparked with
  | none => rfl
  | some hab =>
    obtain ⟨traced, rfl, -⟩ := hab
    rfl

namespace Pool

/-- **The same pool but for the marks** of the pages that are parked. -/
structure Marked (mark : Nat → Bool) (p q : Pool) : Prop where
  rest_eq : q = { p with slots := q.slots }
  length_eq : q.slots.length = p.slots.length
  slot : ∀ slot, (p.slotAt slot).Marked mark (q.slotAt slot)

/-- **No page is parked where there is no loan.** -/
def Orderly (p : Pool) : Prop :=
  ∀ slot, (p.slotAt slot).generation = 0 → (p.slotAt slot).parked = none

theorem Placed.orderly {p : Pool} {deeds : Multiset Deed} (h : p.Placed deeds) : p.Orderly := by
  intro slot hzero
  cases hparked : (p.slotAt slot).parked with
  | none => rfl
  | some parked => exact absurd hzero (h.of_parked hparked).2

end Pool

/-- **What comes of a transaction** on two pools that are the same but for the marks: they are
so afterwards, and the events and the answer are the same with the marks that are given. -/
structure Transaction.Marked {α : Type} (mark : Nat → Bool) (f : α → α)
    (done other : Transaction α) : Prop where
  pool : done.pool.Marked mark other.pool
  events : other.events = done.events.map (Event.marked mark)
  result : other.result = done.result.map f

/-- **A transaction loses nothing.** -/
structure Transaction.Harmless {α : Type} (p : Pool) (done : Transaction α) : Prop where
  leaked : done.pool.leaked = p.leaked
  told : done.events.filterMap Event.report? = []

namespace Pool

variable {mark : Nat → Bool} {p q : Pool}

/-! ## Borrowing in two parts -/

/-- Taking a page off its shelf never fails. It is no loan yet, and no slot is changed by it. -/
theorem exists_acquire (p : Pool) (c : SizeClass) :
    ∃ shelved, (p.acquire c).result = .ok shelved ∧ (p.acquire c).Harmless p ∧
      (p.acquire c).pool.generation = p.generation ∧
      ∀ slot, (p.acquire c).pool.slotAt slot = p.slotAt slot := by
  unfold acquire
  dsimp only
  cases (p.shelf c).free with
  | nil => exact ⟨_, rfl, ⟨rfl, rfl⟩, rfl, fun slot => slotAt_addSlot p slot⟩
  | cons top free => exact ⟨_, rfl, ⟨rfl, rfl⟩, rfl, fun slot => rfl⟩

/-- **Borrowing a page** is to take one off its shelf and to lend it. -/
theorem borrow_eq {len : Nat} {c : SizeClass} (hclass : SizeClass.ofLength? len = some c)
    {shelved : Shelved} (hshelved : (p.acquire c).result = .ok shelved) (home : Nat)
    (zero traced : Bool) :
    p.borrow home len zero traced =
      ⟨((p.acquire c).pool.lend home shelved len zero traced).pool,
        (p.acquire c).events ++ ((p.acquire c).pool.lend home shelved len zero traced).events,
        ((p.acquire c).pool.lend home shelved len zero traced).result⟩ := by
  unfold borrow
  rw [hclass]
  dsimp only
  rw [hshelved]

/-- Lending loses nothing, generations grow by it, and a page that is lent is not parked. -/
theorem harmless_lend (p : Pool) (home : Nat) (shelved : Shelved) (len : Nat)
    (zero traced : Bool) :
    (p.lend home shelved len zero traced).Harmless p ∧
      p.generation ≤ (p.lend home shelved len zero traced).pool.generation ∧
      (p.Orderly → (p.lend home shelved len zero traced).pool.Orderly) := by
  by_cases hfree : (p.slotAt shelved.slot).generation = 0
  · have hlent : p.lend home shelved len zero traced = ⟨_, [], .ok _⟩ := if_pos hfree
    rw [hlent]
    refine ⟨⟨rfl, rfl⟩, Nat.le_succ _, fun h slot hzero => ?_⟩
    have hslot (r : Pool) (hr : ∀ slot, r.slotAt slot = p.slotAt slot)
        (hzero : ((r.setGeneration shelved.slot (p.generation + 1)).slotAt slot).generation = 0) :
        ((r.setGeneration shelved.slot (p.generation + 1)).slotAt slot).parked = none := by
      by_cases hother : slot = shelved.slot
      · subst hother
        rcases Nat.lt_or_ge shelved.slot r.slots.length with hlt | hge
        · rw [setGeneration, slotAt_modifySlot_self _ hlt] at hzero
          cases hzero
        · rw [slotAt_of_le _ (by rwa [setGeneration, length_slots_modifySlot])]
      · rw [setGeneration, slotAt_modifySlot_of_ne _ hother, hr] at hzero ⊢
        exact h slot hzero
    exact hslot _ (fun _ => rfl) hzero
  · have hrefused : p.lend home shelved len zero traced = ⟨_, [], .error _⟩ := if_neg hfree
    rw [hrefused]
    exact ⟨⟨rfl, rfl⟩, Nat.le_succ _, fun h => h⟩

/-- **Borrowing** loses nothing, generations grow by it, and nothing is parked. -/
theorem harmless_borrow (p : Pool) (home len : Nat) (zero traced : Bool) :
    (p.borrow home len zero traced).Harmless p ∧
      p.generation ≤ (p.borrow home len zero traced).pool.generation ∧
      (p.Orderly → (p.borrow home len zero traced).pool.Orderly) := by
  cases hclass : SizeClass.ofLength? len with
  | none =>
    rw [borrow_of_none p hclass]
    exact ⟨⟨rfl, rfl⟩, Nat.le_refl _, fun h => h⟩
  | some c =>
    obtain ⟨shelved, hshelved, hacquire, hgeneration, hslots⟩ := p.exists_acquire c
    obtain ⟨hlend, hle, horderly⟩ :=
      (p.acquire c).pool.harmless_lend home shelved len zero traced
    rw [borrow_eq hclass hshelved]
    refine ⟨⟨hlend.leaked.trans hacquire.leaked, ?_⟩, hgeneration ▸ hle, fun h => horderly ?_⟩
    · rw [List.filterMap_append, hacquire.told, hlend.told]
      rfl
    · intro slot
      rw [hslots]
      exact h slot

/-- **Giving back** loses nothing. -/
theorem harmless_reclaim (p : Pool) (lease : Lease) : (p.reclaim lease).Harmless p := by
  unfold reclaim
  split
  · exact ⟨rfl, rfl⟩
  · exact ⟨rfl, rfl⟩

namespace Marked

/-! ## Parts of transactions -/

theorem shelf_eq (h : p.Marked mark q) (c : SizeClass) : q.shelf c = p.shelf c := by
  rw [shelf, h.rest_eq, shelf]

theorem generation_eq (h : p.Marked mark q) : q.generation = p.generation :=
  (congrArg Pool.generation h.rest_eq :)

theorem leaked_eq (h : p.Marked mark q) : q.leaked = p.leaked :=
  (congrArg Pool.leaked h.rest_eq :)

/-- Other marks that are the same for the generations on the slots. -/
theorem congr (h : p.Marked mark q) {mark' : Nat → Bool}
    (hsame : ∀ slot, mark' (p.slotAt slot).generation = mark (p.slotAt slot).generation) :
    p.Marked mark' q := by
  refine ⟨h.rest_eq, h.length_eq, fun slot => ?_⟩
  obtain ⟨hgeneration, htickets, hparked⟩ := h.slot slot
  refine ⟨hgeneration, htickets, ?_⟩
  generalize (p.slotAt slot).parked = one, (q.slotAt slot).parked = other at hparked ⊢
  cases hparked with
  | none => exact .none
  | some hab =>
    obtain ⟨traced, rfl, hmark⟩ := hab
    exact .some ⟨traced, rfl, fun hne => (hmark hne).trans (hsame slot).symm⟩

/-- **What does not look at the slots** and leaves them alone does the same to both. -/
theorem update (h : p.Marked mark q) (f : Pool → Pool)
    (hf : ∀ p slots, f { p with slots } = { f p with slots }) : (f p).Marked mark (f q) := by
  have hslots (r : Pool) : (f r).slots = r.slots := (congrArg Pool.slots (hf r r.slots) :)
  have hslotAt (r : Pool) (slot : Nat) : (f r).slotAt slot = r.slotAt slot := by
    rw [slotAt, hslots, slotAt]
  refine ⟨?_, by rw [hslots, hslots, h.length_eq], fun slot => ?_⟩
  · rw [hslots q, ← hf p q.slots, ← h.rest_eq]
  · rw [hslotAt, hslotAt]
    exact h.slot slot

/-- **A slot that is changed in both.** -/
theorem modifySlot (h : p.Marked mark q) {slot : Nat} {f g : Slot → Slot}
    (hfg : (f (p.slotAt slot)).Marked mark (g (q.slotAt slot))) :
    (p.modifySlot slot f).Marked mark (q.modifySlot slot g) := by
  refine ⟨?_, ?_, fun other => ?_⟩
  · exact congrArg (fun r : Pool => { r with slots := q.slots.modify slot g }) h.rest_eq
  · rw [length_slots_modifySlot, length_slots_modifySlot, h.length_eq]
  · by_cases hother : other = slot
    · subst hother
      rcases Nat.lt_or_ge other p.slots.length with hlt | hge
      · rwa [slotAt_modifySlot_self p hlt, slotAt_modifySlot_self q (h.length_eq ▸ hlt)]
      · rw [slotAt_of_le _ (by rwa [length_slots_modifySlot]),
          slotAt_of_le _ (by rwa [length_slots_modifySlot, h.length_eq])]
        exact .empty mark
    · rw [slotAt_modifySlot_of_ne p hother, slotAt_modifySlot_of_ne q hother]
      exact h.slot other

/-- A slot that is added to both. -/
theorem addSlot (h : p.Marked mark q) : p.addSlot.Marked mark q.addSlot := by
  refine ⟨?_, by rw [length_slots_addSlot, length_slots_addSlot, h.length_eq], fun slot => ?_⟩
  · exact congrArg (fun r : Pool => { r with slots := q.slots ++ [({} : Slot)] }) h.rest_eq
  · rw [slotAt_addSlot, slotAt_addSlot]
    exact h.slot slot

/-- A slot whose loan ends in both. What may still be parked there needs no mark any more. -/
theorem free (h : p.Marked mark q) (slot : Nat) :
    (p.setGeneration slot 0).Marked mark (q.setGeneration slot 0) := by
  refine h.modifySlot ⟨rfl, (h.slot slot).tickets_eq, ?_⟩
  have hparked := (h.slot slot).parked
  dsimp only
  generalize (p.slotAt slot).parked = one, (q.slotAt slot).parked = other at hparked ⊢
  cases hparked with
  | none => exact .none
  | some hab =>
    obtain ⟨traced, rfl, -⟩ := hab
    exact .some ⟨traced, rfl, fun hzero => absurd rfl hzero⟩

/-- A page that comes back to both. -/
theorem shelve (h : p.Marked mark q) (page : Page) (slot : Nat) :
    (p.shelve page slot).Marked mark (q.shelve page slot) :=
  h.update (fun r => r.shelve page slot) fun _ _ => rfl

/-! ## Borrowing -/

/-- The page to be lent next is the same. -/
theorem acquire (h : p.Marked mark q) (c : SizeClass) :
    (p.acquire c).Marked mark id (q.acquire c) := by
  have hslots : q.slots.length = p.slots.length := h.length_eq
  unfold Pool.acquire
  dsimp only
  rw [h.shelf_eq c, hslots]
  cases (p.shelf c).free with
  | nil => exact ⟨h.addSlot.update (fun r => r.setShelf c _) fun _ _ => rfl, rfl, rfl⟩
  | cons top free => exact ⟨h.update (fun r => r.setShelf c _) fun _ _ => rfl, rfl, rfl⟩

/-- **Lending.** The mark is set to what is given for the generation. -/
theorem lend {marks : Marks} {home : Nat} (h : p.Marked (marks home) q) (horderly : p.Orderly)
    (shelved : Shelved) (len : Nat) (zero traced : Bool) {traced' : Bool}
    (hmark : traced' = marks home (p.generation + 1)) :
    (p.lend home shelved len zero traced).Marked (marks home) (Loan.marked marks)
      (q.lend home shelved len zero traced') := by
  have hslot := h.slot shelved.slot
  have hnext : ({ p with generation := p.generation + 1 } : Pool).Marked (marks home)
      { q with generation := q.generation + 1 } :=
    h.update (fun r => { r with generation := r.generation + 1 }) fun _ _ => rfl
  by_cases hfree : (p.slotAt shelved.slot).generation = 0
  · have hlent : p.lend home shelved len zero traced = ⟨_, [], .ok _⟩ := if_pos hfree
    have hlent' : q.lend home shelved len zero traced' = ⟨_, [], .ok _⟩ :=
      if_pos (hslot.generation_eq.trans hfree)
    have hset : (setGeneration { p with generation := p.generation + 1 } shelved.slot
        (p.generation + 1)).Marked (marks home) (setGeneration { q with
          generation := q.generation + 1 } shelved.slot (q.generation + 1)) := by
      refine hnext.modifySlot ⟨congrArg (· + 1) h.generation_eq, hslot.tickets_eq, ?_⟩
      -- nothing is parked on a slot that is lent on
      have hparked := hslot.parked
      rw [horderly _ hfree] at hparked
      show Option.Rel _ (p.slotAt shelved.slot).parked (q.slotAt shelved.slot).parked
      rw [horderly _ hfree]
      generalize (q.slotAt shelved.slot).parked = other at hparked ⊢
      cases hparked
      exact .none
    rw [hlent, hlent', hmark]
    refine ⟨hset.update (fun r => { r with borrowed := r.borrowed + 1 }) fun _ _ => rfl, rfl, ?_⟩
    rw [h.generation_eq]
    rfl
  · have hrefused : p.lend home shelved len zero traced = ⟨_, [], .error _⟩ := if_neg hfree
    have hrefused' : q.lend home shelved len zero traced' = ⟨_, [], .error _⟩ :=
      if_neg (hslot.generation_eq.trans_ne hfree)
    rw [hrefused, hrefused']
    exact ⟨hnext, rfl, rfl⟩

/-- **Borrowing.** -/
theorem borrow {marks : Marks} {home : Nat} (h : p.Marked (marks home) q) (horderly : p.Orderly)
    (len : Nat) (zero traced : Bool) {traced' : Bool}
    (hmark : traced' = marks home (p.generation + 1)) :
    (p.borrow home len zero traced).Marked (marks home) (Loan.marked marks)
      (q.borrow home len zero traced') := by
  cases hclass : SizeClass.ofLength? len with
  | none =>
    rw [borrow_of_none p hclass, borrow_of_none q hclass]
    refine ⟨h.update (fun r => { r with bypassed := r.bypassed + 1 }) fun _ _ => rfl, rfl, ?_⟩
    dsimp only
    cases Block.allocate len <;> rfl
  | some c =>
    obtain ⟨shelved, hshelved, -, hgeneration, hslots⟩ := p.exists_acquire c
    have hacquire := h.acquire c
    have hshelved' : (q.acquire c).result = .ok shelved := by
      rw [hacquire.result, hshelved]
      rfl
    have hstill : (p.acquire c).pool.Orderly := fun slot => by
      rw [hslots]
      exact horderly slot
    have hnext : traced' = marks home ((p.acquire c).pool.generation + 1) := by
      rw [hgeneration]
      exact hmark
    have hlend := hacquire.pool.lend hstill shelved len zero traced hnext
    rw [borrow_eq hclass hshelved, borrow_eq hclass hshelved']
    refine ⟨hlend.pool, ?_, hlend.result⟩
    rw [List.map_append, hacquire.events, hlend.events]

/-! ## Giving back and losing -/

theorem reclaim (h : p.Marked mark q) (lease : Lease) :
    (p.reclaim lease).Marked mark id (q.reclaim (lease.marked mark)) := by
  have hslot := (h.slot lease.slot).generation_eq
  by_cases hgood : (p.slotAt lease.slot).generation = lease.generation
  · have hback : p.reclaim lease = ⟨_, [], .ok ()⟩ := if_pos hgood
    have hback' : q.reclaim (lease.marked mark) = ⟨_, [], .ok ()⟩ := if_pos (hslot.trans hgood)
    rw [hback, hback']
    exact ⟨(h.free lease.slot).shelve lease.page lease.slot, rfl, rfl⟩
  · have hrefused : p.reclaim lease = ⟨_, [], .error _⟩ := if_neg hgood
    have hrefused' : q.reclaim (lease.marked mark) = ⟨_, [], .error _⟩ :=
      if_neg (hslot.trans_ne hgood)
    rw [hrefused, hrefused']
    exact ⟨h, rfl, rfl⟩

theorem lose (h : p.Marked mark q) (lease : Lease) :
    (p.lose lease).Marked mark id (q.lose (lease.marked mark)) := by
  have hcounted : ({ p with leaked := p.leaked + 1 } : Pool).Marked mark
      { q with leaked := q.leaked + 1 } :=
    h.update (fun r => { r with leaked := r.leaked + 1 }) fun _ _ => rfl
  have hback := hcounted.reclaim lease
  refine ⟨hback.pool, ?_, hback.result⟩
  show Event.leaked (leakReport (lease.marked mark)) :: _ = List.map _ (_ :: _)
  rw [hback.events, List.map_cons]
  rfl

/-! ## Tickets -/

/-- **A page is parked** under the generation of its loan. -/
theorem park (h : p.Marked mark q) {lease : Lease}
    (hslot : (p.slotAt lease.slot).generation = lease.generation) :
    (p.park lease).Marked mark (q.park (lease.marked mark)) :=
  h.modifySlot ⟨(h.slot _).generation_eq, congrArg (· + 1) (h.slot _).tickets_eq,
    .some ⟨_, rfl, fun _ => congrArg mark hslot.symm⟩⟩

theorem copyTicket (h : p.Marked mark q) (slot : Nat) :
    (p.copyTicket slot).Marked mark (q.copyTicket slot) :=
  h.modifySlot ⟨(h.slot slot).generation_eq, congrArg (· + 1) (h.slot slot).tickets_eq,
    (h.slot slot).parked⟩

theorem countOut (h : p.Marked mark q) (slot : Nat) :
    (p.countOut slot).Marked mark (q.countOut slot) :=
  h.modifySlot ⟨(h.slot slot).generation_eq, congrArg (· - 1) (h.slot slot).tickets_eq,
    (h.slot slot).parked⟩

/-- **The last ticket is gone.** If a page is lost by that, the report shows its mark. -/
theorem retire (h : p.Marked mark q) (slot : Nat) :
    (p.retire slot).Marked mark id (q.retire slot) := by
  have hslot := h.slot slot
  have hparked := hslot.parked
  unfold Pool.retire
  dsimp only
  rw [hslot.generation_eq]
  generalize (p.slotAt slot).parked = one, (q.slotAt slot).parked = other at hparked ⊢
  cases hparked with
  | none => exact ⟨h, rfl, rfl⟩
  | some hab =>
    obtain ⟨traced, rfl, hmark⟩ := hab
    dsimp only
    by_cases hzero : (p.slotAt slot).generation = 0
    · rw [if_pos hzero, if_pos hzero]
      exact ⟨h, rfl, rfl⟩
    · rw [if_neg hzero, if_neg hzero, hmark hzero]
      have hemptied : (Pool.modifySlot { p with leaked := p.leaked + 1 } slot
          fun _ => {}).Marked mark (Pool.modifySlot { q with leaked := q.leaked + 1 } slot
            fun _ => {}) :=
        (h.update (fun r => { r with leaked := r.leaked + 1 }) fun _ _ => rfl).modifySlot
          (.empty mark)
      rw [hemptied.length_eq]
      exact ⟨hemptied.addSlot.shelve _ _, rfl, rfl⟩

theorem discardTicket (h : p.Marked mark q) (slot : Nat) :
    (p.discardTicket slot).Marked mark id (q.discardTicket slot) := by
  have hcounted := h.countOut slot
  show (if ((p.countOut slot).slotAt slot).tickets = 0 then (p.countOut slot).retire slot
      else ⟨p.countOut slot, [], .ok ()⟩ : Transaction Unit).Marked mark id
    (if ((q.countOut slot).slotAt slot).tickets = 0 then (q.countOut slot).retire slot
      else ⟨q.countOut slot, [], .ok ()⟩)
  rw [(hcounted.slot slot).tickets_eq]
  split
  · exact hcounted.retire slot
  · exact ⟨hcounted, rfl, rfl⟩

theorem unpark (h : p.Marked mark q) (slot generation : Nat) :
    (p.unpark slot generation).Marked mark id (q.unpark slot generation) := by
  have hslot := h.slot slot
  have hparked := hslot.parked
  unfold Pool.unpark
  dsimp only
  rw [hslot.generation_eq]
  split
  · have hfreed := h.free slot
    have hemptied : ((p.setGeneration slot 0).modifySlot slot fun s => { s with
        parked := none }).Marked mark ((q.setGeneration slot 0).modifySlot slot fun s => { s with
          parked := none }) :=
      hfreed.modifySlot ⟨(hfreed.slot slot).generation_eq, (hfreed.slot slot).tickets_eq, .none⟩
    generalize (p.slotAt slot).parked = one, (q.slotAt slot).parked = other at hparked ⊢
    cases hparked with
    | none => exact ⟨hfreed, rfl, rfl⟩
    | some hab =>
      obtain ⟨traced, rfl, -⟩ := hab
      exact ⟨hemptied.shelve _ _, rfl, rfl⟩
  · exact ⟨h, rfl, rfl⟩

/-- **A ticket is handed in.** -/
theorem redeem (h : p.Marked mark q) (slot generation : Nat) :
    (p.redeem slot generation).Marked mark id (q.redeem slot generation) := by
  have hattempt := h.unpark slot generation
  have hrest := hattempt.pool.discardTicket slot
  refine ⟨hrest.pool, ?_, hattempt.result⟩
  show _ ++ _ = (_ ++ _ : List Event).map _
  rw [List.map_append, hattempt.events, hrest.events]

end Marked

/-- The pool with all marks taken off. -/
def unmarked (p : Pool) : Pool := { p with slots := p.slots.map Slot.unmarked }

/-- **Pools that are the same but for the marks** are the same without them. -/
theorem Marked.unmarked_eq (h : p.Marked mark q) : q.unmarked = p.unmarked := by
  have hslots : q.slots.map Slot.unmarked = p.slots.map Slot.unmarked := by
    refine List.ext_getElem (by rw [List.length_map, List.length_map, h.length_eq])
      fun slot hq hp => ?_
    rw [List.length_map] at hq hp
    have hslot := h.slot slot
    rw [slotAt, slotAt, List.getElem?_eq_getElem hq, List.getElem?_eq_getElem hp] at hslot
    rw [List.getElem_map, List.getElem_map]
    exact hslot.unmarked_eq
  rw [unmarked, hslots, h.rest_eq]
  rfl

end Pool

end Wirepool
