import Wirepool.Proofs.Pool.History
import Wirepool.Proofs.Store.Returns

/-!
# A page is lent, and may be back at once

Borrowing takes the page on top of the shelf, or makes one if there is none, and marks its
slot. That is all it does to the pages of a pool: all other shelves and slots are as they
were, so everybody who holds a page or a ticket is none the wiser.

If the borrower gives the page back before anything else happens, the pool is as it was but
for three numbers, the content of the page, and the page itself if it had to be made.
-/

namespace Wirepool

namespace Pool

/-- **A pool lends a page of a class.** -/
structure Lends (p : Pool) (c : SizeClass) (lease : Lease) (q : Pool) : Prop where
  sizeClass : lease.page.sizeClass = c
  generation_eq : lease.generation = p.generation + 1
  /-- It is the page on top of the shelf, if there is one. -/
  taken : ∀ top ∈ (p.shelf c).free.head?, lease.slot = top.slot ∧ lease.page.id = top.page.id
  free : (q.shelf c).free = (p.shelf c).free.tail
  /-- Otherwise it was made for that. -/
  created : (q.shelf c).created =
    (p.shelf c).created + if (p.shelf c).free = [] then 1 else 0
  shelf : ∀ d, d ≠ c → q.shelf d = p.shelf d
  /-- Its slot had no generation, and has that of the loan. -/
  vacant : (p.slotAt lease.slot).generation = 0
  slotAt : ∀ slot, q.slotAt slot = if slot = lease.slot then
    { p.slotAt slot with generation := p.generation + 1 } else p.slotAt slot
  generation : q.generation = p.generation + 1
  borrowed : q.borrowed = p.borrowed + 1
  released : q.released = p.released
  bypassed : q.bypassed = p.bypassed
  leaked : q.leaked = p.leaked

/-- **A pool has lent a page of a class and has it back** on top of its shelf. -/
structure LendsBriefly (p : Pool) (c : SizeClass) (shelved : Shelved) (q : Pool) : Prop where
  sizeClass : shelved.page.sizeClass = c
  /-- It is the page that was on top of the shelf before, if there was one. -/
  taken : ∀ top ∈ (p.shelf c).free.head?,
    shelved.slot = top.slot ∧ shelved.page.id = top.page.id
  free : (q.shelf c).free = shelved :: (p.shelf c).free.tail
  created : (q.shelf c).created =
    (p.shelf c).created + if (p.shelf c).free = [] then 1 else 0
  shelf : ∀ d, d ≠ c → q.shelf d = p.shelf d
  /-- No slot has changed. -/
  slotAt : ∀ slot, q.slotAt slot = p.slotAt slot
  generation : q.generation = p.generation + 1
  borrowed : q.borrowed = p.borrowed + 1
  released : q.released = p.released + 1
  bypassed : q.bypassed = p.bypassed
  leaked : q.leaked = p.leaked

/-- **A page is taken off the shelf of a class**: its top, or a page that is made and put on
a slot of its own. -/
structure Acquires (p : Pool) (c : SizeClass) (shelved : Shelved) (r : Pool) : Prop where
  sizeClass : shelved.page.sizeClass = c
  taken : ∀ top ∈ (p.shelf c).free.head?, shelved = top
  free : (r.shelf c).free = (p.shelf c).free.tail
  created : (r.shelf c).created =
    (p.shelf c).created + if (p.shelf c).free = [] then 1 else 0
  shelf : ∀ d, d ≠ c → r.shelf d = p.shelf d
  slot_lt : shelved.slot < r.slots.length
  vacant : (p.slotAt shelved.slot).generation = 0
  slotAt : ∀ slot, r.slotAt slot = p.slotAt slot
  figures : r = { p with shelves := r.shelves, slots := r.slots }

section Lends

variable {p q r : Pool} {c : SizeClass} {deeds : Multiset Deed}

/-- Any shelf has a page to be taken off. -/
theorem Placed.acquires (h : p.Placed deeds) (c : SizeClass) :
    ∃ r shelved events, p.acquire c = ⟨r, events, .ok shelved⟩ ∧ p.Acquires c shelved r := by
  cases hfree : (p.shelf c).free with
  | cons top free =>
    obtain ⟨hlt, hgeneration, hclass, -⟩ := h.of_free (by rw [hfree]; exact List.mem_cons_self)
    refine ⟨p.setShelf c { p.shelf c with free }, top, [], by simp only [acquire, hfree], hclass,
      ?_, ?_, ?_, fun d hd => ?_, hlt, hgeneration, fun slot => slotAt_setShelf p c _ slot, rfl⟩
    · rw [hfree]
      rintro _ ⟨⟩
      rfl
    · rw [shelf_setShelf, if_pos rfl, hfree]
      rfl
    · rw [shelf_setShelf, if_pos rfl, hfree, if_neg (List.cons_ne_nil _ _)]
      rfl
    · rw [shelf_setShelf, if_neg hd]
  | nil =>
    refine ⟨p.addSlot.setShelf c { p.shelf c with created := (p.shelf c).created + 1 },
      ⟨.fresh c (p.shelf c).created, p.slots.length⟩,
      [.grew c.val c.capacity ((p.shelf c).created + 1)], by simp only [acquire, hfree], rfl,
      ?_, ?_, ?_, fun d hd => ?_, ?_, ?_, fun slot => ?_, rfl⟩
    · rw [hfree]
      rintro _ ⟨⟩
    · rw [shelf_setShelf, if_pos rfl, hfree]
      rfl
    · rw [shelf_setShelf, if_pos rfl, if_pos hfree]
    · rw [shelf_setShelf, if_neg hd]
      rfl
    · rw [slots_setShelf, length_slots_addSlot]
      exact Nat.lt_succ_self _
    · rw [slotAt_of_le p (Nat.le_refl _)]
    · rw [slotAt_setShelf, slotAt_addSlot]

/-- **Borrowing** what a class serves lends a page of it. -/
theorem Placed.lends_borrow (h : p.Placed deeds) {len : Nat}
    (hclass : SizeClass.ofLength? len = some c) (home : Nat) (zero traced : Bool) :
    ∃ q lease events, p.borrow home len zero traced = ⟨q, events, .ok (.pooled lease)⟩ ∧
      lease.home = home ∧ lease.len = len ∧ p.Lends c lease q := by
  obtain ⟨r, shelved, events, hacquire, hacquires⟩ := h.acquires c
  let next : Pool := { r with generation := r.generation + 1 }
  let lent : Pool := { next.setGeneration shelved.slot (r.generation + 1) with
    borrowed := r.borrowed + 1 }
  let page := if zero then shelved.page.clear len else shelved.page
  have hid : page.id = shelved.page.id := by
    cases zero <;> rfl
  have hlend : r.lend home shelved len zero traced = ⟨lent, [], .ok (.pooled
      ⟨home, shelved.slot, page, r.generation + 1, len, traced⟩)⟩ :=
    if_pos ((congrArg Slot.generation (hacquires.slotAt shelved.slot)).trans hacquires.vacant)
  have hgeneration : r.generation + 1 = p.generation + 1 := by rw [hacquires.figures]
  have hborrowed : r.borrowed + 1 = p.borrowed + 1 := by rw [hacquires.figures]
  have hreleased : r.released = p.released := by rw [hacquires.figures]
  have hbypassed : r.bypassed = p.bypassed := by rw [hacquires.figures]
  have hleaked : r.leaked = p.leaked := by rw [hacquires.figures]
  refine ⟨lent, ⟨home, shelved.slot, page, r.generation + 1, len, traced⟩, events ++ [], ?_, rfl,
    rfl, (congrArg Prod.fst hid).trans hacquires.sizeClass, hgeneration, fun top htop => ?_,
    hacquires.free, hacquires.created, hacquires.shelf, hacquires.vacant, fun slot => ?_,
    hgeneration, hborrowed, hreleased, hbypassed, hleaked⟩
  · simp only [Pool.borrow, hclass, hacquire, hlend]
  · rw [← hacquires.taken top htop]
    exact ⟨rfl, hid⟩
  · rw [← hacquires.slotAt, ← hgeneration]
    by_cases hself : slot = shelved.slot
    · rw [if_pos hself, hself]
      exact slotAt_modifySlot_self next hacquires.slot_lt _
    · rw [if_neg hself]
      exact slotAt_modifySlot_of_ne next hself _

/-- Whatever is written to the page, it is the page that was lent. -/
theorem Lends.mapBlock {lease : Lease} (h : p.Lends c lease q) (f : Block → Block)
    (hf : ∀ b, (f b).size = b.size) :
    p.Lends c { lease with page := lease.page.mapBlock f hf } q :=
  { h with }

/-- **A page that comes back at once** leaves no trace but in the figures. -/
theorem Lends.briefly {lease back : Lease} (h : p.Lends c lease q) (hback : q.Collects [back] r)
    (hslot : back.slot = lease.slot) (hpage : back.page.id = lease.page.id) :
    p.LendsBriefly c back.shelved r := by
  have hclass : back.page.sizeClass = c := (congrArg Prod.fst hpage).trans h.sizeClass
  have hkept (d : SizeClass) (hd : d ≠ c) : r.shelf d = q.shelf d := by
    have hfree := hback.free d
    rw [List.filter_cons_of_neg (by simpa [hclass] using Ne.symm hd)] at hfree
    exact congrArg₂ Shelf.mk (hback.created d) hfree
  refine ⟨hclass, fun top htop => ?_, ?_, (hback.created c).trans h.created,
    fun d hd => (hkept d hd).trans (h.shelf d hd), fun slot => ?_,
    hback.generation.trans h.generation, hback.borrowed.trans h.borrowed, ?_,
    hback.bypassed.trans h.bypassed, hback.leaked.trans h.leaked⟩
  · obtain ⟨htop, hid⟩ := h.taken top htop
    exact ⟨hslot.trans htop, hpage.trans hid⟩
  · rw [hback.free, h.free, List.filter_cons_of_pos (by simpa using hclass)]
    rfl
  · have hmem : slot ∈ [back].map Lease.slot ↔ slot = lease.slot := by simp [hslot]
    rw [hback.slotAt, h.slotAt]
    by_cases hself : slot = lease.slot
    · rw [if_pos (hmem.mpr hself), if_pos hself, hself, ← h.vacant]
    · rw [if_neg fun hslot => hself (hmem.mp hslot), if_neg hself]
  · rw [hback.released, h.released]
    rfl

end Lends

end Pool

end Wirepool
