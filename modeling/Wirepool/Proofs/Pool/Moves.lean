import Wirepool.Proofs.Pool.Placed

/-!
# Every operation of a pool keeps every page in one place

Borrowing takes a page from its shelf to a borrower, giving back takes it the
other way. Detaching parks it, a good ticket takes it from its slot to the
shelf, and a detached loan that is lost does the same and changes the slot.

Along with the invariant each lemma says how the operation ends: while every
page is in one place, the check on the slot of a page never fails for its
holder.
-/

namespace Wirepool

namespace Pool

/-- **What no class serves** is left to the system, and that is counted and told. -/
theorem borrow_of_none (p : Pool) {len : Nat} (hclass : SizeClass.ofLength? len = none)
    (home : Nat) (zero traced : Bool) :
    p.borrow home len zero traced = ⟨{ p with bypassed := p.bypassed + 1 }, [.bypassed len],
      (Block.allocate len).map .unpooled⟩ := by
  rw [borrow, hclass]

/-- **What can be borrowed** from a pool, whatever the pool is like. -/
inductive Offers (home len : Nat) (zero traced : Bool) : Loan → Prop
  /-- Memory of the system, if no class serves the length. -/
  | unpooled (hclass : SizeClass.ofLength? len = none) (hlen : len < addressLimit) :
    Offers home len zero traced (.unpooled (.zeroed len))
  /-- A page, cleared as far as it is visible if zeros are asked for. -/
  | pooled (shelved : Shelved) (generation : Nat) :
    Offers home len zero traced (.pooled ⟨home, shelved.slot,
      if zero then shelved.page.clear len else shelved.page, generation, len, traced⟩)

/-- Nothing else is borrowed. -/
theorem offers_of_result_borrow {p : Pool} {home len : Nat} {zero traced : Bool} {loan : Loan}
    (h : (p.borrow home len zero traced).result = .ok loan) : Offers home len zero traced loan := by
  cases hclass : SizeClass.ofLength? len with
  | none =>
    rw [borrow_of_none p hclass] at h
    by_cases hlen : len < addressLimit
    · rw [Block.allocate, if_pos hlen] at h
      cases h
      exact .unpooled hclass hlen
    · rw [Block.allocate, if_neg hlen] at h
      cases h
  | some c =>
    unfold borrow at h
    rw [hclass] at h
    dsimp only at h
    split at h
    · cases h
    · next shelved _ =>
      unfold lend at h
      dsimp only at h
      split at h
      · cases h
        exact .pooled shelved _
      · cases h

namespace Placed

variable {p : Pool} {deeds : Multiset Deed}

/-- A pool with the same shelves and slots. -/
theorem of_eq {q : Pool} (h : p.Placed deeds) (hshelves : q.shelves = p.shelves)
    (hslots : q.slots = p.slots) : q.Placed deeds := by
  have hshelf (c : SizeClass) : q.shelf c = p.shelf c := by rw [shelf, hshelves, shelf]
  have hslot (slot : Nat) : q.slotAt slot = p.slotAt slot := by rw [slotAt, hslots, slotAt]
  have hstays : q.stays deeds = p.stays deeds :=
    stays_congr (fun c => by rw [hshelf]) (by rw [hslots]) fun slot => by rw [hslot]
  have hmade : q.made = p.made := made_congr fun c => by rw [hshelf]
  refine ⟨by rw [hstays, hmade]; exact h.made_eq, by rw [hstays]; exact h.slots_nodup, ?_, ?_, ?_⟩
  · rw [hstays, hslots]
    exact h.slot_lt
  · rw [hstays]
    intro stay hstay
    rw [hslot]
    exact h.agrees stay hstay
  · intro slot hgeneration
    rw [hslot] at hgeneration
    rw [hstays]
    exact h.exists_stay slot hgeneration

/-- A change of a slot that leaves its generation and its page. -/
theorem modifySlot (h : p.Placed deeds) {slot : Nat} {f : Slot → Slot}
    (hgeneration : (f (p.slotAt slot)).generation = (p.slotAt slot).generation)
    (hparked : (f (p.slotAt slot)).parked = (p.slotAt slot).parked) :
    (p.modifySlot slot f).Placed deeds := by
  have hslot (other : Nat) :
      ((p.modifySlot slot f).slotAt other).generation = (p.slotAt other).generation := by
    by_cases hother : other = slot
    · subst hother
      by_cases hlt : other < p.slots.length
      · rw [slotAt_modifySlot_self p hlt, hgeneration]
      · rw [slotAt_of_le p (Nat.le_of_not_lt hlt),
          slotAt_of_le _ (by rw [length_slots_modifySlot]; exact Nat.le_of_not_lt hlt)]
    · rw [slotAt_modifySlot_of_ne p hother]
  have hstays : (p.modifySlot slot f).stays deeds = p.stays deeds := stays_modifySlot hparked
  refine ⟨by rw [hstays]; exact h.made_eq, by rw [hstays]; exact h.slots_nodup, ?_, ?_, ?_⟩
  · rw [hstays, length_slots_modifySlot]
    exact h.slot_lt
  · rw [hstays]
    intro stay hstay
    rw [hslot]
    exact h.agrees stay hstay
  · intro other hother
    rw [hslot] at hother
    rw [hstays]
    exact h.exists_stay other hother

/-! ## Borrowing -/

/-- **The next page is taken off its shelf.** If the shelf is empty, a page is
made and put there first. -/
theorem exists_acquire (h : p.Placed deeds) (c : SizeClass) :
    ∃ (q : Pool) (top : Shelved) (free : List Shelved) (events : List Event),
      q.Placed deeds ∧ (q.shelf c).free = top :: free ∧
      p.acquire c = ⟨q.setShelf c { q.shelf c with free }, events, .ok top⟩ ∧
      q.generation = p.generation ∧ ∀ slot, q.slotAt slot = p.slotAt slot := by
  cases hfree : (p.shelf c).free with
  | cons top free =>
    refine ⟨p, top, free, [], h, hfree, ?_, rfl, fun slot => rfl⟩
    simp only [acquire, hfree]
  | nil =>
    refine ⟨p.withFresh c, _, [], [.grew c.val c.capacity ((p.shelf c).created + 1)],
      h.withFresh hfree, free_withFresh p c, ?_, rfl, slotAt_withFresh p c⟩
    simp only [acquire, hfree, Pool.withFresh, shelf_setShelf, if_true]
    simp only [setShelf, Vector.set_set, addSlot]

/-- **The page on top of a shelf can be lent.** -/
theorem lend (h : p.Placed deeds) {c : SizeClass} {top : Shelved} {free : List Shelved}
    (hfree : (p.shelf c).free = top :: free) (home len : Nat) (zero traced : Bool) :
    ∃ q lease, (p.setShelf c { p.shelf c with free }).lend home top len zero traced =
        ⟨q, [], .ok (.pooled lease)⟩ ∧
      q.Placed (lease.deed ::ₘ deeds) ∧ lease.home = home ∧ lease.len = len ∧
      lease.page.sizeClass = c ∧ lease.generation = p.generation + 1 ∧
      q.generation = p.generation + 1 ∧
      q.slotAt lease.slot = { p.slotAt lease.slot with generation := p.generation + 1 } ∧
      ∀ slot, slot ≠ lease.slot → q.slotAt slot = p.slotAt slot := by
  obtain ⟨hlt, hgeneration, hclass, hparked⟩ := h.of_free (by rw [hfree]; exact List.mem_cons_self)
  have hlent : ((p.setShelf c { p.shelf c with free }).setGeneration top.slot
      (p.generation + 1)).Placed (⟨top.page.id, top.slot, p.generation + 1⟩ ::ₘ deeds) := by
    refine h.move (stays_of_free hfree) ((stays_cons _ _ _).trans (congrArg _
      (stays_modifySlot rfl))) (made_setShelf rfl) (length_slots_modifySlot _ _ _) ?_ ?_
    · intro other hother
      exact congrArg Slot.generation (slotAt_modifySlot_of_ne _ hother _)
    · exact ⟨congrArg Slot.generation (slotAt_modifySlot_self _ hlt _), Nat.succ_ne_zero _⟩
  refine ⟨_, _, if_pos hgeneration, ?_, rfl, rfl, ?_, rfl, rfl, ?_, ?_⟩
  · have hdeed : Page.id (if zero then top.page.clear len else top.page) = top.page.id := by
      cases zero <;> rfl
    rw [Lease.deed, hdeed]
    exact hlent.of_eq rfl rfl
  · cases zero <;> exact hclass
  · exact slotAt_modifySlot_self _ hlt _
  · intro other hother
    exact slotAt_modifySlot_of_ne _ hother _

/-- **Borrowing from a pool** gives a page of the class that serves the length,
under the next generation. It never fails. -/
theorem borrow (h : p.Placed deeds) {len : Nat} {c : SizeClass}
    (hclass : SizeClass.ofLength? len = some c) (home : Nat) (zero traced : Bool) :
    ∃ q lease events, p.borrow home len zero traced = ⟨q, events, .ok (.pooled lease)⟩ ∧
      q.Placed (lease.deed ::ₘ deeds) ∧ lease.home = home ∧ lease.len = len ∧
      lease.page.sizeClass = c ∧ lease.generation = p.generation + 1 ∧
      q.generation = p.generation + 1 ∧
      q.slotAt lease.slot = { p.slotAt lease.slot with generation := p.generation + 1 } ∧
      ∀ slot, slot ≠ lease.slot → q.slotAt slot = p.slotAt slot := by
  obtain ⟨stocked, top, free, events, hstocked, hfree, hacquire, hgeneration, hslots⟩ :=
    h.exists_acquire c
  obtain ⟨q, lease, hlend, hplaced, hhome, hlen, hc, hnext, hlast, hself, hothers⟩ :=
    hstocked.lend hfree home len zero traced
  refine ⟨q, lease, events ++ [], ?_, hplaced, hhome, hlen, hc, ?_, ?_, ?_, ?_⟩
  · simp only [Pool.borrow, hclass, hacquire, hlend]
  · rw [hnext, hgeneration]
  · rw [hlast, hgeneration]
  · rw [hself, hgeneration, hslots]
  · intro slot hslot
    rw [hothers slot hslot, hslots]

/-! ## Giving back -/

/-- **A page that is lent can be given back.** -/
theorem reclaim {lease : Lease} (h : p.Placed (lease.deed ::ₘ deeds)) :
    p.reclaim lease = ⟨(p.setGeneration lease.slot 0).shelve lease.page lease.slot, [], .ok ()⟩ ∧
      ((p.setGeneration lease.slot 0).shelve lease.page lease.slot).Placed deeds := by
  obtain ⟨hlt, hgeneration, -, -⟩ := h.of_deed (Multiset.mem_cons_self _ _)
  refine ⟨if_pos hgeneration, ?_⟩
  refine h.move (stays_cons p lease.deed deeds) ((stays_shelve _ _ _ _).trans
    (congrArg _ (stays_modifySlot rfl))) (made_shelve _ _ _) (length_slots_modifySlot _ _ _) ?_ ?_
  · intro other hother
    exact congrArg Slot.generation (slotAt_modifySlot_of_ne p hother _)
  · exact ⟨congrArg Slot.generation (slotAt_modifySlot_self p hlt _), rfl⟩

/-- **A page that is lent can be parked.** -/
theorem park {lease : Lease} (h : p.Placed (lease.deed ::ₘ deeds)) :
    (p.park lease).Placed deeds := by
  obtain ⟨hlt, hgeneration, hpos, hparked⟩ := h.of_deed (Multiset.mem_cons_self _ _)
  have hafter : (p.park lease).stays deeds =
      ⟨lease.page.id, lease.slot, .parked⟩ ::ₘ p.stays deeds :=
    @stays_modifySlot_of_parked p deeds lease.slot _ ⟨lease.page, lease.len, lease.traced⟩ hlt
      hparked rfl
  refine h.move (stays_cons p lease.deed deeds) hafter rfl (length_slots_modifySlot _ _ _) ?_ ?_
  · intro other hother
    exact congrArg Slot.generation (slotAt_modifySlot_of_ne p hother _)
  · have hkept : ((p.park lease).slotAt lease.slot).generation = lease.generation :=
      (congrArg Slot.generation (slotAt_modifySlot_self p hlt _)).trans hgeneration
    show ((p.park lease).slotAt lease.slot).generation ≠ 0
    rw [hkept]
    exact hpos

/-! ## Parked pages -/

/-- **A parked page can be taken back** and leaves its slot empty. -/
theorem unpark (h : p.Placed deeds) {slot : Nat} {parked : Parked}
    (hparked : (p.slotAt slot).parked = some parked) :
    (((p.setGeneration slot 0).modifySlot slot fun s => { s with parked := none }).shelve
      parked.page slot).Placed deeds := by
  obtain ⟨hlt, -⟩ := h.of_parked hparked
  have hlt' : slot < (p.setGeneration slot 0).slots.length := by
    rw [setGeneration, length_slots_modifySlot]
    exact hlt
  have hparked' : ((p.setGeneration slot 0).slotAt slot).parked = some parked := by
    rw [setGeneration, slotAt_modifySlot_self p hlt]
    exact hparked
  have hbefore : p.stays deeds = ⟨parked.page.id, slot, .parked⟩ ::ₘ
      ((p.setGeneration slot 0).modifySlot slot
        fun s => { s with parked := none }).stays deeds := by
    rw [← stays_of_parked hlt' hparked' rfl]
    exact (stays_modifySlot rfl).symm
  refine h.move hbefore (stays_shelve _ _ _ _) (made_shelve _ _ _) ?_ ?_ ?_
  · rw [slots_shelve, length_slots_modifySlot, setGeneration, length_slots_modifySlot]
  · intro other hother
    rw [slotAt_shelve, slotAt_modifySlot_of_ne _ hother, setGeneration,
      slotAt_modifySlot_of_ne _ hother]
  · rw [slotAt_shelve, slotAt_modifySlot_self _ hlt', setGeneration, slotAt_modifySlot_self p hlt]
    exact ⟨rfl, rfl⟩

/-- **A parked page can be put on a new slot**; the old one is retired. -/
theorem rehouse (h : p.Placed deeds) {slot : Nat} {parked : Parked}
    (hparked : (p.slotAt slot).parked = some parked) :
    ((p.modifySlot slot fun _ => {}).addSlot.shelve parked.page p.slots.length).Placed deeds := by
  obtain ⟨hlt, -⟩ := h.of_parked hparked
  have hbefore : p.stays deeds = ⟨parked.page.id, slot, .parked⟩ ::ₘ
      (p.modifySlot slot fun _ => {}).stays deeds := stays_of_parked hlt hparked rfl
  have hlt' : slot < (p.modifySlot slot fun _ => {}).slots.length := by
    rw [length_slots_modifySlot]
    exact hlt
  refine h.replace hbefore ((stays_shelve _ _ _ _).trans (congrArg _ (stays_addSlot _ _))) rfl
    (made_shelve _ _ _) ?_ ?_ ?_ ?_ ?_ ?_
  · -- the new slot is behind all that are in use
    intro hmem
    obtain ⟨stay, hstay, hslot⟩ := Multiset.mem_map.mp hmem
    refine Nat.ne_of_lt (h.slot_lt stay ?_) hslot
    rw [hbefore]
    exact Multiset.mem_cons_of_mem hstay
  · rw [slots_shelve, length_slots_addSlot, length_slots_modifySlot]
    exact Nat.lt_succ_self _
  · rw [slots_shelve, length_slots_addSlot, length_slots_modifySlot]
    exact Nat.le_succ _
  · intro other hother _
    rw [slotAt_shelve, slotAt_addSlot, slotAt_modifySlot_of_ne p hother]
  · intro _
    rw [slotAt_shelve, slotAt_addSlot, slotAt_modifySlot_self p hlt]
  · rw [slotAt_shelve, slotAt_addSlot, slotAt_of_le _ (by rw [length_slots_modifySlot])]
    exact ⟨rfl, rfl⟩

end Placed

end Pool

end Wirepool
