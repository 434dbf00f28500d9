import Wirepool.Proofs.Pool.Moves

/-!
# Tickets

Tickets for a slot outlive the loans they were made for: a ticket that was
handed in leaves its copies behind, and the slot may lend its page again. What
keeps them harmless is that generations only grow. A ticket bears the
generation of a loan that was detached, so no page that is lent now has that
generation, and if the slot has it, the page of that loan is still parked there.

A *stub* is what a ticket says: its slot and its generation. A pool is sound for
deeds and stubs if every page is in one place, the slots count the stubs, and no
stub has the generation of a page that is lent.
-/

namespace Wirepool

/-- **What a ticket says** of the loan that was detached. -/
structure Stub where
  slot : Nat
  generation : Nat
  deriving DecidableEq

namespace Pool

/-- **A pool in order**, with the pages that are lent and the tickets that are
out. -/
structure Sound (p : Pool) (deeds : Multiset Deed) (stubs : Multiset Stub) : Prop where
  /-- Every page is in one place. -/
  placed : p.Placed deeds
  /-- Slots count their tickets. -/
  tickets_eq : ∀ slot, (p.slotAt slot).tickets = (stubs.map Stub.slot).count slot
  /-- No slot is ahead of the pool. -/
  generation_le : ∀ slot, (p.slotAt slot).generation ≤ p.generation
  /-- Tickets are for loans that were made. -/
  stub_made : ∀ stub ∈ stubs, stub.generation ≠ 0 ∧ stub.generation ≤ p.generation
  /-- Tickets are for loans that are not in anybody's hands. -/
  not_lent : ∀ stub ∈ stubs, ∀ deed ∈ deeds, deed.slot = stub.slot →
    deed.generation ≠ stub.generation

/-- **A slot keeps what is parked on it**, and the generation it is parked
under. -/
def KeepsSlot (p q : Pool) (slot : Nat) : Prop :=
  (q.slotAt slot).parked = (p.slotAt slot).parked ∧
    (q.slotAt slot).generation = (p.slotAt slot).generation

theorem KeepsSlot.of_eq {p q : Pool} {slot : Nat} (h : q.slotAt slot = p.slotAt slot) :
    p.KeepsSlot q slot := by
  rw [KeepsSlot, h]
  exact ⟨rfl, rfl⟩

theorem KeepsSlot.trans {p q r : Pool} {slot : Nat} (h : p.KeepsSlot q slot)
    (h' : q.KeepsSlot r slot) : p.KeepsSlot r slot :=
  ⟨h'.1.trans h.1, h'.2.trans h.2⟩

/-- **A slot is renewed**: no page is parked on it, and its generation is none or
later than all that there were. -/
def Renews (p q : Pool) (slot : Nat) : Prop :=
  (q.slotAt slot).parked = none ∧
    ((q.slotAt slot).generation = 0 ∨ p.generation < (q.slotAt slot).generation)

/-- What is renewed from then on is so from before. -/
theorem Renews.of_le {p q r : Pool} {slot : Nat} (h : q.Renews r slot)
    (hle : p.generation ≤ q.generation) : p.Renews r slot :=
  ⟨h.1, h.2.imp id (Nat.lt_of_le_of_lt hle)⟩

/-- What is renewed and kept is renewed. -/
theorem Renews.trans_keepsSlot {p q r : Pool} {slot : Nat} (h : p.Renews q slot)
    (h' : q.KeepsSlot r slot) : p.Renews r slot := by
  refine ⟨h'.1.trans h.1, ?_⟩
  rw [h'.2]
  exact h.2

/-- **A pool ages**: generations only grow, and a slot is kept as it is or
renewed. So what is parked at the end was parked before, on the same slot and
under the same generation. -/
structure Ages (p q : Pool) : Prop where
  generation_le : p.generation ≤ q.generation
  slot : ∀ slot, p.KeepsSlot q slot ∨ p.Renews q slot

namespace Ages

variable {p q r : Pool}

theorem refl (p : Pool) : p.Ages p :=
  ⟨Nat.le_refl _, fun _ => .inl (.of_eq rfl)⟩

theorem trans (h : p.Ages q) (h' : q.Ages r) : p.Ages r := by
  refine ⟨Nat.le_trans h.generation_le h'.generation_le, fun slot => ?_⟩
  rcases h'.slot slot with hkeeps' | hrenews'
  · exact (h.slot slot).imp (fun hkeeps => hkeeps.trans hkeeps') fun hrenews =>
      hrenews.trans_keepsSlot hkeeps'
  · exact .inr (hrenews'.of_le h.generation_le)

/-- A pool ages if one slot is renewed, and the others stay as they are. -/
theorem of_renews (slot : Nat) (hle : p.generation ≤ q.generation) (hself : p.Renews q slot)
    (hothers : ∀ other, other ≠ slot → q.slotAt other = p.slotAt other) : p.Ages q := by
  refine ⟨hle, fun other => ?_⟩
  by_cases hother : other = slot
  · rw [hother]
    exact .inr hself
  · exact .inl (.of_eq (hothers other hother))

end Ages

/-- A change of a slot that leaves its generation and its page. -/
theorem keepsSlot_modifySlot (p : Pool) (slot : Nat) {f : Slot → Slot}
    (hparked : ∀ s, (f s).parked = s.parked) (hgeneration : ∀ s, (f s).generation = s.generation)
    (other : Nat) : p.KeepsSlot (p.modifySlot slot f) other := by
  by_cases hother : other = slot
  · subst hother
    by_cases hlt : other < p.slots.length
    · rw [KeepsSlot, slotAt_modifySlot_self p hlt]
      exact ⟨hparked _, hgeneration _⟩
    · have hout : (p.modifySlot other f).slots.length ≤ other := by
        rw [length_slots_modifySlot]
        exact Nat.le_of_not_lt hlt
      exact .of_eq ((slotAt_of_le _ hout).trans (slotAt_of_le p (Nat.le_of_not_lt hlt)).symm)
  · exact .of_eq (slotAt_modifySlot_of_ne p hother _)

/-- **What is parked stays**, while a pool ages. -/
structure Steady (p q : Pool) : Prop extends p.Ages q where
  keepsSlot : ∀ slot parked, (p.slotAt slot).parked = some parked → p.KeepsSlot q slot

namespace Steady

variable {p q r : Pool}

/-- Other figures change nothing. -/
theorem of_eq (hslots : q.slots = p.slots) (hgeneration : q.generation = p.generation) :
    p.Steady q := by
  have hkeeps (slot : Nat) : p.KeepsSlot q slot := .of_eq (by rw [slotAt, hslots, slotAt])
  exact ⟨⟨Nat.le_of_eq hgeneration.symm, fun slot => .inl (hkeeps slot)⟩,
    fun slot _ _ => hkeeps slot⟩

theorem refl (p : Pool) : p.Steady p :=
  of_eq rfl rfl

theorem trans (h : p.Steady q) (h' : q.Steady r) : p.Steady r := by
  refine ⟨h.toAges.trans h'.toAges, fun slot parked hparked => ?_⟩
  have hkeeps := h.keepsSlot slot parked hparked
  exact hkeeps.trans (h'.keepsSlot slot parked (hkeeps.1.trans hparked))

/-- All is steady if a slot on which nothing is parked is renewed. -/
theorem of_renews (slot : Nat) (hle : p.generation ≤ q.generation)
    (hbefore : (p.slotAt slot).parked = none) (hself : p.Renews q slot)
    (hothers : ∀ other, other ≠ slot → q.slotAt other = p.slotAt other) : p.Steady q := by
  refine ⟨.of_renews slot hle hself hothers, fun other parked hparked => ?_⟩
  refine .of_eq (hothers other ?_)
  rintro rfl
  rw [hbefore] at hparked
  cases hparked

/-- All is steady after a change of a slot that leaves its generation and its
page. -/
theorem modifySlot (p : Pool) (slot : Nat) {f : Slot → Slot}
    (hparked : ∀ s, (f s).parked = s.parked) (hgeneration : ∀ s, (f s).generation = s.generation) :
    p.Steady (p.modifySlot slot f) := by
  have hkeeps := p.keepsSlot_modifySlot slot hparked hgeneration
  exact ⟨⟨Nat.le_refl _, fun other => .inl (hkeeps other)⟩, fun other _ _ => hkeeps other⟩

end Steady

/-- **What is parked stays where a ticket is good for it**, while a pool ages. -/
structure Frees (p q : Pool) (stubs : Multiset Stub) : Prop extends p.Ages q where
  keepsSlot : ∀ stub ∈ stubs, (p.slotAt stub.slot).generation = stub.generation →
    p.KeepsSlot q stub.slot

namespace Frees

variable {p q r : Pool} {stubs : Multiset Stub}

theorem refl (p : Pool) (stubs : Multiset Stub) : p.Frees p stubs :=
  ⟨.refl p, fun _ _ _ => .of_eq rfl⟩

theorem trans (h : p.Frees q stubs) (h' : q.Frees r stubs) : p.Frees r stubs := by
  refine ⟨h.toAges.trans h'.toAges, fun stub hstub hgood => ?_⟩
  have hkeeps := h.keepsSlot stub hstub hgood
  exact hkeeps.trans (h'.keepsSlot stub hstub (hkeeps.2.trans hgood))

/-- Fewer tickets keep fewer slots. -/
theorem mono {fewer : Multiset Stub} (h : p.Frees q stubs) (hfewer : fewer ⊆ stubs) :
    p.Frees q fewer :=
  ⟨h.toAges, fun stub hstub => h.keepsSlot stub (hfewer hstub)⟩

/-- A slot that no ticket is good for can be renewed. -/
theorem of_renews (slot : Nat) (hle : p.generation ≤ q.generation) (hself : p.Renews q slot)
    (hothers : ∀ other, other ≠ slot → q.slotAt other = p.slotAt other)
    (hstubs : ∀ stub ∈ stubs, (p.slotAt stub.slot).generation = stub.generation →
      stub.slot ≠ slot) : p.Frees q stubs :=
  ⟨.of_renews slot hle hself hothers,
    fun stub hstub hgood => .of_eq (hothers stub.slot (hstubs stub hstub hgood))⟩

end Frees

/-- The report on a page that is parked on a slot, if its loan is lost. -/
def parkedReport (slot : Slot) (parked : Parked) : LeakReport :=
  ⟨parked.page.block.size, parked.len, slot.generation, parked.traced⟩

/-- The pool with one ticket less for a slot. Nothing else is different. -/
def countOut (p : Pool) (slot : Nat) : Pool :=
  p.modifySlot slot fun s => { s with tickets := s.tickets - 1 }

/-- **A pool takes the page of a detached loan back**, for a ticket that is gone
then: the page is on top of the shelf of its class, with the content it had, its
slot is free, and one page more was given back. Nothing else is different. -/
structure TakesBack (p : Pool) (slot : Nat) (page : Page) (q : Pool) : Prop where
  shelf : ∀ c, q.shelf c = if c = page.sizeClass then
    { p.shelf c with free := ⟨page, slot⟩ :: (p.shelf c).free } else p.shelf c
  slotAt_self : q.slotAt slot = ⟨0, none, (p.slotAt slot).tickets - 1⟩
  slotAt_of_ne : ∀ other, other ≠ slot → q.slotAt other = p.slotAt other
  generation : q.generation = p.generation
  borrowed : q.borrowed = p.borrowed
  released : q.released = p.released + 1
  bypassed : q.bypassed = p.bypassed
  leaked : q.leaked = p.leaked

/-- A fresh pool is in order. -/
theorem sound_empty : ({} : Pool).Sound 0 0 := by
  have hslot (slot : Nat) : ({} : Pool).slotAt slot = {} := slotAt_of_le _ (Nat.zero_le slot)
  refine ⟨placed_empty, fun slot => ?_, fun slot => ?_, ?_, ?_⟩
  · rw [hslot, Multiset.map_zero, Multiset.count_zero]
  · rw [hslot]
  · intro stub hstub
    cases hstub
  · intro stub hstub
    cases hstub

namespace Sound

variable {p q : Pool} {deeds deeds' : Multiset Deed} {stubs : Multiset Stub}

/-! ## What a ticket is good for -/

/-- Tickets are for slots that exist. -/
theorem slot_lt (h : p.Sound deeds stubs) {stub : Stub} (hstub : stub ∈ stubs) :
    stub.slot < p.slots.length := by
  by_contra hge
  have hcount := h.tickets_eq stub.slot
  rw [slotAt_of_le p (Nat.le_of_not_lt hge)] at hcount
  exact Multiset.count_eq_zero.mp hcount.symm (Multiset.mem_map_of_mem _ hstub)

/-- **A ticket whose generation is on its slot** is for a page that is parked
there. -/
theorem exists_parked (h : p.Sound deeds stubs) {stub : Stub} (hstub : stub ∈ stubs)
    (hgood : (p.slotAt stub.slot).generation = stub.generation) :
    ∃ parked, (p.slotAt stub.slot).parked = some parked := by
  have hpos : (p.slotAt stub.slot).generation ≠ 0 := hgood ▸ (h.stub_made stub hstub).1
  rcases h.placed.lent_or_parked hpos with ⟨deed, hdeed, hslot⟩ | hparked
  · have hlent := (h.placed.of_deed hdeed).2.1
    rw [hslot, hgood] at hlent
    exact absurd hlent.symm (h.not_lent stub hstub deed hdeed hslot)
  · exact hparked

/-! ## Steps that leave the tickets -/

/-- **A step that moves pages and no tickets.** Loans that are new have
generations that are new. -/
theorem keep (h : p.Sound deeds stubs) (hplaced : q.Placed deeds')
    (htickets : ∀ slot, (q.slotAt slot).tickets = (p.slotAt slot).tickets)
    (hle : p.generation ≤ q.generation)
    (hgeneration : ∀ slot, (q.slotAt slot).generation ≤ q.generation)
    (hdeeds : ∀ deed ∈ deeds', deed ∈ deeds ∨ p.generation < deed.generation) :
    q.Sound deeds' stubs := by
  refine ⟨hplaced, fun slot => ?_, hgeneration, fun stub hstub => ?_, ?_⟩
  · rw [htickets, h.tickets_eq]
  · exact ⟨(h.stub_made stub hstub).1, Nat.le_trans (h.stub_made stub hstub).2 hle⟩
  · intro stub hstub deed hdeed hslot
    rcases hdeeds deed hdeed with hold | hnew
    · exact h.not_lent stub hstub deed hold hslot
    · exact Nat.ne_of_gt (Nat.lt_of_le_of_lt (h.stub_made stub hstub).2 hnew)

/-- A pool with other figures. -/
theorem of_eq (h : p.Sound deeds stubs) (hshelves : q.shelves = p.shelves)
    (hslots : q.slots = p.slots) (hgeneration : q.generation = p.generation) :
    q.Sound deeds stubs := by
  have hslot (slot : Nat) : q.slotAt slot = p.slotAt slot := by rw [slotAt, hslots, slotAt]
  refine h.keep (h.placed.of_eq hshelves hslots) (fun slot => by rw [hslot])
    (Nat.le_of_eq hgeneration.symm) (fun slot => ?_) fun deed hdeed => .inl hdeed
  rw [hslot, hgeneration]
  exact h.generation_le slot

/-- **Borrowing from a pool** gives a page of the class that serves the length,
under the next generation. It never fails. -/
theorem borrow (h : p.Sound deeds stubs) {len : Nat} {c : SizeClass}
    (hclass : SizeClass.ofLength? len = some c) (home : Nat) (zero traced : Bool) :
    ∃ q lease events, p.borrow home len zero traced = ⟨q, events, .ok (.pooled lease)⟩ ∧
      q.Sound (lease.deed ::ₘ deeds) stubs ∧ p.Steady q ∧ lease.home = home ∧
      lease.len = len ∧ lease.page.sizeClass = c ∧ lease.generation = p.generation + 1 := by
  obtain ⟨q, lease, events, heq, hplaced, hhome, hlen, hc, hnext, hlast, hself, hothers⟩ :=
    h.placed.borrow hclass home zero traced
  have hparked := (hplaced.of_deed (Multiset.mem_cons_self _ _)).2.2.2
  have hbefore : (p.slotAt lease.slot).parked = none :=
    (congrArg Slot.parked hself).symm.trans hparked
  have hle : p.generation ≤ q.generation := by
    rw [hlast]
    exact Nat.le_succ _
  have hrenews : p.Renews q lease.slot := by
    refine ⟨hparked, .inr ?_⟩
    rw [hself]
    exact Nat.lt_succ_self _
  refine ⟨q, lease, events, heq, ?_, .of_renews lease.slot hle hbefore hrenews hothers, hhome,
    hlen, hc, hnext⟩
  refine h.keep hplaced (fun slot => ?_) hle (fun slot => ?_) ?_
  · by_cases hslot : slot = lease.slot
    · rw [hslot, hself]
    · rw [hothers slot hslot]
  · rw [hlast]
    by_cases hslot : slot = lease.slot
    · rw [hslot, hself]
    · rw [hothers slot hslot]
      exact Nat.le_succ_of_le (h.generation_le slot)
  · -- the new loan has a generation that no ticket can have
    intro deed hdeed
    rcases Multiset.mem_cons.mp hdeed with rfl | hdeed
    · exact .inr (by rw [Lease.deed, hnext]; exact Nat.lt_succ_self _)
    · exact .inl hdeed

/-- A slot that loses its generation is not ahead of the pool. -/
theorem generation_setGeneration_le (h : p.Sound deeds stubs) {slot : Nat}
    (hlt : slot < p.slots.length) (other : Nat) :
    ((p.setGeneration slot 0).slotAt other).generation ≤ p.generation := by
  rw [setGeneration]
  by_cases hother : other = slot
  · rw [hother, slotAt_modifySlot_self p hlt]
    exact Nat.zero_le _
  · rw [slotAt_modifySlot_of_ne p hother]
    exact h.generation_le other

/-- Another generation on a slot is no ticket. -/
theorem tickets_setGeneration {slot : Nat} (hlt : slot < p.slots.length) (generation other : Nat) :
    ((p.setGeneration slot generation).slotAt other).tickets = (p.slotAt other).tickets := by
  rw [setGeneration]
  by_cases hother : other = slot
  · rw [hother, slotAt_modifySlot_self p hlt]
  · rw [slotAt_modifySlot_of_ne p hother]

/-- **A page that is lent can be given back.** -/
theorem reclaim {lease : Lease} (h : p.Sound (lease.deed ::ₘ deeds) stubs) :
    p.reclaim lease = ⟨(p.setGeneration lease.slot 0).shelve lease.page lease.slot, [], .ok ()⟩ ∧
      ((p.setGeneration lease.slot 0).shelve lease.page lease.slot).Sound deeds stubs ∧
      p.Steady ((p.setGeneration lease.slot 0).shelve lease.page lease.slot) := by
  obtain ⟨hreclaim, hplaced⟩ := h.placed.reclaim
  obtain ⟨hlt, -, -, hparked⟩ := h.placed.of_deed (Multiset.mem_cons_self _ _)
  refine ⟨hreclaim, h.keep hplaced (tickets_setGeneration hlt 0) (Nat.le_refl _)
    (h.generation_setGeneration_le hlt) fun deed hdeed => .inl (Multiset.mem_cons_of_mem hdeed),
    .of_renews lease.slot (Nat.le_refl _) hparked ⟨?_, .inl ?_⟩ fun other hother =>
      slotAt_modifySlot_of_ne p hother _⟩
  · exact (congrArg Slot.parked (slotAt_modifySlot_self p hlt _)).trans hparked
  · exact congrArg Slot.generation (slotAt_modifySlot_self p hlt _)

/-- **A page that is lent can be lost**, and comes back all the same. -/
theorem lose {lease : Lease} (h : p.Sound (lease.deed ::ₘ deeds) stubs) :
    ∃ q, p.lose lease = ⟨q, [.leaked (leakReport lease)], .ok ()⟩ ∧ q.Sound deeds stubs ∧
      p.Steady q := by
  have h' : { p with leaked := p.leaked + 1 }.Sound (lease.deed ::ₘ deeds) stubs :=
    h.of_eq rfl rfl rfl
  have hcounted : p.Steady { p with leaked := p.leaked + 1 } := .of_eq rfl rfl
  obtain ⟨hreclaim, hsound, hsteady⟩ := h'.reclaim
  refine ⟨_, ?_, hsound, hcounted.trans hsteady⟩
  rw [Pool.lose, hreclaim]

/-! ## Tickets that come and go -/

/-- **A loan that is detached** leaves one ticket. -/
theorem park {lease : Lease} (h : p.Sound (lease.deed ::ₘ deeds) stubs) :
    (p.park lease).Sound deeds (⟨lease.slot, lease.generation⟩ ::ₘ stubs) := by
  obtain ⟨hlt, hgeneration, hpos, -⟩ := h.placed.of_deed (Multiset.mem_cons_self _ _)
  have hself : (p.park lease).slotAt lease.slot = { p.slotAt lease.slot with
      parked := some ⟨lease.page, lease.len, lease.traced⟩,
      tickets := (p.slotAt lease.slot).tickets + 1 } := slotAt_modifySlot_self p hlt _
  have hothers (slot : Nat) (hne : slot ≠ lease.slot) :
      (p.park lease).slotAt slot = p.slotAt slot := slotAt_modifySlot_of_ne p hne _
  refine ⟨h.placed.park, fun slot => ?_, fun slot => ?_, fun stub hstub => ?_, ?_⟩
  · rw [Multiset.map_cons]
    by_cases hslot : slot = lease.slot
    · rw [hslot, hself, h.tickets_eq, Multiset.count_cons_self]
    · rw [hothers slot hslot, h.tickets_eq, Multiset.count_cons_of_ne hslot]
  · show _ ≤ p.generation
    by_cases hslot : slot = lease.slot
    · rw [hslot, hself]
      exact h.generation_le _
    · rw [hothers slot hslot]
      exact h.generation_le slot
  · rcases Multiset.mem_cons.mp hstub with rfl | hstub
    · exact ⟨hpos, Nat.le_trans (Nat.le_of_eq hgeneration.symm) (h.generation_le _)⟩
    · exact h.stub_made stub hstub
  · intro stub hstub deed hdeed hslot
    rcases Multiset.mem_cons.mp hstub with rfl | hstub
    · -- another page that is lent would be on the same slot
      intro _
      have hone : lease.deed.stay ∈ p.stays (lease.deed ::ₘ deeds) := by
        rw [stays_cons]
        exact Multiset.mem_cons_self _ _
      have hnodup := h.placed.slots_nodup
      rw [stays_cons, Multiset.map_cons, Multiset.nodup_cons] at hnodup
      refine hnodup.1 (Multiset.mem_map.mpr ⟨deed.stay, ?_, hslot⟩)
      exact mem_stays.mpr (.inr (.inr ⟨deed, hdeed, rfl⟩))
    · exact h.not_lent stub hstub deed (Multiset.mem_cons_of_mem hdeed) hslot

/-- **A ticket that is copied** is out twice. -/
theorem copyTicket {stub : Stub} (h : p.Sound deeds stubs) (hstub : stub ∈ stubs) :
    (p.copyTicket stub.slot).Sound deeds (stub ::ₘ stubs) ∧
      p.Steady (p.copyTicket stub.slot) := by
  have hself : (p.copyTicket stub.slot).slotAt stub.slot = { p.slotAt stub.slot with
      tickets := (p.slotAt stub.slot).tickets + 1 } :=
    slotAt_modifySlot_self p (h.slot_lt hstub) _
  have hothers (slot : Nat) (hne : slot ≠ stub.slot) :
      (p.copyTicket stub.slot).slotAt slot = p.slotAt slot := slotAt_modifySlot_of_ne p hne _
  have hmem (other : Stub) (hother : other ∈ stub ::ₘ stubs) : other ∈ stubs := by
    rcases Multiset.mem_cons.mp hother with rfl | hother
    · exact hstub
    · exact hother
  refine ⟨⟨h.placed.modifySlot rfl rfl, fun slot => ?_, fun slot => ?_,
    fun other hother => h.stub_made other (hmem other hother),
    fun other hother => h.not_lent other (hmem other hother)⟩,
    .modifySlot p stub.slot (fun _ => rfl) fun _ => rfl⟩
  · rw [Multiset.map_cons]
    by_cases hslot : slot = stub.slot
    · rw [hslot, hself, h.tickets_eq, Multiset.count_cons_self]
    · rw [hothers slot hslot, h.tickets_eq, Multiset.count_cons_of_ne hslot]
  · show _ ≤ p.generation
    by_cases hslot : slot = stub.slot
    · rw [hslot, hself]
      exact h.generation_le _
    · rw [hothers slot hslot]
      exact h.generation_le slot

/-- A ticket that goes leaves the rest in order, before anybody looks whether it
was the last one. -/
theorem dropTicket {stub : Stub} (h : p.Sound deeds (stub ::ₘ stubs)) :
    (p.modifySlot stub.slot fun s => { s with tickets := s.tickets - 1 }).Sound deeds stubs := by
  have hlt := h.slot_lt (Multiset.mem_cons_self stub stubs)
  have hself := slotAt_modifySlot_self p hlt fun s => { s with tickets := s.tickets - 1 }
  have hothers (slot : Nat) (hne : slot ≠ stub.slot) :=
    slotAt_modifySlot_of_ne p hne fun s => { s with tickets := s.tickets - 1 }
  refine ⟨h.placed.modifySlot rfl rfl, fun slot => ?_, fun slot => ?_,
    fun other hother => h.stub_made other (Multiset.mem_cons_of_mem hother),
    fun other hother => h.not_lent other (Multiset.mem_cons_of_mem hother)⟩
  · have hcount := h.tickets_eq slot
    rw [Multiset.map_cons] at hcount
    by_cases hslot : slot = stub.slot
    · subst hslot
      rw [hself]
      show (p.slotAt stub.slot).tickets - 1 = _
      rw [hcount, Multiset.count_cons_self, Nat.add_sub_cancel]
    · rw [hothers slot hslot, hcount, Multiset.count_cons_of_ne hslot]
  · show _ ≤ p.generation
    by_cases hslot : slot = stub.slot
    · rw [hslot, hself]
      exact h.generation_le _
    · rw [hothers slot hslot]
      exact h.generation_le slot

/-! ## The last ticket -/

/-- **A slot without a parked page** is retired without a trace. -/
theorem retire_of_none {slot : Nat} (hparked : (p.slotAt slot).parked = none) :
    p.retire slot = ⟨p, [], .ok ()⟩ := by
  rw [Pool.retire, hparked]

/-- **A slot with a parked page** is retired with a report, and the page is on
another slot afterwards. -/
theorem retire_of_parked (h : p.Placed deeds) {slot : Nat} {parked : Parked}
    (hparked : (p.slotAt slot).parked = some parked) :
    p.retire slot = ⟨({ p with leaked := p.leaked + 1 }.modifySlot slot fun _ => {}).addSlot.shelve
      parked.page p.slots.length, [.leaked (parkedReport (p.slotAt slot) parked)], .ok ()⟩ := by
  simp only [Pool.retire, hparked, if_neg (h.of_parked hparked).2, length_slots_modifySlot]
  rfl

/-- Whatever is steady frees nothing in a pool in order. -/
theorem frees_of_steady (h : p.Sound deeds stubs) (hsteady : p.Steady q) : p.Frees q stubs := by
  refine ⟨hsteady.toAges, fun stub hstub hgood => ?_⟩
  obtain ⟨parked, hparked⟩ := h.exists_parked hstub hgood
  exact hsteady.keepsSlot stub.slot parked hparked

/-- **A slot whose last ticket is gone can be retired.** -/
theorem retire (h : p.Sound deeds stubs) {slot : Nat} (hlast : (p.slotAt slot).tickets = 0) :
    ∃ q events, p.retire slot = ⟨q, events, .ok ()⟩ ∧ q.Sound deeds stubs ∧ p.Frees q stubs := by
  cases hparked : (p.slotAt slot).parked with
  | none => exact ⟨p, [], retire_of_none hparked, h, h.frees_of_steady (.refl p)⟩
  | some parked =>
    obtain ⟨hlt, -⟩ := h.placed.of_parked hparked
    -- only the slot itself looks different afterwards: it is as new
    have hslots (other : Nat) : (({ p with leaked := p.leaked + 1 }.modifySlot slot
        fun _ => {}).addSlot.shelve parked.page p.slots.length).slotAt other =
        if other = slot then {} else p.slotAt other := by
      rw [slotAt_shelve, slotAt_addSlot]
      by_cases hother : other = slot
      · rw [if_pos hother, hother]
        exact slotAt_modifySlot_self p hlt _
      · rw [if_neg hother]
        exact slotAt_modifySlot_of_ne p hother _
    refine ⟨_, _, retire_of_parked h.placed hparked, ?_,
      .of_renews slot (Nat.le_refl _) ⟨?_, .inl ?_⟩ (fun other hother => ?_)
        fun stub hstub _ hslot => ?_⟩
    · refine h.keep ((h.placed.rehouse hparked).of_eq rfl rfl) (fun other => ?_) (Nat.le_refl _)
        (fun other => ?_) fun deed hdeed => .inl hdeed
      · rw [hslots]
        split
        · next hother => rw [hother, hlast]
        · rfl
      · rw [hslots]
        split
        · exact Nat.zero_le _
        · exact h.generation_le other
    · rw [hslots slot, if_pos rfl]
    · rw [hslots slot, if_pos rfl]
    · rw [hslots, if_neg hother]
    · -- a slot without tickets has none left
      have hcount := h.tickets_eq slot
      rw [hlast] at hcount
      exact Multiset.count_eq_zero.mp hcount.symm (hslot ▸ Multiset.mem_map_of_mem _ hstub)

/-- **A ticket can be thrown away**, spent or not. -/
theorem discardTicket {stub : Stub} (h : p.Sound deeds (stub ::ₘ stubs)) :
    ∃ q events, p.discardTicket stub.slot = ⟨q, events, .ok ()⟩ ∧ q.Sound deeds stubs ∧
      p.Frees q stubs := by
  have hdropped := h.dropTicket
  have hsteady : p.Steady (p.modifySlot stub.slot fun s => { s with tickets := s.tickets - 1 }) :=
    .modifySlot p stub.slot (fun _ => rfl) fun _ => rfl
  have hfrees := (h.frees_of_steady hsteady).mono (Multiset.subset_cons stubs stub)
  rw [Pool.discardTicket]
  split
  · next hlast =>
    obtain ⟨q, events, hretire, hsound, hfrees'⟩ := hdropped.retire hlast
    exact ⟨q, events, hretire, hsound, hfrees.trans hfrees'⟩
  · exact ⟨_, _, rfl, hdropped, hfrees⟩

/-- **A ticket that is not the last one of its slot** just goes. -/
theorem discardTicket_of_others {stub : Stub} (h : p.Sound deeds (stub ::ₘ stubs))
    (hothers : ∃ other ∈ stubs, other.slot = stub.slot) :
    p.discardTicket stub.slot =
      ⟨p.modifySlot stub.slot fun s => { s with tickets := s.tickets - 1 }, [], .ok ()⟩ := by
  obtain ⟨other, hother, hslot⟩ := hothers
  have hcount := h.dropTicket.tickets_eq stub.slot
  have hpos : 0 < (stubs.map Stub.slot).count stub.slot :=
    Multiset.count_pos.mpr (hslot ▸ Multiset.mem_map_of_mem _ hother)
  rw [Pool.discardTicket, if_neg (hcount.symm ▸ Nat.ne_of_gt hpos)]

/-- **A ticket for a slot without a parked page** just goes, whether it is the last
one or not. -/
theorem discardTicket_of_none {slot : Nat} (hparked : (p.slotAt slot).parked = none) :
    p.discardTicket slot = ⟨p.countOut slot, [], .ok ()⟩ := by
  have hkeeps := p.keepsSlot_modifySlot slot (f := fun s => { s with tickets := s.tickets - 1 })
    (fun _ => rfl) (fun _ => rfl) slot
  have hretire : (p.countOut slot).retire slot = ⟨p.countOut slot, [], .ok ()⟩ :=
    retire_of_none (hkeeps.1.trans hparked)
  show (if ((p.countOut slot).slotAt slot).tickets = 0 then (p.countOut slot).retire slot
    else ⟨p.countOut slot, [], .ok ()⟩) = _
  rw [hretire, ite_self]

/-- **The last ticket of a slot with a parked page** does not go unnoticed: the
loan is counted and told, and the page is on top of its shelf. -/
theorem discardTicket_of_parked {stub : Stub} {parked : Parked}
    (h : p.Sound deeds (stub ::ₘ stubs)) (hlast : ∀ other ∈ stubs, other.slot ≠ stub.slot)
    (hparked : (p.slotAt stub.slot).parked = some parked) :
    ∃ q slot, p.discardTicket stub.slot =
        ⟨q, [.leaked (parkedReport (p.slotAt stub.slot) parked)], .ok ()⟩ ∧
      q.leaked = p.leaked + 1 ∧ q.released = p.released + 1 ∧
      ∀ c, (q.shelf c).free = if c = parked.page.sizeClass then
        ⟨parked.page, slot⟩ :: (p.shelf c).free else (p.shelf c).free := by
  have hcount := h.dropTicket.tickets_eq stub.slot
  have hzero : (stubs.map Stub.slot).count stub.slot = 0 := by
    refine Multiset.count_eq_zero.mpr fun hmem => ?_
    obtain ⟨other, hother, hslot⟩ := Multiset.mem_map.mp hmem
    exact hlast other hother hslot
  -- one ticket less leaves the page parked, and then nothing keeps the slot
  have hself := slotAt_modifySlot_self p (h.slot_lt (Multiset.mem_cons_self _ _))
    fun s => { s with tickets := s.tickets - 1 }
  have hretire := retire_of_parked h.dropTicket.placed ((congrArg Slot.parked hself).trans hparked)
  rw [hself, length_slots_modifySlot] at hretire
  rw [Pool.discardTicket, if_pos (hcount.trans hzero)]
  refine ⟨_, p.slots.length, hretire, rfl, rfl, fun c => ?_⟩
  rw [shelf_shelve]
  by_cases hc : c = parked.page.sizeClass
  · rw [if_pos hc, if_pos hc, hc]
    rfl
  · rw [if_neg hc, if_neg hc]
    rfl

/-! ## Handing a ticket in -/

/-- **A ticket whose generation is on its slot** is good for the page that is
parked there. -/
theorem unpark_of_eq {stub : Stub} (h : p.Sound deeds stubs) (hstub : stub ∈ stubs)
    (hgood : (p.slotAt stub.slot).generation = stub.generation) :
    ∃ parked, (p.slotAt stub.slot).parked = some parked ∧
      p.unpark stub.slot stub.generation =
        ⟨((p.setGeneration stub.slot 0).modifySlot stub.slot
          fun s => { s with parked := none }).shelve parked.page stub.slot, [], .ok ()⟩ ∧
      (((p.setGeneration stub.slot 0).modifySlot stub.slot
          fun s => { s with parked := none }).shelve parked.page stub.slot).Sound deeds stubs ∧
      p.Frees (((p.setGeneration stub.slot 0).modifySlot stub.slot
          fun s => { s with parked := none }).shelve parked.page stub.slot)
        (stubs.filter (· ≠ stub)) := by
  obtain ⟨parked, hparked⟩ := h.exists_parked hstub hgood
  have hlt := h.slot_lt hstub
  have hlt' : stub.slot < (p.setGeneration stub.slot 0).slots.length := by
    rw [setGeneration, length_slots_modifySlot]
    exact hlt
  -- taking the page off its slot is nothing to tickets and generations
  have hslots (other : Nat) : ((((p.setGeneration stub.slot 0).modifySlot stub.slot
      fun s => { s with parked := none }).shelve parked.page stub.slot).slotAt other).tickets =
        ((p.setGeneration stub.slot 0).slotAt other).tickets ∧
      ((((p.setGeneration stub.slot 0).modifySlot stub.slot
      fun s => { s with parked := none }).shelve parked.page stub.slot).slotAt other).generation =
        ((p.setGeneration stub.slot 0).slotAt other).generation := by
    rw [slotAt_shelve]
    by_cases hother : other = stub.slot
    · rw [hother, slotAt_modifySlot_self _ hlt']
      exact ⟨rfl, rfl⟩
    · rw [slotAt_modifySlot_of_ne _ hother]
      exact ⟨rfl, rfl⟩
  refine ⟨parked, hparked, ?_, ?_,
    .of_renews stub.slot (Nat.le_refl _) ⟨?_, .inl ?_⟩ (fun other hother => ?_)
      fun other hother hgood' hslot => ?_⟩
  · simp only [Pool.unpark, if_pos hgood, hparked]
  · refine h.keep (h.placed.unpark hparked) (fun other => ?_) (Nat.le_refl _) (fun other => ?_)
      fun deed hdeed => .inl hdeed
    · rw [(hslots other).1, tickets_setGeneration hlt]
    · rw [(hslots other).2]
      exact h.generation_setGeneration_le hlt other
  · exact congrArg Slot.parked (slotAt_modifySlot_self _ hlt' _)
  · rw [(hslots stub.slot).2]
    exact congrArg Slot.generation (slotAt_modifySlot_self p hlt _)
  · rw [slotAt_shelve, slotAt_modifySlot_of_ne _ hother, setGeneration,
      slotAt_modifySlot_of_ne p hother]
  · -- another ticket that is good on this slot would be the same one
    rw [hslot, hgood] at hgood'
    refine (Multiset.mem_filter.mp hother).2 ?_
    obtain ⟨slot, generation⟩ := other
    cases hslot
    cases hgood'
    rfl

/-- **A ticket whose generation is not on its slot** is good for nothing. -/
theorem unpark_of_ne {slot generation : Nat} (hbad : (p.slotAt slot).generation ≠ generation) :
    p.unpark slot generation = ⟨p, [], .error .generationMismatch⟩ := by
  rw [Pool.unpark, if_neg hbad]

/-- **A good ticket** is honoured: the page that is parked on its slot comes back. -/
theorem redeem_of_eq {stub : Stub} (h : p.Sound deeds stubs) (hstub : stub ∈ stubs)
    (hgood : (p.slotAt stub.slot).generation = stub.generation) :
    ∃ parked q, (p.slotAt stub.slot).parked = some parked ∧
      p.redeem stub.slot stub.generation = ⟨q, [], .ok ()⟩ ∧
      p.TakesBack stub.slot parked.page q := by
  obtain ⟨parked, hparked, hunpark, -, -⟩ := h.unpark_of_eq hstub hgood
  have hlt := h.slot_lt hstub
  have hlt' : stub.slot < (p.setGeneration stub.slot 0).slots.length := by
    rw [setGeneration, length_slots_modifySlot]
    exact hlt
  let freed := ((p.setGeneration stub.slot 0).modifySlot stub.slot
    fun s => { s with parked := none }).shelve parked.page stub.slot
  have hself : freed.slotAt stub.slot = ⟨0, none, (p.slotAt stub.slot).tickets⟩ := by
    rw [slotAt_shelve, slotAt_modifySlot_self _ hlt', setGeneration, slotAt_modifySlot_self p hlt]
  have hothers (other : Nat) (hne : other ≠ stub.slot) : freed.slotAt other = p.slotAt other := by
    rw [slotAt_shelve, slotAt_modifySlot_of_ne _ hne, setGeneration, slotAt_modifySlot_of_ne p hne]
  have hlt'' : stub.slot < freed.slots.length := by
    rw [slots_shelve, length_slots_modifySlot]
    exact hlt'
  -- nothing is parked on the slot any more when the ticket goes
  have hdiscard := discardTicket_of_none (congrArg Slot.parked hself)
  refine ⟨parked, freed.countOut stub.slot, hparked, ?_, fun c => ?_, ?_, fun other hne => ?_,
    rfl, rfl, rfl, rfl, rfl⟩
  · rw [Pool.redeem, hunpark]
    dsimp only
    rw [hdiscard]
    rfl
  · show freed.shelf c = _
    rw [shelf_shelve]
    by_cases hc : c = parked.page.sizeClass
    · rw [if_pos hc, if_pos hc, hc]
      rfl
    · rw [if_neg hc, if_neg hc]
      rfl
  · rw [countOut, slotAt_modifySlot_self freed hlt'', hself]
  · rw [countOut, slotAt_modifySlot_of_ne freed hne, hothers other hne]

/-- **Any other ticket** is thrown away, and that is all. -/
theorem redeem_of_ne {slot generation : Nat} (hbad : (p.slotAt slot).generation ≠ generation) :
    p.redeem slot generation =
      { p.discardTicket slot with result := .error .generationMismatch } := by
  rw [Pool.redeem, unpark_of_ne hbad]
  rfl

/-- **A ticket can be handed in.** It is gone afterwards, and it was good just
if its generation was on its slot. -/
theorem redeem {stub : Stub} (h : p.Sound deeds (stub ::ₘ stubs)) :
    ∃ q events, p.redeem stub.slot stub.generation = ⟨q, events,
        if (p.slotAt stub.slot).generation = stub.generation then .ok ()
        else .error .generationMismatch⟩ ∧ q.Sound deeds stubs ∧
      p.Frees q (stubs.filter (· ≠ stub)) := by
  by_cases hgood : (p.slotAt stub.slot).generation = stub.generation
  · obtain ⟨parked, -, hunpark, hsound, hfrees⟩ :=
      h.unpark_of_eq (Multiset.mem_cons_self _ _) hgood
    rw [Multiset.filter_cons_of_neg stubs (not_not_intro (rfl : stub = stub))] at hfrees
    obtain ⟨q, events, hdiscard, hsound', hfrees'⟩ := hsound.discardTicket
    refine ⟨q, [] ++ events, ?_, hsound', hfrees.trans (hfrees'.mono (Multiset.filter_subset _ _))⟩
    simp only [Pool.redeem, hunpark, hdiscard, if_pos hgood]
  · obtain ⟨q, events, hdiscard, hsound, hfrees⟩ := h.discardTicket
    refine ⟨q, events, ?_, hsound, hfrees.mono (Multiset.filter_subset _ _)⟩
    rw [redeem_of_ne hgood, hdiscard, if_neg hgood]

end Sound

end Pool

end Wirepool
