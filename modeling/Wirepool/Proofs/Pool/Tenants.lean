import Wirepool.Proofs.Pool.Depot
import Wirepool.Proofs.Pool.Lends
import Wirepool.Proofs.Pool.Sound

/-!
# A pool makes the moves of a depot

Every transaction of a pool is a move of its depot, or none. A page that is parked is there
with all that its loan says, for the slot has kept the generation, so the depot does not
notice whether a page comes back by the loan or by a ticket. It does not notice either that
a page for which the last ticket is gone comes back on another slot: what counts is the
stack it is put on, and its bytes.

What a row of moves may contain is said by a *license*. That is how it can be told of an
action which pages it may write to, and that it does no more than give pages back.
-/

namespace Wirepool

/-! ## Licenses -/

/-- **What a row of moves may contain.** -/
structure License where
  lends : Bool := false
  /-- The pages that may be written to. -/
  writes : PageId → Prop := fun _ => False
  detaches : Bool := false
  regains : Bool := false
  collects : Bool := false

/-- A move that a license allows. -/
def Move.Within (license : License) : Move → Prop
  | lend _ _ => license.lends
  | write before _ => license.writes before.page.id
  | detach _ => license.detaches
  | regain _ => license.regains
  | collect _ => license.collects

/-- Whoever may only give back does nothing else. -/
theorem Move.exists_regain {move : Move} (h : move.Within { regains := true }) :
    ∃ lease, move = .regain lease := by
  cases move with
  | regain lease => exact ⟨lease, rfl⟩
  | write before after => exact h.elim
  | _ => cases h

/-- Whoever may only collect does nothing else. -/
theorem Move.exists_collect {move : Move} (h : move.Within { collects := true }) :
    ∃ lease, move = .collect lease := by
  cases move with
  | collect lease => exact ⟨lease, rfl⟩
  | write before after => exact h.elim
  | _ => cases h

/-- **A depot becomes another one** by moves that a license allows. -/
def Depot.Becomes (d : Depot) (license : License) (e : Depot) : Prop :=
  ∃ row, d.Goes row e ∧ ∀ move ∈ row, move.Within license

namespace Depot.Becomes

variable {d e f : Depot} {license : License}

theorem refl (d : Depot) (license : License) : d.Becomes license d :=
  ⟨[], .nil, fun _ hmove => absurd hmove List.not_mem_nil⟩

theorem single {move : Move} (h : d.Makes move e) (hmove : move.Within license) :
    d.Becomes license e :=
  ⟨[move], .single h, List.forall_mem_singleton.mpr hmove⟩

theorem trans (h : d.Becomes license e) (h' : e.Becomes license f) : d.Becomes license f := by
  obtain ⟨row, hrow, hwithin⟩ := h
  obtain ⟨later, hlater, hwithin'⟩ := h'
  exact ⟨row ++ later, hrow.append hlater, fun move hmove =>
    (List.mem_append.mp hmove).elim (hwithin move) (hwithin' move)⟩

end Depot.Becomes

/-- **A depot empties a slot**: what is parked there is collected, if there is something. -/
def Depot.Empties (d : Depot) (slot : Nat) (e : Depot) : Prop :=
  (d.parked slot = none ∧ e = d) ∨
    ∃ lease, d.parked slot = some lease ∧ d.Makes (.collect lease) e

namespace Depot.Empties

variable {d e : Depot} {slot : Nat}

theorem makes {lease : Lease} (h : d.Empties slot e) (hparked : d.parked slot = some lease) :
    d.Makes (.collect lease) e := by
  rcases h with ⟨hnone, -⟩ | ⟨other, hother, hmakes⟩
  · cases hnone.symm.trans hparked
  · cases hother.symm.trans hparked
    exact hmakes

theorem becomes {license : License} (h : d.Empties slot e) (hcollects : license.collects = true) :
    d.Becomes license e := by
  rcases h with ⟨-, rfl⟩ | ⟨lease, -, hmakes⟩
  · exact .refl _ _
  · exact .single hmakes hcollects

end Depot.Empties

/-! ## The depot of a pool -/

/-- The loan that was detached from the page on a slot, if one is parked there. -/
def Slot.lease? (home number : Nat) (slot : Slot) : Option Lease :=
  slot.parked.map fun parked =>
    ⟨home, number, parked.page, slot.generation, parked.len, parked.traced⟩

namespace Pool

/-- **The depot of the pool with the number `home`**, if its borrowers hold these loans. -/
def depot (p : Pool) (home : Nat) (held : Multiset Lease) : Depot where
  stack c := (p.shelf c).free.map Shelved.page
  made c := (p.shelf c).created
  held := held
  parked slot := (p.slotAt slot).lease? home slot

variable {p q : Pool} {deeds : Multiset Deed} {stubs : Multiset Stub} {home : Nat}
  {held : Multiset Lease} {license : License}

/-- Nothing but shelves and parked pages is seen of a pool. -/
theorem depot_congr (hshelf : ∀ c, q.shelf c = p.shelf c)
    (hslot : ∀ slot, (q.slotAt slot).lease? home slot = (p.slotAt slot).lease? home slot) :
    q.depot home held = p.depot home held := by
  refine Depot.ext (funext fun c => ?_) (funext fun c => ?_) rfl (funext hslot)
  · show (q.shelf c).free.map _ = _
    rw [hshelf]
    rfl
  · show (q.shelf c).created = _
    rw [hshelf]
    rfl

/-- The shelf of a page that comes back has it in front. -/
theorem shelf_shelve_of_class (p : Pool) (page : Page) (slot : Nat) (c : SizeClass) :
    (p.shelve page slot).shelf c = if c = page.sizeClass then
      { p.shelf c with free := ⟨page, slot⟩ :: (p.shelf c).free } else p.shelf c := by
  rw [shelf_shelve]
  split
  · next hc =>
    subst hc
    rfl
  · rfl

/-- **A page that comes back** is put on top, whatever slot it is on. -/
theorem depot_of_shelve {page : Page} {slot : Nat} {parked : Nat → Option Lease}
    (hshelf : ∀ c, q.shelf c = if c = page.sizeClass then
      { p.shelf c with free := ⟨page, slot⟩ :: (p.shelf c).free } else p.shelf c)
    (hslot : ∀ slot, (q.slotAt slot).lease? home slot = parked slot) (before : Multiset Lease) :
    q.depot home held = { (p.depot home before).push page with held, parked } := by
  refine Depot.ext (funext fun c => ?_) (funext fun c => ?_) rfl (funext hslot)
  · show (q.shelf c).free.map _ = Function.update (p.depot home before).stack _ _ c
    rw [hshelf]
    by_cases hc : c = page.sizeClass
    · subst hc
      rw [if_pos rfl, Function.update_self]
      rfl
    · rw [if_neg hc, Function.update_of_ne hc]
      rfl
  · show (q.shelf c).created = (p.shelf c).created
    rw [hshelf]
    split <;> rfl

/-- A slot without a page is no loan. -/
theorem lease?_of_none {slot number : Nat} (h : (p.slotAt slot).parked = none) :
    (p.slotAt slot).lease? home number = none := congrArg (Option.map _) h

/-- **What is parked is seen as it is** while all is steady. -/
theorem Steady.lease?_eq (h : p.Steady q) (home slot : Nat) :
    (q.slotAt slot).lease? home slot = (p.slotAt slot).lease? home slot := by
  cases hparked : (p.slotAt slot).parked with
  | some parked =>
    obtain ⟨hsame, hgeneration⟩ := h.keepsSlot slot parked hparked
    rw [Slot.lease?, hsame, hgeneration, Slot.lease?]
  | none =>
    -- nothing was parked there, and nothing is
    have hnone : (q.slotAt slot).parked = none :=
      (h.slot slot).elim (fun hkeeps => hkeeps.1.trans hparked) fun hrenews => hrenews.1
    rw [lease?_of_none hnone, lease?_of_none hparked]

/-! ## Borrowing -/

/-- **The page that is acquired** is the one on top. -/
theorem page_of_acquire {c : SizeClass} {shelved : Shelved} {events : List Event}
    (h : p.acquire c = ⟨q, events, .ok shelved⟩) (home : Nat) (held : Multiset Lease) :
    shelved.page = (p.depot home held).top c := by
  show _ = ((p.shelf c).free.map Shelved.page).headD (.fresh c (p.shelf c).created)
  cases hfree : (p.shelf c).free with
  | cons top free =>
    simp only [acquire, hfree] at h
    cases h
    rfl
  | nil =>
    simp only [acquire, hfree] at h
    cases h
    rfl

/-- **The page that is lent** is the one on top, cleared if zeros are asked for. -/
theorem page_of_borrow {len : Nat} {zero traced : Bool} {c : SizeClass} {events : List Event}
    {lease : Lease} (h : p.Placed deeds) (hclass : SizeClass.ofLength? len = some c)
    (hborrow : p.borrow home len zero traced = ⟨q, events, .ok (.pooled lease)⟩)
    (held : Multiset Lease) :
    lease.page = if zero then ((p.depot home held).top c).clear len
      else (p.depot home held).top c := by
  obtain ⟨r, shelved, told, hacquire, -⟩ := h.acquires c
  rw [← page_of_acquire hacquire home held]
  simp only [borrow, hclass, hacquire, lend] at hborrow
  split at hborrow
  · cases hborrow
    rfl
  · cases hborrow

/-- **Borrowing** is a loan of the page on top. -/
theorem Placed.makes_borrow (h : p.Placed deeds) {len : Nat} {c : SizeClass}
    (hclass : SizeClass.ofLength? len = some c) (home : Nat) (zero traced : Bool) :
    ∃ q lease events, p.borrow home len zero traced = ⟨q, events, .ok (.pooled lease)⟩ ∧
      lease.home = home ∧ lease.len = len ∧
      ∀ held, (p.depot home held).Makes (.lend lease zero) (q.depot home (lease ::ₘ held)) := by
  obtain ⟨q, lease, events, hborrow, hhome, rfl, hlends⟩ := h.lends_borrow hclass home zero traced
  refine ⟨q, lease, events, hborrow, hhome, rfl, fun held => ?_⟩
  have hafter : q.depot home (lease ::ₘ held) =
      { (p.depot home held).pop c with held := lease ::ₘ held } := by
    refine Depot.ext (funext fun d => ?_) (funext fun d => ?_) rfl (funext fun slot => ?_)
    · show (q.shelf d).free.map _ = Function.update (p.depot home held).stack _ _ d
      by_cases hd : d = c
      · subst hd
        rw [Function.update_self, hlends.free, List.map_tail]
        rfl
      · rw [Function.update_of_ne hd, hlends.shelf d hd]
        rfl
    · show (q.shelf d).created = Function.update (p.depot home held).made _ _ d
      by_cases hd : d = c
      · subst hd
        rw [Function.update_self, hlends.created]
        simp only [depot, List.map_eq_nil_iff]
      · rw [Function.update_of_ne hd, hlends.shelf d hd]
        rfl
    · show (q.slotAt slot).lease? home slot = (p.slotAt slot).lease? home slot
      rw [hlends.slotAt]
      split
      · next hself =>
        -- nothing is parked on a slot without a generation
        have hnone : (p.slotAt slot).parked = none := by
          cases hparked : (p.slotAt slot).parked with
          | none => rfl
          | some parked => exact absurd (hself ▸ hlends.vacant) (h.of_parked hparked).2
        simp only [Slot.lease?, hnone, Option.map_none]
      · rfl
  rw [hafter]
  exact .lend hclass (page_of_borrow h hclass hborrow held)

/-! ## Giving back -/

/-- **What is given back** is put on top as it was held. -/
theorem Placed.makes_reclaim {lease : Lease} (h : p.Placed (lease.deed ::ₘ deeds))
    (home : Nat) (held : Multiset Lease) :
    ∃ q, p.reclaim lease = ⟨q, [], .ok ()⟩ ∧
      (p.depot home (lease ::ₘ held)).Makes (.regain lease) (q.depot home held) := by
  obtain ⟨hlt, -, -, hparked⟩ : lease.slot < p.slots.length ∧ _ ∧ _ ∧
    (p.slotAt lease.slot).parked = none := h.of_deed (Multiset.mem_cons_self _ _)
  let q := (p.setGeneration lease.slot 0).shelve lease.page lease.slot
  have hafter : q.depot home held =
      { (p.depot home (lease ::ₘ held)).push lease.page with held } := by
    refine depot_of_shelve (shelf_shelve_of_class _ _ lease.slot) (fun slot => ?_) (lease ::ₘ held)
    show (q.slotAt slot).lease? home slot = (p.slotAt slot).lease? home slot
    by_cases hslot : slot = lease.slot
    · subst hslot
      rw [slotAt_shelve, setGeneration, slotAt_modifySlot_self p hlt]
      simp only [Slot.lease?, hparked, Option.map_none]
    · rw [slotAt_shelve, setGeneration, slotAt_modifySlot_of_ne p hslot]
  refine ⟨q, h.reclaim.1, ?_⟩
  rw [hafter]
  exact .regain rfl

/-- **What is lost** is put on top all the same. -/
theorem Placed.makes_lose {lease : Lease} (h : p.Placed (lease.deed ::ₘ deeds))
    (home : Nat) (held : Multiset Lease) :
    ∃ q events, p.lose lease = ⟨q, events, .ok ()⟩ ∧
      (p.depot home (lease ::ₘ held)).Makes (.regain lease) (q.depot home held) := by
  have hcounted : { p with leaked := p.leaked + 1 }.Placed (lease.deed ::ₘ deeds) :=
    h.of_eq rfl rfl
  obtain ⟨q, hreclaim, hmakes⟩ := hcounted.makes_reclaim home held
  exact ⟨q, _, by rw [Pool.lose, hreclaim], hmakes⟩

/-- **A loan that is detached** leaves its page as it was held. -/
theorem Placed.makes_park {lease : Lease} (h : p.Placed (lease.deed ::ₘ deeds))
    (held : Multiset Lease) :
    (p.depot lease.home (lease ::ₘ held)).Makes (.detach lease)
      ((p.park lease).depot lease.home held) := by
  obtain ⟨hlt, hgeneration, -, hparked⟩ : lease.slot < p.slots.length ∧
    (p.slotAt lease.slot).generation = lease.generation ∧ _ ∧
    (p.slotAt lease.slot).parked = none := h.of_deed (Multiset.mem_cons_self _ _)
  let before := p.depot lease.home (lease ::ₘ held)
  have hafter : (p.park lease).depot lease.home held =
      { before with held, parked := Function.update before.parked lease.slot (some lease) } := by
    refine Depot.ext rfl rfl rfl (funext fun slot => ?_)
    show ((p.park lease).slotAt slot).lease? lease.home slot =
      Function.update before.parked lease.slot (some lease) slot
    by_cases hslot : slot = lease.slot
    · subst hslot
      rw [Function.update_self, Pool.park, slotAt_modifySlot_self p hlt]
      simp only [Slot.lease?, Option.map_some, hgeneration]
    · rw [Function.update_of_ne hslot, Pool.park, slotAt_modifySlot_of_ne p hslot]
      rfl
  rw [hafter]
  exact .detach rfl (lease?_of_none hparked)

/-! ## Tickets -/

/-- **A parked page that comes back** is put on top as it was left. -/
theorem makes_collect {parked : Parked} {slot new : Nat}
    (hparked : (p.slotAt slot).parked = some parked)
    (hshelf : ∀ c, q.shelf c = if c = parked.page.sizeClass then
      { p.shelf c with free := ⟨parked.page, new⟩ :: (p.shelf c).free } else p.shelf c)
    (hself : (q.slotAt slot).parked = none)
    (hothers : ∀ other, other ≠ slot → q.slotAt other = p.slotAt other)
    (home : Nat) (held : Multiset Lease) :
    (p.depot home held).Makes (.collect ⟨home, slot, parked.page, (p.slotAt slot).generation,
      parked.len, parked.traced⟩) (q.depot home held) := by
  let before := p.depot home held
  have hafter : q.depot home held =
      { before.push parked.page with parked := Function.update before.parked slot none } := by
    refine depot_of_shelve hshelf (fun other => ?_) held
    by_cases hother : other = slot
    · subst hother
      rw [Function.update_self, lease?_of_none hself]
    · rw [Function.update_of_ne hother, hothers other hother]
      rfl
  rw [hafter]
  exact .collect (congrArg (Option.map _) hparked)

/-- **A slot that is retired** is emptied. -/
theorem Placed.empties_retire (h : p.Placed deeds) (slot home : Nat) (held : Multiset Lease) :
    ∃ q events, p.retire slot = ⟨q, events, .ok ()⟩ ∧
      (p.depot home held).Empties slot (q.depot home held) := by
  cases hparked : (p.slotAt slot).parked with
  | none => exact ⟨p, [], Sound.retire_of_none hparked, .inl ⟨lease?_of_none hparked, rfl⟩⟩
  | some parked =>
    obtain ⟨hlt, -⟩ := h.of_parked hparked
    let left := ({ p with leaked := p.leaked + 1 }.modifySlot slot fun _ => {}).addSlot
    let q := left.shelve parked.page p.slots.length
    have hothers (other : Nat) (hother : other ≠ slot) : q.slotAt other = p.slotAt other := by
      rw [slotAt_shelve, slotAt_addSlot]
      exact slotAt_modifySlot_of_ne _ hother _
    have hself : (q.slotAt slot).parked = none := by
      rw [slotAt_shelve, slotAt_addSlot]
      exact congrArg Slot.parked (slotAt_modifySlot_self _ hlt _)
    have hmakes := makes_collect (q := q) hparked
      (left.shelf_shelve_of_class parked.page p.slots.length) hself hothers home held
    exact ⟨q, _, Sound.retire_of_parked h hparked,
      .inr ⟨_, congrArg (Option.map _) hparked, hmakes⟩⟩

/-- How many tickets there are is not seen. -/
theorem depot_countOut (p : Pool) (slot home : Nat) (held : Multiset Lease) :
    (p.countOut slot).depot home held = p.depot home held := by
  have hsteady : p.Steady (p.countOut slot) := .modifySlot p slot (fun _ => rfl) fun _ => rfl
  exact depot_congr (fun _ => rfl) (hsteady.lease?_eq home)

/-- **The last ticket for a slot** that is thrown away empties the slot, and any other ticket just
goes. -/
theorem Sound.empties_discardTicket {stub : Stub} (h : p.Sound deeds (stub ::ₘ stubs))
    (home : Nat) (held : Multiset Lease) :
    ∃ q events, p.discardTicket stub.slot = ⟨q, events, .ok ()⟩ ∧
      (stub.slot ∈ stubs.map Stub.slot → q.depot home held = p.depot home held) ∧
      (stub.slot ∉ stubs.map Stub.slot →
        (p.depot home held).Empties stub.slot (q.depot home held)) := by
  have hcounted : (p.countOut stub.slot).Sound deeds stubs := h.dropTicket
  have hcount := hcounted.tickets_eq stub.slot
  show ∃ q events, (if ((p.countOut stub.slot).slotAt stub.slot).tickets = 0 then
    (p.countOut stub.slot).retire stub.slot else ⟨p.countOut stub.slot, [], .ok ()⟩) =
      (⟨q, events, .ok ()⟩ : Transaction Unit) ∧ _
  rw [hcount, ← depot_countOut p stub.slot home held]
  by_cases hothers : stub.slot ∈ stubs.map Stub.slot
  · rw [if_neg (Multiset.count_ne_zero.mpr hothers)]
    exact ⟨_, [], rfl, fun _ => rfl, absurd hothers⟩
  · rw [if_pos (Multiset.count_eq_zero.mpr hothers)]
    obtain ⟨q, events, hretire, hempties⟩ :=
      hcounted.placed.empties_retire stub.slot home held
    exact ⟨q, events, hretire, fun h => absurd h hothers, fun _ => hempties⟩

/-- **A ticket that is thrown away** goes, or makes what is parked on its slot come back. -/
theorem Sound.becomes_discardTicket {stub : Stub} (h : p.Sound deeds (stub ::ₘ stubs))
    (home : Nat) (held : Multiset Lease) (hcollects : license.collects = true) :
    ∃ q events, p.discardTicket stub.slot = ⟨q, events, .ok ()⟩ ∧
      (p.depot home held).Becomes license (q.depot home held) := by
  obtain ⟨q, events, hdiscard, hsame, hempties⟩ := h.empties_discardTicket home held
  refine ⟨q, events, hdiscard, ?_⟩
  by_cases hothers : stub.slot ∈ stubs.map Stub.slot
  · rw [hsame hothers]
    exact .refl _ _
  · exact (hempties hothers).becomes hcollects

/-- **A ticket that is handed in** makes what is parked on its slot come back, if it is good
for it. Otherwise it goes as if it had been thrown away. -/
theorem Sound.becomes_redeem {stub : Stub} (h : p.Sound deeds (stub ::ₘ stubs)) (home : Nat)
    (held : Multiset Lease) (hcollects : license.collects = true) :
    ∃ q events, p.redeem stub.slot stub.generation = ⟨q, events,
        if (p.slotAt stub.slot).generation = stub.generation then .ok ()
        else .error .generationMismatch⟩ ∧
      (p.depot home held).Becomes license (q.depot home held) := by
  by_cases hgood : (p.slotAt stub.slot).generation = stub.generation
  · obtain ⟨parked, q, hparked, hredeem, hback⟩ :=
      h.redeem_of_eq (Multiset.mem_cons_self _ _) hgood
    rw [if_pos hgood]
    exact ⟨q, [], hredeem, .single (makes_collect hparked hback.shelf
      (congrArg Slot.parked hback.slotAt_self) hback.slotAt_of_ne home held) hcollects⟩
  · obtain ⟨q, events, hdiscard, hbecomes⟩ := h.becomes_discardTicket home held hcollects
    rw [if_neg hgood]
    exact ⟨q, events, by rw [redeem_of_ne hgood, hdiscard], hbecomes⟩

end Pool

end Wirepool
