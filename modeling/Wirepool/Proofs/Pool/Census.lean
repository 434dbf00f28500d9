import Mathlib.Algebra.Order.BigOperators.Group.Multiset
import Wirepool.Proofs.Pool.Placed

/-!
# How many pages of a class are where

Since every page that was made is in one place, the pages of a class that were made
are those on its shelf and those that are lent, be it that somebody holds them or
that they are parked. So a pool by itself tells how many are lent.
-/

namespace Wirepool

namespace Pool

/-- The number of slots on which a page of a class is parked. -/
def parkedCount (p : Pool) (c : SizeClass) : Nat :=
  ((Finset.range p.slots.length).filter fun slot =>
    (p.slotAt slot).parked.map (fun parked => parked.page.sizeClass) = some c).card

/-- **The number of pages of a class that are lent**, if the deeds speak of those that
somebody holds. A page that is parked is still lent. -/
def lentCount (p : Pool) (deeds : Multiset Deed) (c : SizeClass) : Nat :=
  deeds.countP (fun deed => deed.page.1 = c) + p.parkedCount c

section Census

variable {p : Pool} {deeds : Multiset Deed}

/-- Pages of a class are made for that class. -/
theorem countP_made (p : Pool) (c : SizeClass) :
    p.made.countP (fun page => page.1 = c) = (p.shelf c).created := by
  have hone (d : SizeClass) : ((p.shelf d).made d).countP (fun page => page.1 = c) =
      if d = c then (p.shelf d).created else 0 := by
    rw [Shelf.made, Multiset.countP_map]
    by_cases hd : d = c
    · simp [hd]
    · simp [hd]
  rw [made, ← Multiset.coe_countPAddMonoidHom, map_sum]
  simp only [Multiset.coe_countPAddMonoidHom, hone, Finset.sum_ite_eq', Finset.mem_univ, if_true]

/-- Pages on a shelf are of its class. -/
theorem Placed.countP_shelf (h : p.Placed deeds) (c d : SizeClass) :
    (((p.shelf d).stays d).map Stay.page).countP (fun page => page.1 = c) =
      if d = c then (p.shelf d).free.length else 0 := by
  rw [Shelf.stays, Multiset.map_coe, Multiset.coe_countP, List.map_map, List.countP_map]
  have hclass (shelved : Shelved) (hfree : shelved ∈ (p.shelf d).free) :
      shelved.page.sizeClass = d := (h.of_free hfree).2.2.1
  by_cases hd : d = c
  · rw [if_pos hd, List.countP_eq_length]
    intro shelved hfree
    exact decide_eq_true ((hclass shelved hfree).trans hd)
  · rw [if_neg hd, List.countP_eq_zero]
    intro shelved hfree hc
    exact hd ((hclass shelved hfree).symm.trans (of_decide_eq_true hc))

/-- What is parked on a slot is one page at most. -/
theorem countP_stays_slot (slot : Slot) (number : Nat) (c : SizeClass) :
    ((slot.stays number).map Stay.page).countP (fun page => page.1 = c) =
      if slot.parked.map (fun parked => parked.page.sizeClass) = some c then 1 else 0 := by
  rw [Slot.stays]
  cases slot.parked with
  | none => rfl
  | some parked =>
    show Multiset.countP _ (Multiset.map Stay.page {_}) = _
    rw [Multiset.map_singleton, ← Multiset.cons_zero, Multiset.countP_cons, Multiset.countP_zero,
      Nat.zero_add]
    by_cases hc : parked.page.sizeClass = c
    · simp [Page.id, hc]
    · simp [Page.id, hc]

/-- **The pages of a class that were made** are on its shelf or lent. -/
theorem Placed.created_eq (h : p.Placed deeds) (c : SizeClass) :
    (p.shelf c).created = (p.shelf c).free.length + p.lentCount deeds c := by
  rw [← countP_made p c, ← h.made_eq, stays, Multiset.map_add, Multiset.map_add,
    Multiset.countP_add, Multiset.countP_add]
  have hshelves : (Multiset.map Stay.page (∑ d, (p.shelf d).stays d)).countP
      (fun page => page.1 = c) = (p.shelf c).free.length := by
    rw [← Multiset.coe_mapAddMonoidHom, map_sum, ← Multiset.coe_countPAddMonoidHom, map_sum]
    simp only [Multiset.coe_mapAddMonoidHom, Multiset.coe_countPAddMonoidHom, h.countP_shelf,
      Finset.sum_ite_eq', Finset.mem_univ, if_true]
  have hslots : (Multiset.map Stay.page (∑ slot ∈ Finset.range p.slots.length,
      (p.slotAt slot).stays slot)).countP (fun page => page.1 = c) = p.parkedCount c := by
    rw [← Multiset.coe_mapAddMonoidHom, map_sum, ← Multiset.coe_countPAddMonoidHom, map_sum,
      parkedCount, Finset.card_filter]
    simp only [Multiset.coe_mapAddMonoidHom, Multiset.coe_countPAddMonoidHom, countP_stays_slot]
  have hdeeds : (Multiset.map Stay.page (deeds.map Deed.stay)).countP (fun page => page.1 = c) =
      deeds.countP fun deed => deed.page.1 = c := by
    rw [Multiset.map_map, Multiset.countP_map, Multiset.countP_eq_card_filter]
    rfl
  rw [hshelves, hslots, hdeeds, lentCount, add_assoc, add_comm (p.parkedCount c)]

end Census

end Pool

end Wirepool
