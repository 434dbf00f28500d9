import Mathlib.Algebra.BigOperators.Fin
import Mathlib.Algebra.Order.BigOperators.Group.Finset
import Wirepool.Pool.Lending

/-!
# Where the pages of a pool are

A page is on the shelf of its class, or in the hands of a borrower, or parked on
a slot. The first and the third are seen in the pool, the second is not: who
holds pages has to be said beside it, by a *deed* for each of them. Pool and
deeds together give a multiset of *stays*, each a page at a place.

What is in a page does not matter here, so pages go by class and number.

A stay comes or goes with one summand of the multiset: the free pages of one
class, or what is parked on one slot. The lemmas say so for every change that a
pool makes to itself.
-/

namespace Wirepool

/-- **Which page it is**, whatever is in it: its class and its number there. -/
abbrev PageId := SizeClass × Nat

/-- Which page it is. -/
def Page.id (page : Page) : PageId := (page.sizeClass, page.serial)

/-- **Where a page can be.** -/
inductive Place where
  /-- On the shelf of a class. -/
  | shelf (c : SizeClass)
  /-- In the hands of a borrower, under a generation. -/
  | lent (generation : Nat)
  /-- Left with its slot by a loan that was detached. -/
  | parked
  deriving DecidableEq

/-- **A page at a place**, with the slot it is on. -/
structure Stay where
  page : PageId
  slot : Nat
  place : Place
  deriving DecidableEq

/-- **What a loan says of its page**, whatever is in it. -/
structure Deed where
  page : PageId
  slot : Nat
  generation : Nat
  deriving DecidableEq

/-- The stay of a page that is lent. -/
def Deed.stay (deed : Deed) : Stay := ⟨deed.page, deed.slot, .lent deed.generation⟩

/-- What a loan says of its page. -/
def Lease.deed (lease : Lease) : Deed := ⟨lease.page.id, lease.slot, lease.generation⟩

/-- The stay of a page on a shelf. -/
def Shelved.stay (c : SizeClass) (shelved : Shelved) : Stay :=
  ⟨shelved.page.id, shelved.slot, .shelf c⟩

/-- The stays on the shelf of a class. -/
def Shelf.stays (c : SizeClass) (shelf : Shelf) : Multiset Stay :=
  (shelf.free.map (Shelved.stay c) : List Stay)

/-- The pages of a class that were made. -/
def Shelf.made (c : SizeClass) (shelf : Shelf) : Multiset PageId :=
  (Multiset.range shelf.created).map fun serial => (c, serial)

/-- The stay on a slot, if a page is parked there. -/
def Slot.stays (number : Nat) (slot : Slot) : Multiset Stay :=
  match slot.parked with
  | some parked => {⟨parked.page.id, number, .parked⟩}
  | none => 0

namespace Pool

/-- **Where all pages are**, if those are lent of which the deeds speak. -/
def stays (p : Pool) (deeds : Multiset Deed) : Multiset Stay :=
  ∑ c, (p.shelf c).stays c + ∑ slot ∈ Finset.range p.slots.length, (p.slotAt slot).stays slot
    + deeds.map Deed.stay

/-- **All pages that were made.** -/
def made (p : Pool) : Multiset PageId := ∑ c, (p.shelf c).made c

/-! ## The parts of a changed pool -/

section Parts

variable (p : Pool)

/-- Another shelf for a class is the shelf of that class and of no other. -/
theorem shelf_setShelf (c d : SizeClass) (shelf : Shelf) :
    (p.setShelf c shelf).shelf d = if d = c then shelf else p.shelf d := by
  show (p.shelves.set c.val shelf c.isLt)[d.val] = _
  rw [Vector.getElem_set]
  by_cases h : d = c
  · rw [if_pos (congrArg Fin.val h).symm, if_pos h]
  · rw [if_neg fun hval => h (Fin.ext hval.symm), if_neg h]
    rfl

@[simp] theorem slotAt_setShelf (c : SizeClass) (shelf : Shelf) (slot : Nat) :
    (p.setShelf c shelf).slotAt slot = p.slotAt slot := rfl

@[simp] theorem slots_setShelf (c : SizeClass) (shelf : Shelf) :
    (p.setShelf c shelf).slots = p.slots := rfl

@[simp] theorem shelf_modifySlot (slot : Nat) (f : Slot → Slot) (c : SizeClass) :
    (p.modifySlot slot f).shelf c = p.shelf c := rfl

@[simp] theorem length_slots_modifySlot (slot : Nat) (f : Slot → Slot) :
    (p.modifySlot slot f).slots.length = p.slots.length := List.length_modify _ _ _

/-- A change of a slot is not seen on the others. -/
@[simp] theorem slotAt_modifySlot_of_ne {slot other : Nat} (h : other ≠ slot)
    (f : Slot → Slot) : (p.modifySlot slot f).slotAt other = p.slotAt other := by
  show ((p.slots.modify slot f)[other]?).getD ({} : Slot) = _
  rw [List.getElem?_modify_ne f _ (Ne.symm h)]
  rfl

/-- A change of a slot that exists is seen there. -/
@[simp] theorem slotAt_modifySlot_self {slot : Nat} (h : slot < p.slots.length)
    (f : Slot → Slot) : (p.modifySlot slot f).slotAt slot = f (p.slotAt slot) := by
  show ((p.slots.modify slot f)[slot]?).getD ({} : Slot) = f ((p.slots[slot]?).getD {})
  rw [List.getElem?_modify_eq, List.getElem?_eq_getElem h]
  rfl

@[simp] theorem shelf_addSlot (c : SizeClass) : p.addSlot.shelf c = p.shelf c := rfl

@[simp] theorem length_slots_addSlot : p.addSlot.slots.length = p.slots.length + 1 := by
  rw [addSlot, List.length_append, List.length_singleton]

/-- A slot that does not exist and one that is new are alike. -/
@[simp] theorem slotAt_addSlot (slot : Nat) : p.addSlot.slotAt slot = p.slotAt slot := by
  show ((p.slots ++ [({} : Slot)])[slot]?).getD {} = (p.slots[slot]?).getD {}
  rw [List.getElem?_append]
  by_cases h : slot < p.slots.length
  · rw [if_pos h]
  · rw [if_neg h, List.getElem?_eq_none (Nat.le_of_not_lt h)]
    rcases Nat.eq_zero_or_pos (slot - p.slots.length) with hz | hpos
    · rw [hz]
      rfl
    · rw [List.getElem?_eq_none (show [({} : Slot)].length ≤ _ from hpos)]

/-- There is nothing on a slot that does not exist. -/
theorem slotAt_of_le {slot : Nat} (h : p.slots.length ≤ slot) : p.slotAt slot = {} := by
  rw [slotAt, List.getElem?_eq_none h]
  rfl

@[simp] theorem slotAt_shelve (page : Page) (slot other : Nat) :
    (p.shelve page slot).slotAt other = p.slotAt other := rfl

@[simp] theorem slots_shelve (page : Page) (slot : Nat) :
    (p.shelve page slot).slots = p.slots := rfl

/-- A page that comes back lies on top of the shelf of its class. -/
theorem shelf_shelve (page : Page) (slot : Nat) (c : SizeClass) :
    (p.shelve page slot).shelf c =
      if c = page.sizeClass then
        { p.shelf page.sizeClass with free := ⟨page, slot⟩ :: (p.shelf page.sizeClass).free }
      else p.shelf c :=
  shelf_setShelf p page.sizeClass c _

end Parts

/-! ## One summand more -/

/-- **A sum in which one summand gets more** gets as much more. -/
theorem sum_eq_add_of_single {ι M : Type} [DecidableEq ι] [AddCommMonoid M] {s : Finset ι}
    {i : ι} (hi : i ∈ s) {f g : ι → M} {more : M} (hmore : g i = more + f i)
    (hothers : ∀ j ∈ s, j ≠ i → g j = f j) : ∑ j ∈ s, g j = more + ∑ j ∈ s, f j := by
  rw [← Finset.add_sum_erase s g hi, ← Finset.add_sum_erase s f hi, hmore, add_assoc]
  congr 2
  refine Finset.sum_congr rfl fun j hj => ?_
  exact hothers j (Finset.mem_of_mem_erase hj) (Finset.ne_of_mem_erase hj)

/-! ## Stays of a changed pool -/

section Stays

variable {p : Pool} {deeds : Multiset Deed}

/-- A deed is a stay. -/
theorem stays_cons (p : Pool) (deed : Deed) (deeds : Multiset Deed) :
    p.stays (deed ::ₘ deeds) = deed.stay ::ₘ p.stays deeds := by
  rw [stays, Multiset.map_cons, Multiset.add_cons]
  rfl

/-- **What stays where.** -/
theorem mem_stays {stay : Stay} :
    stay ∈ p.stays deeds ↔
      (∃ c, ∃ shelved ∈ (p.shelf c).free, shelved.stay c = stay) ∨
      (∃ slot parked, (p.slotAt slot).parked = some parked ∧
        ⟨parked.page.id, slot, .parked⟩ = stay) ∨
      ∃ deed ∈ deeds, deed.stay = stay := by
  have hshelf (c : SizeClass) : stay ∈ (p.shelf c).stays c ↔
      ∃ shelved ∈ (p.shelf c).free, shelved.stay c = stay := by
    rw [Shelf.stays, Multiset.mem_coe, List.mem_map]
  have hslot (slot : Nat) : stay ∈ (p.slotAt slot).stays slot ↔
      ∃ parked, (p.slotAt slot).parked = some parked ∧
        ⟨parked.page.id, slot, .parked⟩ = stay := by
    rw [Slot.stays]
    cases (p.slotAt slot).parked with
    | none => simp
    | some parked => simp [eq_comm]
  -- there is nothing on slots that do not exist
  have hrange : (∃ slot ∈ Finset.range p.slots.length, stay ∈ (p.slotAt slot).stays slot) ↔
      ∃ slot, stay ∈ (p.slotAt slot).stays slot := by
    refine ⟨fun ⟨slot, _, h⟩ => ⟨slot, h⟩, fun ⟨slot, h⟩ => ⟨slot, ?_, h⟩⟩
    by_contra hout
    rw [slotAt_of_le p (Nat.le_of_not_lt fun hlt => hout (Finset.mem_range.mpr hlt))] at h
    exact Multiset.notMem_zero _ h
  rw [stays, Multiset.mem_add, Multiset.mem_add, Multiset.mem_sum, Multiset.mem_sum, hrange,
    Multiset.mem_map, or_assoc]
  simp only [hshelf, hslot, Finset.mem_univ, true_and]

/-- Only shelves and slots have stays. -/
theorem stays_congr {q : Pool} (hshelf : ∀ c, (q.shelf c).stays c = (p.shelf c).stays c)
    (hlength : q.slots.length = p.slots.length)
    (hslot : ∀ slot, (q.slotAt slot).stays slot = (p.slotAt slot).stays slot) :
    q.stays deeds = p.stays deeds := by
  simp only [stays, hshelf, hlength, hslot]

/-- A page on top of a shelf stays there. -/
theorem stays_of_free {c : SizeClass} {top : Shelved} {free : List Shelved}
    (h : (p.shelf c).free = top :: free) :
    p.stays deeds = top.stay c ::ₘ (p.setShelf c { p.shelf c with free }).stays deeds := by
  have hsum : ∑ d, (p.shelf d).stays d =
      {top.stay c} + ∑ d, ((p.setShelf c { p.shelf c with free }).shelf d).stays d := by
    refine sum_eq_add_of_single (Finset.mem_univ c) ?_ fun d _ hd => ?_
    · rw [shelf_setShelf, if_pos rfl, Shelf.stays, h]
      rfl
    · rw [shelf_setShelf, if_neg hd]
  rw [stays, hsum, add_assoc, add_assoc, Multiset.singleton_add, ← add_assoc]
  rfl

/-- **A page that comes back** stays on the shelf of its class. -/
theorem stays_shelve (p : Pool) (page : Page) (slot : Nat) (deeds : Multiset Deed) :
    (p.shelve page slot).stays deeds =
      ⟨page.id, slot, .shelf page.sizeClass⟩ ::ₘ p.stays deeds := by
  have hsum : ∑ d, ((p.shelve page slot).shelf d).stays d =
      {⟨page.id, slot, .shelf page.sizeClass⟩} + ∑ d, (p.shelf d).stays d := by
    refine sum_eq_add_of_single (Finset.mem_univ page.sizeClass) ?_ fun d _ hd => ?_
    · rw [shelf_shelve, if_pos rfl]
      rfl
    · rw [shelf_shelve, if_neg hd]
  rw [stays, hsum, add_assoc, add_assoc, Multiset.singleton_add, ← add_assoc]
  rfl

/-- A slot that exists and gets a page has one stay more. -/
theorem stays_modifySlot_of_parked {slot : Nat} {f : Slot → Slot} {parked : Parked}
    (hslot : slot < p.slots.length) (hbefore : (p.slotAt slot).parked = none)
    (hafter : (f (p.slotAt slot)).parked = some parked) :
    (p.modifySlot slot f).stays deeds =
      ⟨parked.page.id, slot, .parked⟩ ::ₘ p.stays deeds := by
  have hsum : ∑ n ∈ Finset.range p.slots.length, ((p.modifySlot slot f).slotAt n).stays n =
      {⟨parked.page.id, slot, .parked⟩} +
        ∑ n ∈ Finset.range p.slots.length, (p.slotAt n).stays n := by
    refine sum_eq_add_of_single (Finset.mem_range.mpr hslot) ?_ fun n _ hn => ?_
    · simp only [slotAt_modifySlot_self p hslot, Slot.stays, hbefore, hafter, add_zero]
    · rw [slotAt_modifySlot_of_ne p hn]
  simp only [stays, length_slots_modifySlot, shelf_modifySlot]
  rw [hsum, ← Multiset.singleton_add, add_left_comm, add_assoc]

/-- A slot that exists and loses its page has one stay less. -/
theorem stays_of_parked {slot : Nat} {f : Slot → Slot} {parked : Parked}
    (hslot : slot < p.slots.length) (hbefore : (p.slotAt slot).parked = some parked)
    (hafter : (f (p.slotAt slot)).parked = none) :
    p.stays deeds =
      ⟨parked.page.id, slot, .parked⟩ ::ₘ (p.modifySlot slot f).stays deeds := by
  have hsum : ∑ n ∈ Finset.range p.slots.length, (p.slotAt n).stays n =
      {⟨parked.page.id, slot, .parked⟩} +
        ∑ n ∈ Finset.range p.slots.length, ((p.modifySlot slot f).slotAt n).stays n := by
    refine sum_eq_add_of_single (Finset.mem_range.mpr hslot) ?_ fun n _ hn => ?_
    · simp only [slotAt_modifySlot_self p hslot, Slot.stays, hbefore, hafter, add_zero]
    · rw [slotAt_modifySlot_of_ne p hn]
  simp only [stays, length_slots_modifySlot, shelf_modifySlot]
  rw [hsum, ← Multiset.singleton_add, add_left_comm, add_assoc]

/-- A change that leaves the parked page moves nothing. -/
theorem stays_modifySlot {slot : Nat} {f : Slot → Slot}
    (h : (f (p.slotAt slot)).parked = (p.slotAt slot).parked) :
    (p.modifySlot slot f).stays deeds = p.stays deeds := by
  refine stays_congr (fun c => rfl) (length_slots_modifySlot p slot f) fun n => ?_
  by_cases hn : n = slot
  · subst hn
    by_cases hlt : n < p.slots.length
    · rw [slotAt_modifySlot_self p hlt, Slot.stays, h]
      rfl
    · rw [slotAt_of_le _ (by rw [length_slots_modifySlot]; exact Nat.le_of_not_lt hlt),
        slotAt_of_le p (Nat.le_of_not_lt hlt)]
  · rw [slotAt_modifySlot_of_ne p hn]

/-- A new slot is empty. -/
theorem stays_addSlot (p : Pool) (deeds : Multiset Deed) :
    p.addSlot.stays deeds = p.stays deeds := by
  simp only [stays, length_slots_addSlot, Finset.sum_range_succ, slotAt_addSlot, shelf_addSlot]
  rw [slotAt_of_le p (Nat.le_refl _)]
  exact congrArg (· + _) (congrArg _ (add_zero _))

end Stays

/-! ## Pages made -/

section Made

variable {p : Pool}

/-- Pages are made by counting them. -/
theorem made_congr {q : Pool} (h : ∀ c, (q.shelf c).created = (p.shelf c).created) :
    q.made = p.made := by
  simp only [made, Shelf.made, h]

/-- A shelf that counts the same has made the same. -/
theorem made_setShelf {c : SizeClass} {shelf : Shelf} (h : shelf.created = (p.shelf c).created) :
    (p.setShelf c shelf).made = p.made := by
  refine made_congr fun d => ?_
  rw [shelf_setShelf]
  split
  · next hd => rw [h, hd]
  · rfl

/-- Nothing is made by a page that comes back. -/
@[simp] theorem made_shelve (p : Pool) (page : Page) (slot : Nat) :
    (p.shelve page slot).made = p.made := made_setShelf rfl

/-- **A shelf that counts one more** has made its next page. -/
theorem made_setShelf_succ {c : SizeClass} {shelf : Shelf}
    (h : shelf.created = (p.shelf c).created + 1) :
    (p.setShelf c shelf).made = (c, (p.shelf c).created) ::ₘ p.made := by
  have hsum : ∑ d, ((p.setShelf c shelf).shelf d).made d =
      {(c, (p.shelf c).created)} + ∑ d, (p.shelf d).made d := by
    refine sum_eq_add_of_single (Finset.mem_univ c) ?_ fun d _ hd => ?_
    · rw [shelf_setShelf, if_pos rfl, Shelf.made, h, Multiset.range_succ, Multiset.map_cons]
      rfl
    · rw [shelf_setShelf, if_neg hd]
  rw [made, hsum, Multiset.singleton_add]
  rfl

/-- **Each page was made once**, and those below the count of their class
were. -/
theorem count_made (p : Pool) (page : PageId) :
    p.made.count page = if page.2 < (p.shelf page.1).created then 1 else 0 := by
  have hone (c : SizeClass) : ((p.shelf c).made c).count page =
      if c = page.1 then (if page.2 < (p.shelf page.1).created then 1 else 0) else 0 := by
    by_cases hc : c = page.1
    · subst hc
      rw [if_pos rfl, Shelf.made, show page = (fun serial => (page.1, serial)) page.2 from rfl,
        Multiset.count_map_eq_count' _ _ (Prod.mk_right_injective page.1)]
      split
      · next hlt =>
        exact Multiset.count_eq_one_of_mem (Multiset.nodup_range _) (Multiset.mem_range.mpr hlt)
      · next hlt => exact Multiset.count_eq_zero.mpr fun hmem => hlt (Multiset.mem_range.mp hmem)
    · rw [if_neg hc, Multiset.count_eq_zero]
      intro hmem
      obtain ⟨serial, -, hpage⟩ := Multiset.mem_map.mp hmem
      exact hc (congrArg Prod.fst hpage)
  rw [made, Multiset.count_sum']
  simp only [hone, Finset.sum_ite_eq', Finset.mem_univ, if_true]

end Made

end Pool

end Wirepool
