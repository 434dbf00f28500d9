import Wirepool.Proofs.Pool.Stays

/-!
# Every page is in one place

The invariant of a pool and of those who hold its pages: every page that was
made stays at exactly one place, no two pages are on one slot, and the number on
a slot says where its page is. The number is zero for a page on a shelf, the
generation of the loan for a page that is lent, and not zero for a page that is
parked; a slot without a page has zero.

Everything a pool does moves one page from one place to another or makes a page.
So there are two lemmas about the invariant as such, one for a page that moves
and one for a page that is made, and every operation is an instance.
-/

namespace Wirepool

/-- **The number on the slot says where the page is.** -/
def Stay.Agrees (stay : Stay) (generation : Nat) : Prop :=
  match stay.place with
  | .shelf c => generation = 0 ∧ c = stay.page.1
  | .lent g => generation = g ∧ g ≠ 0
  | .parked => generation ≠ 0

namespace Pool

/-- **Every page is in one place.** -/
structure Placed (p : Pool) (deeds : Multiset Deed) : Prop where
  /-- The pages that stay somewhere are the pages that were made. -/
  made_eq : (p.stays deeds).map Stay.page = p.made
  /-- No two pages are on one slot. -/
  slots_nodup : ((p.stays deeds).map Stay.slot).Nodup
  /-- Pages are on slots that exist. -/
  slot_lt : ∀ stay ∈ p.stays deeds, stay.slot < p.slots.length
  /-- The number on the slot says where the page is. -/
  agrees : ∀ stay ∈ p.stays deeds, stay.Agrees (p.slotAt stay.slot).generation
  /-- A slot without a page has no generation. -/
  exists_stay : ∀ slot, (p.slotAt slot).generation ≠ 0 → ∃ stay ∈ p.stays deeds, stay.slot = slot

/-- The pool with a fresh page as the only one on the shelf of a class. That is
how an empty shelf serves a request: a page is put there first. -/
def withFresh (p : Pool) (c : SizeClass) : Pool :=
  p.addSlot.setShelf c
    ⟨(p.shelf c).created + 1, [⟨.fresh c (p.shelf c).created, p.slots.length⟩]⟩

theorem free_withFresh (p : Pool) (c : SizeClass) :
    ((p.withFresh c).shelf c).free = [⟨.fresh c (p.shelf c).created, p.slots.length⟩] := by
  rw [withFresh, shelf_setShelf, if_pos rfl]

@[simp] theorem slotAt_withFresh (p : Pool) (c : SizeClass) (slot : Nat) :
    (p.withFresh c).slotAt slot = p.slotAt slot := by
  rw [withFresh, slotAt_setShelf, slotAt_addSlot]

/-- A fresh pool has no pages. -/
theorem placed_empty : ({} : Pool).Placed 0 := by
  have hshelf (c : SizeClass) : ({} : Pool).shelf c = {} := by
    show (Vector.replicate classCount ({} : Shelf))[c.val] = {}
    rw [Vector.getElem_replicate]
  have hstays : ({} : Pool).stays 0 = 0 := by
    refine Multiset.eq_zero_of_forall_notMem fun stay hmem => ?_
    rcases mem_stays.mp hmem with ⟨c, shelved, hfree, -⟩ | ⟨slot, parked, hparked, -⟩ |
      ⟨deed, hdeed, -⟩
    · rw [hshelf] at hfree
      cases hfree
    · rw [slotAt_of_le _ (Nat.zero_le slot)] at hparked
      cases hparked
    · cases hdeed
  have hmade : ({} : Pool).made = 0 := by
    simp only [made, hshelf, Shelf.made, Multiset.range_zero, Multiset.map_zero,
      Finset.sum_const_zero]
  refine ⟨by rw [hstays, hmade]; rfl, by rw [hstays]; exact Multiset.nodup_zero, ?_, ?_, ?_⟩
  · rw [hstays]
    intro stay hstay
    cases hstay
  · rw [hstays]
    intro stay hstay
    cases hstay
  · intro slot hslot
    rw [slotAt_of_le _ (Nat.zero_le slot)] at hslot
    exact absurd rfl hslot

namespace Placed

variable {p q : Pool} {deeds deeds' : Multiset Deed}

/-! ## What the number on a slot says -/

/-- **One slot, one stay.** -/
theorem eq_of_slot_eq (h : p.Placed deeds) {one other : Stay} (hone : one ∈ p.stays deeds)
    (hother : other ∈ p.stays deeds) (hslot : one.slot = other.slot) : one = other :=
  Multiset.inj_on_of_nodup_map h.slots_nodup one hone other hother hslot

/-- A page is parked on its slot only. -/
theorem eq_parked_of_slot (h : p.Placed deeds) {stay : Stay} (hstay : stay ∈ p.stays deeds)
    {parked : Parked} (hparked : (p.slotAt stay.slot).parked = some parked) :
    stay = ⟨parked.page.id, stay.slot, .parked⟩ :=
  h.eq_of_slot_eq hstay (mem_stays.mpr (.inr (.inl ⟨_, _, hparked, rfl⟩))) rfl

/-- **A page that is lent** has the generation of the loan on its slot, and is
not parked there. -/
theorem of_deed (h : p.Placed deeds) {deed : Deed} (hdeed : deed ∈ deeds) :
    deed.slot < p.slots.length ∧ (p.slotAt deed.slot).generation = deed.generation ∧
      deed.generation ≠ 0 ∧ (p.slotAt deed.slot).parked = none := by
  have hmem : deed.stay ∈ p.stays deeds := mem_stays.mpr (.inr (.inr ⟨deed, hdeed, rfl⟩))
  refine ⟨h.slot_lt _ hmem, (h.agrees _ hmem).1, (h.agrees _ hmem).2, ?_⟩
  cases hparked : (p.slotAt deed.slot).parked with
  | none => rfl
  | some parked => cases congrArg Stay.place (h.eq_parked_of_slot hmem hparked)

/-- **No page is lent twice**, for every page was made once. -/
theorem pages_nodup (h : p.Placed deeds) : (deeds.map Deed.page).Nodup := by
  have hle : deeds.map Deed.stay ≤ p.stays deeds := Multiset.le_add_left _ _
  have hmade : p.made.Nodup := by
    refine Multiset.nodup_iff_count_le_one.mpr fun page => ?_
    rw [count_made]
    split
    · exact Nat.le_refl 1
    · exact Nat.zero_le 1
  have hpages := Multiset.nodup_of_le (Multiset.map_le_map hle) (h.made_eq ▸ hmade)
  rwa [Multiset.map_map] at hpages

/-- **A page on a shelf** has no generation on its slot, is not parked there and
belongs to the class of the shelf. -/
theorem of_free (h : p.Placed deeds) {c : SizeClass} {shelved : Shelved}
    (hfree : shelved ∈ (p.shelf c).free) :
    shelved.slot < p.slots.length ∧ (p.slotAt shelved.slot).generation = 0 ∧
      shelved.page.sizeClass = c ∧ (p.slotAt shelved.slot).parked = none := by
  have hmem : shelved.stay c ∈ p.stays deeds := mem_stays.mpr (.inl ⟨c, shelved, hfree, rfl⟩)
  refine ⟨h.slot_lt _ hmem, (h.agrees _ hmem).1, (h.agrees _ hmem).2.symm, ?_⟩
  cases hparked : (p.slotAt shelved.slot).parked with
  | none => rfl
  | some parked => cases congrArg Stay.place (h.eq_parked_of_slot hmem hparked)

/-- **A page that is parked** is parked on a slot that exists and that has a
generation. -/
theorem of_parked (h : p.Placed deeds) {slot : Nat} {parked : Parked}
    (hparked : (p.slotAt slot).parked = some parked) :
    slot < p.slots.length ∧ (p.slotAt slot).generation ≠ 0 := by
  have hmem : ⟨parked.page.id, slot, .parked⟩ ∈ p.stays deeds :=
    mem_stays.mpr (.inr (.inl ⟨slot, parked, hparked, rfl⟩))
  exact ⟨h.slot_lt _ hmem, h.agrees _ hmem⟩

/-- **A slot with a generation** has a page that is lent or parked. -/
theorem lent_or_parked (h : p.Placed deeds) {slot : Nat}
    (hslot : (p.slotAt slot).generation ≠ 0) :
    (∃ deed ∈ deeds, deed.slot = slot) ∨ ∃ parked, (p.slotAt slot).parked = some parked := by
  obtain ⟨stay, hmem, rfl⟩ := h.exists_stay slot hslot
  rcases mem_stays.mp hmem with ⟨c, shelved, hfree, rfl⟩ | ⟨slot, parked, hparked, rfl⟩ |
    ⟨deed, hdeed, rfl⟩
  · exact absurd (h.of_free hfree).2.1 hslot
  · exact .inr ⟨parked, hparked⟩
  · exact .inl ⟨deed, hdeed, rfl⟩

/-! ## A page that moves and a page that is made -/

/-- **A page moves**, perhaps to another slot. All other slots are as before,
and the slot it leaves has no generation. -/
theorem replace {stay stay' : Stay} {others : Multiset Stay} (h : p.Placed deeds)
    (hbefore : p.stays deeds = stay ::ₘ others) (hafter : q.stays deeds' = stay' ::ₘ others)
    (hpage : stay'.page = stay.page) (hmade : q.made = p.made)
    (hslot : stay'.slot ∉ others.map Stay.slot) (hlt : stay'.slot < q.slots.length)
    (hlength : p.slots.length ≤ q.slots.length)
    (hothers : ∀ slot, slot ≠ stay.slot → slot ≠ stay'.slot →
      (q.slotAt slot).generation = (p.slotAt slot).generation)
    (hleft : stay.slot ≠ stay'.slot → (q.slotAt stay.slot).generation = 0)
    (hagrees : stay'.Agrees (q.slotAt stay'.slot).generation) : q.Placed deeds' := by
  have hnodup := h.slots_nodup
  rw [hbefore, Multiset.map_cons, Multiset.nodup_cons] at hnodup
  -- the pages that stay are on neither of the two slots
  have hne (other : Stay) (hother : other ∈ others) :
      other.slot ≠ stay.slot ∧ other.slot ≠ stay'.slot :=
    ⟨fun heq => hnodup.1 (heq ▸ Multiset.mem_map_of_mem _ hother),
      fun heq => hslot (heq ▸ Multiset.mem_map_of_mem _ hother)⟩
  refine ⟨?_, ?_, ?_, ?_, ?_⟩
  · rw [hafter, hmade, ← h.made_eq, hbefore, Multiset.map_cons, Multiset.map_cons, hpage]
  · rw [hafter, Multiset.map_cons, Multiset.nodup_cons]
    exact ⟨hslot, hnodup.2⟩
  · rw [hafter]
    intro other hother
    rcases Multiset.mem_cons.mp hother with rfl | hother
    · exact hlt
    · refine Nat.lt_of_lt_of_le (h.slot_lt other ?_) hlength
      rw [hbefore]
      exact Multiset.mem_cons_of_mem hother
  · rw [hafter]
    intro other hother
    rcases Multiset.mem_cons.mp hother with rfl | hother
    · exact hagrees
    · rw [hothers _ (hne other hother).1 (hne other hother).2]
      refine h.agrees other ?_
      rw [hbefore]
      exact Multiset.mem_cons_of_mem hother
  · intro slot hgeneration
    rw [hafter]
    -- a slot with a generation is the new one, or it had one before
    by_cases hslot' : slot = stay'.slot
    · exact ⟨stay', Multiset.mem_cons_self _ _, hslot'.symm⟩
    · have hslot : slot ≠ stay.slot := by
        rintro rfl
        exact hgeneration (hleft hslot')
      rw [hothers slot hslot hslot'] at hgeneration
      obtain ⟨other, hother, rfl⟩ := h.exists_stay slot hgeneration
      rw [hbefore] at hother
      rcases Multiset.mem_cons.mp hother with rfl | hother
      · exact absurd rfl hslot
      · exact ⟨other, Multiset.mem_cons_of_mem hother, rfl⟩

/-- **A page moves and keeps its slot.** -/
theorem move {page : PageId} {slot : Nat} {place place' : Place} {others : Multiset Stay}
    (h : p.Placed deeds) (hbefore : p.stays deeds = ⟨page, slot, place⟩ ::ₘ others)
    (hafter : q.stays deeds' = ⟨page, slot, place'⟩ ::ₘ others) (hmade : q.made = p.made)
    (hlength : q.slots.length = p.slots.length)
    (hothers : ∀ other, other ≠ slot →
      (q.slotAt other).generation = (p.slotAt other).generation)
    (hagrees : Stay.Agrees ⟨page, slot, place'⟩ (q.slotAt slot).generation) :
    q.Placed deeds' := by
  have hnodup := h.slots_nodup
  rw [hbefore, Multiset.map_cons, Multiset.nodup_cons] at hnodup
  have hlt : slot < p.slots.length :=
    h.slot_lt ⟨page, slot, place⟩ (by rw [hbefore]; exact Multiset.mem_cons_self _ _)
  exact h.replace hbefore hafter rfl hmade hnodup.1 (hlength.symm ▸ hlt) (Nat.le_of_eq hlength.symm)
    (fun other hne _ => hothers other hne) (fun hne => absurd rfl hne) hagrees

/-- **A page is made** and put on the shelf of its class, on a slot of its
own. -/
theorem withFresh (h : p.Placed deeds) {c : SizeClass} (hfree : (p.shelf c).free = []) :
    (p.withFresh c).Placed deeds := by
  have hstays : (p.withFresh c).stays deeds =
      ⟨(c, (p.shelf c).created), p.slots.length, .shelf c⟩ ::ₘ p.stays deeds := by
    rw [stays_of_free (free_withFresh p c)]
    refine congrArg (Multiset.cons _) ?_
    rw [← stays_addSlot p deeds]
    refine stays_congr (fun d => ?_) rfl fun slot => rfl
    rw [shelf_setShelf]
    split
    · next hd =>
      subst hd
      rw [Shelf.stays, Shelf.stays, shelf_addSlot, hfree]
    · next hd => rw [Pool.withFresh, shelf_setShelf, if_neg hd]
  -- slots that do not exist look like new ones
  have hnone : (p.slotAt p.slots.length).generation = 0 := by
    rw [slotAt_of_le p (Nat.le_refl _)]
  refine ⟨?_, ?_, ?_, ?_, ?_⟩
  · rw [hstays, Multiset.map_cons, h.made_eq]
    exact (made_setShelf_succ rfl).symm
  · rw [hstays, Multiset.map_cons, Multiset.nodup_cons]
    refine ⟨fun hmem => ?_, h.slots_nodup⟩
    obtain ⟨stay, hstay, hslot⟩ := Multiset.mem_map.mp hmem
    exact Nat.ne_of_lt (h.slot_lt stay hstay) hslot
  · rw [hstays, Pool.withFresh, slots_setShelf, length_slots_addSlot]
    intro stay hstay
    rcases Multiset.mem_cons.mp hstay with rfl | hstay
    · exact Nat.lt_succ_self _
    · exact Nat.lt_succ_of_lt (h.slot_lt stay hstay)
  · rw [hstays]
    intro stay hstay
    rw [slotAt_withFresh]
    rcases Multiset.mem_cons.mp hstay with rfl | hstay
    · exact ⟨hnone, rfl⟩
    · exact h.agrees stay hstay
  · intro slot hslot
    rw [slotAt_withFresh] at hslot
    obtain ⟨stay, hstay, heq⟩ := h.exists_stay slot hslot
    rw [hstays]
    exact ⟨stay, Multiset.mem_cons_of_mem hstay, heq⟩

end Placed

end Pool

end Wirepool
