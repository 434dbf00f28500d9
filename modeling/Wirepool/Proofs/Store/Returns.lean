import Wirepool.Proofs.Store.Actions

/-!
# A row of loans is given back

Whoever holds several loans gives them back in one go. What is left of this in a pool
is each of the pages once, on top of the shelf of its class, and as many more that came
back. Nothing is lost on the way, nothing is told, and the other pools are not touched.
-/

namespace Wirepool

/-- The loan of a page, unless the memory is of the system. -/
def Loan.lease? : Loan → Option Lease
  | unpooled _ => none
  | pooled lease => some lease

/-- The page of a loan that has come back. -/
def Lease.shelved (lease : Lease) : Shelved := ⟨lease.page, lease.slot⟩

/-- **A pool collects pages**, one after another. -/
structure Pool.Collects (p : Pool) (leases : List Lease) (q : Pool) : Prop where
  /-- They lie on the shelf of their class, the last one on top. -/
  free : ∀ c, (q.shelf c).free =
    ((leases.filter fun lease => lease.page.sizeClass = c).map Lease.shelved).reverse ++
      (p.shelf c).free
  created : ∀ c, (q.shelf c).created = (p.shelf c).created
  /-- Their slots have no generation any more. -/
  slotAt : ∀ slot, q.slotAt slot =
    if slot ∈ leases.map Lease.slot then { p.slotAt slot with generation := 0 } else p.slotAt slot
  generation : q.generation = p.generation
  borrowed : q.borrowed = p.borrowed
  released : q.released = p.released + leases.length
  bypassed : q.bypassed = p.bypassed
  leaked : q.leaked = p.leaked

namespace Pool.Collects

variable {p q r : Pool} {leases others : List Lease}

theorem refl (p : Pool) : p.Collects [] p :=
  ⟨fun _ => rfl, fun _ => rfl, fun _ => rfl, rfl, rfl, rfl, rfl, rfl⟩

theorem trans (h : p.Collects leases q) (h' : q.Collects others r) :
    p.Collects (leases ++ others) r := by
  refine ⟨fun c => ?_, fun c => (h'.created c).trans (h.created c), fun slot => ?_,
    h'.generation.trans h.generation, h'.borrowed.trans h.borrowed, ?_,
    h'.bypassed.trans h.bypassed, h'.leaked.trans h.leaked⟩
  · rw [h'.free, h.free, List.filter_append, List.map_append, List.reverse_append,
      List.append_assoc]
  · rw [h'.slotAt, h.slotAt, List.map_append]
    by_cases hfirst : slot ∈ leases.map Lease.slot
    · rw [if_pos hfirst, if_pos (List.mem_append_left _ hfirst)]
      split <;> rfl
    · rw [if_neg hfirst]
      simp only [List.mem_append, hfirst, false_or]
  · rw [h'.released, h.released, List.length_append, Nat.add_assoc]

/-- **A single page** is collected when it is shelved. -/
theorem shelve (p : Pool) (lease : Lease) :
    p.Collects [lease] ((p.setGeneration lease.slot 0).shelve lease.page lease.slot) := by
  have hshelf (c : SizeClass) := (p.setGeneration lease.slot 0).shelf_shelve lease.page lease.slot c
  refine ⟨fun c => ?_, fun c => ?_, fun slot => ?_, rfl, rfl, rfl, rfl, rfl⟩
  · rw [hshelf]
    by_cases hc : c = lease.page.sizeClass
    · subst hc
      simp [Lease.shelved, setGeneration]
    · simp [hc, Ne.symm hc, setGeneration]
  · rw [hshelf]
    split
    · next hc => rw [hc]; rfl
    · rfl
  · rw [slotAt_shelve, setGeneration]
    by_cases hslot : slot = lease.slot
    · subst hslot
      have hmem : lease.slot ∈ [lease].map Lease.slot := List.mem_singleton_self _
      rw [if_pos hmem]
      rcases Nat.lt_or_ge lease.slot p.slots.length with hlt | hge
      · exact slotAt_modifySlot_self p hlt _
      · rw [slotAt_of_le _ (by rwa [length_slots_modifySlot]), slotAt_of_le _ hge]
    · rw [slotAt_modifySlot_of_ne p hslot, if_neg (by simpa using hslot)]

end Pool.Collects

namespace Store

variable {s t u : Store} {number : Nat} {leases others : List Lease}

/-- **A pool of the store collects pages**, and nothing else happens. -/
structure Collects (s : Store) (number : Nat) (leases : List Lease) (t : Store) : Prop where
  pool : (s.pool number).Collects leases (t.pool number)
  others : ∀ other, other ≠ number → t.pool other = s.pool other
  events : t.events = s.events
  deliveries : t.deliveries = s.deliveries

namespace Collects

theorem refl (s : Store) (number : Nat) : s.Collects number [] s :=
  ⟨.refl _, fun _ _ => rfl, rfl, rfl⟩

theorem trans (h : s.Collects number leases t) (h' : t.Collects number others u) :
    s.Collects number (leases ++ others) u :=
  ⟨h.pool.trans h'.pool, fun other hne => (h'.others other hne).trans (h.others other hne),
    h'.events.trans h.events, h'.deliveries.trans h.deliveries⟩

end Collects

namespace Sound

variable {loans : Multiset Loan} {tickets : Multiset Ticket}

/-- **Giving memory back** makes its pool collect the page. -/
theorem collects_release {loan : Loan} (h : s.Sound (loan ::ₘ loans) tickets)
    (hhome : ∀ home ∈ loan.terms.lease.map Prod.fst, home = number) :
    Ends (Store.release loan s) (fun _ t => s.Collects number loan.lease?.toList t)
      fun _ _ => False := by
  cases loan with
  | unpooled block => exact Collects.refl s number
  | pooled lease =>
    obtain rfl : lease.home = number := hhome lease.home rfl
    have hlt := h.home_lt (Multiset.mem_cons_self _ _)
    have hpool := h.pool lease.home
    rw [deedsAt_cons_pooled] at hpool
    obtain ⟨hreclaim, -, -⟩ := hpool.reclaim
    show Ends (onPool lease.home (fun p => p.reclaim lease) s) _ _
    rw [onPool_of_ok hreclaim]
    refine ⟨?_, fun other hother => pool_commit_of_ne _ [] hother, rfl, rfl⟩
    rw [pool_commit_self _ [] hlt]
    exact .shelve _ lease

/-- **Giving a row of loans back** makes their pool collect the pages. -/
theorem collects_forM {chunks : List Loan} (h : s.Sound (↑chunks + loans) tickets)
    (hhome : ∀ chunk ∈ chunks, ∀ home ∈ chunk.terms.lease.map Prod.fst, home = number) :
    Ends (chunks.forM Store.release s)
      (fun _ t => s.Collects number (chunks.filterMap Loan.lease?) t) fun _ _ => False := by
  induction chunks generalizing s with
  | nil => exact Collects.refl s number
  | cons chunk chunks ih =>
    rw [← Multiset.cons_coe, Multiset.cons_add] at h
    rw [List.forM_eq_forM, List.forM_cons]
    have hfirst := (h.release.and (h.collects_release (hhome chunk List.mem_cons_self))).mono
      (fun _ _ ht => ht) fun _ _ hf => hf.1
    refine hfirst.bind fun _ t ht => ?_
    obtain ⟨hleads, hcollects⟩ := ht
    refine (ih hleads.1 fun other hother => hhome other (List.mem_cons_of_mem _ hother)).mono
      (fun _ u hu => ?_) fun _ _ hf => hf
    have hrow : (chunk :: chunks).filterMap Loan.lease? =
        chunk.lease?.toList ++ chunks.filterMap Loan.lease? := by
      cases chunk <;> rfl
    rw [hrow]
    exact hcollects.trans hu

end Sound

end Store

end Wirepool
