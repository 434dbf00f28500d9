import Wirepool.Proofs.Arena.Slice
import Wirepool.Proofs.Store.Actions

/-!
# Arenas and the store behind them

What an arena holds is lent to it, so the store has to be in order for the
chunks of the arena together with whatever else is held. Every action of an
arena keeps this, also when it aborts, and none aborts because a page was given
back twice.
-/

namespace Wirepool

namespace Arena

open HolderM

variable {a : Arena} {s : Store} {loans : Multiset Loan} {tickets : Multiset Ticket}

/-- **What holds after an action on an arena**: the store is in order for what
the arena holds now, and the arena is still of its pool. -/
def Leads (a : Arena) (s : Store) (loans : Multiset Loan) (tickets : Multiset Ticket)
    (t : Arena × Store) : Prop :=
  s.Leads (↑t.1.chunks + loans) tickets t.2 ∧ t.1.home = a.home

/-- An abort that is not about a page given back twice. -/
def Stops (a : Arena) (s : Store) (loans : Multiset Loan) (tickets : Multiset Ticket)
    (abort : Abort) (t : Arena × Store) : Prop :=
  a.Leads s loans tickets t ∧ abort ≠ .generationMismatch

/-- A change of the arena that leaves the terms of its chunks. -/
theorem Leads.of_terms_eq {b : Arena} {t : Store} (h : a.Leads s loans tickets (b, t)) {c : Arena}
    (hterms : c.chunks.map Loan.terms = b.chunks.map Loan.terms) (hhome : c.home = b.home) :
    a.Leads s loans tickets (c, t) := by
  refine ⟨⟨h.1.1.of_terms_eq ?_, h.1.2⟩, hhome.trans h.2⟩
  rw [Multiset.map_add, Multiset.map_add, Multiset.map_coe, Multiset.map_coe, hterms]

/-- Writing through a slice leaves the terms of the chunks. -/
theorem terms_modifyChunk (a : Arena) (slice : Slice) {f : Loan → Loan}
    (hf : ∀ loan, (f loan).terms = loan.terms) :
    (a.modifyChunk slice f).chunks.map Loan.terms = a.chunks.map Loan.terms := by
  show (a.chunks.modify slice.chunk f).map Loan.terms = _
  apply List.ext_getElem?
  intro i
  rw [List.getElem?_map, List.getElem?_map, List.getElem?_modify]
  cases a.chunks[i]? with
  | none => rfl
  | some chunk =>
    by_cases hi : slice.chunk = i
    · simp only [Option.map_eq_map, Option.map_some, if_pos hi, hf]
    · simp only [Option.map_eq_map, Option.map_some, if_neg hi]

/-- A request that is counted changes nothing else. -/
theorem ends_count (len : Nat) :
    Ends (count len (a, s)) (fun _ t => t = ({ a with length := a.length + len }, s))
      fun abort t => t = (a, s) ∧ abort ≠ .generationMismatch := by
  by_cases hlen : wordLimit ≤ a.length + len
  · have hcount : count len (a, s) = .error .lengthOverflow (a, s) := by
      simp only [count, now, bind, EStateM.bind, if_pos hlen]
      rfl
    rw [hcount]
    exact ⟨rfl, by decide⟩
  · have hcount : count len (a, s) = .ok () ({ a with length := a.length + len }, s) := by
      simp only [count, now, bind, EStateM.bind, if_neg hlen]
      rfl
    rw [hcount]
    exact rfl

/-- **A chunk that is borrowed** belongs to the arena. -/
theorem ends_borrow (h : s.Sound (↑a.chunks + loans) tickets) (hhome : a.home < s.pools.length)
    (len : Nat) (zero : Bool) :
    Ends (onStore (Store.borrow a.home len zero) (a, s))
      (fun chunk t => s.Leads (↑(a.chunks ++ [chunk]) + loans) tickets t.2 ∧ t.1 = a)
      (a.Stops s loans tickets) := by
  refine (ends_onStore (h.borrow hhome len zero)).mono (fun chunk t ht => ?_) fun abort t ht => ?_
  · refine ⟨?_, ht.2⟩
    rw [← Multiset.coe_add, Multiset.coe_singleton, add_comm (↑a.chunks : Multiset Loan),
      Multiset.singleton_add, Multiset.cons_add]
    exact ht.1.1
  · obtain ⟨b, u⟩ := t
    obtain ⟨⟨hleads, rfl, -⟩, rfl⟩ := ht
    exact ⟨⟨hleads, rfl⟩, by decide⟩

/-- Cutting a slice off borrows nothing. -/
theorem ends_cutOff {b : Arena} {t : Store} (h : a.Leads s loans tickets (b, t)) (len : Nat)
    (zero : Bool) :
    Ends (get.cutOff len zero (b, t)) (fun _ => a.Leads s loans tickets)
      (a.Stops s loans tickets) := by
  cases zero with
  | false => exact h.of_terms_eq rfl rfl
  | true =>
    exact h.of_terms_eq (terms_modifyChunk (b.cut len).2 (b.cut len).1 fun loan =>
      Loan.terms_fill loan _ _ _) rfl

/-- **Asking for a slice** keeps the store in order. -/
theorem ends_get (h : s.Sound (↑a.chunks + loans) tickets) (hhome : a.home < s.pools.length)
    (len : Nat) (zero : Bool) :
    Ends (get len zero (a, s)) (fun _ => a.Leads s loans tickets) (a.Stops s loans tickets) := by
  have hstart : a.Leads s loans tickets (a, s) := ⟨⟨h, .refl s⟩, rfl⟩
  unfold get
  refine Ends.bind ((ends_count len).mono (fun _ _ ht => ht) fun abort t ht => ?_) fun _ t ht => ?_
  · rw [ht.1]
    exact ⟨hstart, ht.2⟩
  subst ht
  let counted : Arena × Store := ({ a with length := a.length + len }, s)
  have hnow : Ends (now counted) (fun b t => b = counted.1 ∧ t = counted)
      (a.Stops s loans tickets) := ⟨rfl, rfl⟩
  refine hnow.bind fun b t ht => ?_
  obtain ⟨rfl, rfl⟩ := ht
  cases Arena.plan { a with length := a.length + len } len with
  | nothing => exact hstart
  | dedicated =>
    refine Ends.bind (ends_borrow (a := { a with length := a.length + len }) h hhome len zero)
      fun chunk t ht => ?_
    obtain ⟨b, u⟩ := t
    obtain ⟨hleads, rfl⟩ := ht
    exact ⟨hleads, rfl⟩
  | opening =>
    refine Ends.bind (ends_borrow (a := { a with length := a.length + len }) h hhome a.size false)
      fun chunk t ht => ?_
    obtain ⟨b, u⟩ := t
    obtain ⟨hleads, rfl⟩ := ht
    exact ends_cutOff (b := Arena.openFragment _ chunk) ⟨hleads, rfl⟩ len zero
  | current => exact ends_cutOff (b := { a with length := a.length + len }) hstart len zero

/-- **Copying bytes into a slice** keeps the store in order. -/
theorem ends_copy (h : s.Sound (↑a.chunks + loans) tickets) (hhome : a.home < s.pools.length)
    (row : List UInt8) :
    Ends (copy row (a, s)) (fun _ => a.Leads s loans tickets) (a.Stops s loans tickets) := by
  unfold copy
  refine (ends_get h hhome row.length false).bind fun slice t ht => ?_
  exact ht.of_terms_eq (terms_modifyChunk t.1 slice fun loan => Loan.terms_write loan _ _) rfl

/-- **Giving everything back** never fails. -/
theorem ends_release (h : s.Sound (↑a.chunks + loans) tickets) :
    Ends (a.release s) (fun _ t => s.Leads loans tickets t) fun _ _ => False :=
  h.forM Store.Sound.release

/-- **Losing everything** never fails. -/
theorem ends_drop (h : s.Sound (↑a.chunks + loans) tickets) :
    Ends (a.drop s) (fun _ t => s.Leads loans tickets t) fun _ _ => False :=
  h.forM Store.Sound.lose

/-- **Starting afresh** never fails. -/
theorem ends_reset (h : s.Sound (↑a.chunks + loans) tickets) :
    Ends (reset (a, s)) (fun _ => a.Leads s loans tickets) (a.Stops s loans tickets) := by
  show Ends ((onStore a.release >>= fun _ => update fun a => ((), new a.home a.size)) (a, s)) _ _
  refine Ends.bind ((ends_onStore (ends_release h)).mono (fun _ _ ht => ht)
    fun _ _ ht => ht.1.elim) fun _ t ht => ?_
  refine ⟨?_, ?_⟩
  · show s.Leads (↑([] : List Loan) + loans) tickets t.2
    rw [Multiset.coe_nil, zero_add]
    exact ht.1
  · show t.1.home = a.home
    rw [ht.2]

/-- **Several actions in turn**, each of them as the lemmas above say. -/
theorem ends_forM {α : Type} {action : α → HolderM Arena Unit}
    (haction : ∀ {a : Arena} {s : Store} (x : α), s.Sound (↑a.chunks + loans) tickets →
      a.home < s.pools.length →
      Ends (action x (a, s)) (fun _ => a.Leads s loans tickets) (a.Stops s loans tickets))
    (xs : List α) (h : s.Sound (↑a.chunks + loans) tickets) (hhome : a.home < s.pools.length) :
    Ends (xs.forM action (a, s)) (fun _ => a.Leads s loans tickets) (a.Stops s loans tickets) := by
  have hchain {t u : Arena × Store} (ht : a.Leads s loans tickets t)
      (hu : t.1.Leads t.2 loans tickets u) : a.Leads s loans tickets u :=
    ⟨ht.1.trans hu.1, hu.2.trans ht.2⟩
  refine Ends.forM (fun _ => a.Leads s loans tickets) (fun x _ t ht => ?_) xs ⟨⟨h, .refl s⟩, rfl⟩
  refine (haction x ht.1.1 ?_).mono (fun _ _ hu => hchain ht hu) fun _ _ hu =>
    ⟨hchain ht hu.1, hu.2⟩
  rw [ht.2]
  exact Nat.lt_of_lt_of_le hhome ht.1.2.length_le

end Arena

end Wirepool
