import Wirepool.Proofs.Arena.Sound

/-!
# Messages and the store behind them

A driver borrows memory for a message, or asks an arena for a slice. Whichever
way it ends, each loan is with somebody: with the caller if there is a message,
with the arena if it has cut a slice, and given back otherwise.
-/

namespace Wirepool

open HolderM

variable {s : Store} {loans : Multiset Loan} {tickets : Multiset Ticket}

/-- Telling an event leaves the store in order. -/
theorem Store.Leads.tell (h : s.Sound loans tickets) (event : Event) :
    s.Leads loans tickets (s.tell event) := by
  have hpool (number : Nat) : (s.tell event).pool number = s.pool number := by
    rw [Store.pool, Store.pool, Store.pools_tell]
  refine ⟨h.of_pools_eq (Store.pools_tell s event), by rw [Store.pools_tell], fun number => ?_,
    fun number => ?_⟩
  · rw [hpool]
    exact .refl _
  · rw [hpool]
    exact .refl _

namespace Script

/-- **Encoding into memory of its own** adds the loan of the message if there is
one, and no loan otherwise. -/
theorem ends_encode (h : s.Sound loans tickets) {home : Option Nat}
    (hhome : ∀ number ∈ home, number < s.pools.length) (script : Script) (order : ByteOrder) :
    Ends (script.encode order home s)
      (fun encoded t => match encoded.result with
        | .ok loan => s.Leads (loan ::ₘ loans) tickets t
        | .error _ => s.Leads loans tickets t)
      fun abort t => s.Leads loans tickets t ∧ abort ≠ .generationMismatch := by
  unfold encode
  dsimp only
  cases (script.measure order).length with
  | error failure => exact ⟨h, .refl s⟩
  | ok length =>
    dsimp only
    refine Ends.bind ((h.obtain hhome length).mono (fun _ _ ht => ht.1) fun abort t ht => ?_)
      fun memory t ht => ?_
    · exact ⟨ht.1, by rw [ht.2.1]; decide⟩
    · have hmessage : t.Sound (memory.write 0 (script.fill order memory.view).destination ::ₘ loans)
          tickets := by
        refine ht.1.of_terms_eq ?_
        rw [Multiset.map_cons, Multiset.map_cons, Loan.terms_write]
      cases (script.fill order memory.view).outcome with
      | ok => exact ⟨hmessage, ht.2⟩
      | error failure =>
        have htold := Store.Leads.tell hmessage (.abandoned length)
        show Ends ((Store.release _ >>= fun _ => pure _) (t.tell (.abandoned length))) _ _
        refine Ends.bind ((htold.1.release).mono (fun _ _ hu => hu) fun _ _ hf => hf.elim)
          fun _ u hu => ?_
        exact ⟨hu.1, ht.2.trans (htold.2.trans hu.2)⟩

/-- **Encoding into a slice** keeps the store in order. -/
theorem ends_encodeInArena {a : Arena} (h : s.Sound (↑a.chunks + loans) tickets)
    (hhome : a.home < s.pools.length) (script : Script) (order : ByteOrder) :
    Ends (script.encodeInArena order (a, s)) (fun _ => a.Leads s loans tickets)
      (a.Stops s loans tickets) := by
  unfold encodeInArena
  dsimp only
  cases (script.measure order).length with
  | error failure => exact ⟨⟨h, .refl s⟩, rfl⟩
  | ok length =>
    dsimp only
    refine (Arena.ends_get h hhome length false).bind fun slice t ht => ?_
    exact ht.of_terms_eq (Arena.terms_modifyChunk t.1 slice fun loan =>
      Loan.terms_write loan _ _) rfl

end Script

/-- **Copying out what was read** keeps the store in order. -/
theorem Reading.ends_copyOut {a : Arena} (h : s.Sound (↑a.chunks + loans) tickets)
    (hhome : a.home < s.pools.length) (reading : Reading) :
    Ends (reading.copyOut (a, s)) (fun _ => a.Leads s loans tickets)
      (a.Stops s loans tickets) := by
  refine Arena.ends_forM (fun row hs hlt => ?_) reading.toArena h hhome
  exact (Arena.ends_copy hs hlt row).map fun _ _ ht => ht

end Wirepool
