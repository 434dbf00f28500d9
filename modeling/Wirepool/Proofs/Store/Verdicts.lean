import Wirepool.Proofs.Arena.Cutting
import Wirepool.Proofs.Wire.Verdict

/-!
# Verdicts in borrowed memory

Memory that is borrowed for a message is as long as the message was measured, and
holds what earlier borrowers left in it. A driver reaches the verdict on the message
there, or the memory cannot be had.
-/

namespace Wirepool

namespace Script

variable {s : Store} {loans : Multiset Loan} {tickets : Multiset Ticket}

/-- **Encoding into memory of its own** reaches the verdict, if the memory can be
had. -/
theorem encode_verdict (h : s.Sound loans tickets) {home : Option Nat}
    (hhome : ∀ number ∈ home, number < s.pools.length) (script : Script) (order : ByteOrder) :
    Ends (script.encode order home s)
      (fun encoded _ => encoded.result.map Loan.view = script.verdict order none)
      fun abort t => ∃ length, (script.measure order).length = .ok length ∧
        Store.obtain home length s = .error abort t := by
  unfold encode
  dsimp only
  cases hmeasure : (script.measure order).length with
  | error failure =>
    rw [verdict_of_unmeasured hmeasure]
    exact rfl
  | ok length =>
    dsimp only
    refine Ends.bind ((h.obtain hhome length).abort_eq.mono (fun _ _ ht => ht)
      fun abort t ht => ⟨length, rfl, ht.2⟩) fun memory t ht => ?_
    obtain ⟨⟨hsound, -⟩, hlen⟩ := ht
    have hview : memory.view.length = length :=
      (hsound.length_view (Multiset.mem_cons_self _ _)).trans hlen
    subst hview
    rw [verdict_eq_fill hmeasure rfl]
    cases houtcome : (script.fill order memory.view).outcome with
    | ok =>
      exact congrArg Except.ok
        (Loan.view_write_zero (length_fill (length_lt_of_measure hmeasure) houtcome))
    | error failure =>
      have hmessage : t.Sound (memory.write 0 (script.fill order memory.view).destination ::ₘ loans)
          tickets := by
        refine hsound.of_terms_eq ?_
        rw [Multiset.map_cons, Multiset.map_cons, Loan.terms_write]
      have htold := (Store.Leads.tell hmessage (.abandoned memory.view.length)).1
      show Ends ((Store.release _ >>= fun _ => pure _) (t.tell (.abandoned _))) _ _
      exact Ends.bind ((htold.release).mono (fun _ _ hu => hu) fun _ _ hf => hf.elim)
        fun _ _ _ => rfl

/-- **Encoding into a slice** reaches the verdict, if the slice can be had, and
leaves the arena tidy. -/
theorem encodeInArena_verdict {a : Arena} (htidy : a.Tidy)
    (h : s.Sound (↑a.chunks + loans) tickets) (hhome : a.home < s.pools.length)
    (script : Script) (order : ByteOrder) :
    Ends (script.encodeInArena order (a, s))
      (fun encoded t => t.1.Tidy ∧
        encoded.result.map (fun slice => t.1.read slice 0 slice.length) =
          script.verdict order none)
      fun abort t => t.1.Tidy ∧ ∃ length, (script.measure order).length = .ok length ∧
        Arena.get length false (a, s) = .error abort t := by
  unfold encodeInArena
  dsimp only
  cases hmeasure : (script.measure order).length with
  | error failure =>
    rw [verdict_of_unmeasured hmeasure]
    exact ⟨htidy, rfl⟩
  | ok length =>
    dsimp only
    refine Ends.bind ((htidy.ends_get h hhome length false).abort_eq.mono (fun _ _ ht => ht)
      fun abort t ht => ⟨ht.1, length, rfl, ht.2⟩) fun slice t ht => ?_
    obtain ⟨htidy', rfl, hread⟩ := ht
    refine ⟨htidy'.write slice _, ?_⟩
    rw [← hread] at hmeasure
    rw [verdict_eq_fill hmeasure rfl]
    show (Except.map _ (script.fill order (t.1.read slice 0 slice.length)).outcome).map _ = _
    cases houtcome : (script.fill order (t.1.read slice 0 slice.length)).outcome with
    | error failure => rfl
    | ok =>
      exact congrArg Except.ok
        (Arena.read_write_slice (length_fill (length_lt_of_measure hmeasure) houtcome))

end Script

end Wirepool
