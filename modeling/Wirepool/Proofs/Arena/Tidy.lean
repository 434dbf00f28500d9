import Wirepool.Proofs.Store.Messages

/-!
# What is left of a fragment is there

An arena cuts slices off its current fragment without looking at it: it goes by how
much it takes to be left. That much is there, because a fragment is as long as the
arena says, and because nobody writes to a chunk in a way that changes its length.
-/

namespace Wirepool

namespace Arena

/-- **An arena whose current fragment is there**, as long as anything is left of it. -/
structure Tidy (a : Arena) : Prop where
  left_le : a.left ≤ a.size
  current : 0 < a.left → ∃ chunk, a.chunks[a.current]? = some chunk ∧ chunk.view.length = a.size

/-- The next fragment is opened for a slice that it holds. -/
theorem le_size_of_plan_eq_opening {a : Arena} {len : Nat} (h : a.plan len = .opening) :
    len ≤ a.size := by
  unfold plan at h
  split at h
  · cases h
  · split at h
    · cases h
    · next hsize => exact Nat.le_of_not_lt hsize

/-- The current fragment serves what is left of it. -/
theorem le_left_of_plan_eq_current {a : Arena} {len : Nat} (h : a.plan len = .current) :
    len ≤ a.left := by
  unfold plan at h
  split at h
  · cases h
  · split at h
    · cases h
    · split at h
      · cases h
      · next hleft => exact Nat.le_of_not_lt hleft

/-- Nothing is left of an arena that holds nothing yet. -/
theorem tidy_new (home size : Nat) : (new home size).Tidy :=
  ⟨Nat.zero_le _, fun h => absurd h (Nat.lt_irrefl 0)⟩

/-- As much is read of a slice as lies in its chunk. -/
theorem length_read {a : Arena} {slice : Slice} {chunk : Loan}
    (h : a.chunks[slice.chunk]? = some chunk) :
    (a.read slice 0 slice.length).length =
      min slice.length (chunk.view.length - slice.offset) := by
  rw [read, h]
  dsimp only
  rw [Loan.read_eq_view, List.length_take, List.length_drop, Nat.sub_zero, Nat.min_self,
    Nat.add_zero]

/-- Nothing is read of a slice of length zero. -/
theorem length_read_zero (a : Arena) (slice : Slice) : (a.read slice 0 0).length = 0 := by
  rw [read]
  split
  · rw [Loan.read_eq_view, Nat.zero_min, List.take_zero]
    rfl
  · rfl

namespace Tidy

variable {a : Arena}

/-- Another chunk leaves the current fragment where it was. -/
theorem addChunk (h : a.Tidy) (chunk : Loan) : (a.addChunk chunk).Tidy := by
  refine ⟨h.left_le, fun hleft => ?_⟩
  obtain ⟨current, hcurrent, hlength⟩ := h.current hleft
  refine ⟨current, ?_, hlength⟩
  have hlt := (List.getElem?_eq_some_iff.mp hcurrent).1
  exact (List.getElem?_append_left hlt).trans hcurrent

/-- Cutting off no more than what is left leaves the rest where it was. -/
theorem cut (h : a.Tidy) {len : Nat} (hlen : len ≤ a.left) : (a.cut len).2.Tidy := by
  refine ⟨Nat.le_trans (Nat.sub_le _ _) h.left_le, fun hleft => h.current ?_⟩
  change 0 < a.left - len at hleft
  omega

end Tidy

/-- A fragment that is as long as the arena says is tidy. -/
theorem tidy_openFragment {a : Arena} {chunk : Loan} (h : chunk.view.length = a.size) :
    (a.openFragment chunk).Tidy :=
  ⟨Nat.le_refl _, fun _ => ⟨chunk, List.getElem?_concat_length, h⟩⟩

end Arena

end Wirepool
