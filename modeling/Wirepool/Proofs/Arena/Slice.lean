import Wirepool.Arena
import Wirepool.Proofs.Action
import Wirepool.Proofs.Memory.View

/-!
# Slices of an arena

A slice is as long as it was asked to be, and what is written into it is read
back from it.
-/

namespace Wirepool

namespace Arena

/-- Only a request for nothing is served without memory. -/
theorem eq_zero_of_plan_eq_nothing {a : Arena} {len : Nat} (h : a.plan len = .nothing) :
    len = 0 := by
  unfold plan at h
  split at h
  · next hzero => exact hzero
  · split at h
    · cases h
    · split at h <;> cases h

/-- **A slice is as long as it was asked to be.** -/
theorem length_of_get {len : Nat} {zero : Bool} {a a' : Arena} {s s' : Store} {slice : Slice}
    (h : get len zero (a, s) = .ok slice (a', s')) : slice.length = len := by
  obtain ⟨-, t, -, h⟩ := exists_of_bind_eq_ok h
  obtain ⟨now, t', -, h⟩ := exists_of_bind_eq_ok h
  cases hplan : now.plan len with
  | nothing =>
    rw [hplan] at h
    cases h
    exact (eq_zero_of_plan_eq_nothing hplan).symm
  | dedicated =>
    rw [hplan] at h
    obtain ⟨chunk, _, -, h⟩ := exists_of_bind_eq_ok h
    cases h
    rfl
  | opening =>
    rw [hplan] at h
    obtain ⟨chunk, _, -, h⟩ := exists_of_bind_eq_ok h
    obtain ⟨-, _, -, h⟩ := exists_of_bind_eq_ok h
    cases h
    rfl
  | current =>
    rw [hplan] at h
    cases h
    rfl

/-- **What is written into a slice is read back**, if there was room for it. -/
theorem read_write_slice {a : Arena} {slice : Slice} {row : List UInt8}
    (h : row.length = (a.read slice 0 slice.length).length) :
    (a.write slice row).read slice 0 slice.length = row := by
  simp only [read, write, modifyChunk, List.getElem?_modify, Nat.add_zero, Nat.sub_zero,
    Nat.min_self, if_true] at h ⊢
  cases hchunk : a.chunks[slice.chunk]? with
  | none =>
    rw [hchunk] at h
    exact (List.eq_nil_of_length_eq_zero h).symm
  | some chunk =>
    rw [hchunk] at h
    dsimp only at h
    have hle : row.length ≤ slice.length := by
      rw [h, Loan.read_eq_view, List.length_take]
      exact Nat.min_le_left _ _
    show (chunk.write slice.offset (row.take slice.length)).read slice.offset slice.length = row
    rw [List.take_of_length_le hle]
    exact Loan.read_write_self h

end Arena

end Wirepool
