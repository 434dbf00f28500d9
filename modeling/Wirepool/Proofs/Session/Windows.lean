import Wirepool.Proofs.Buffer.Window
import Wirepool.Proofs.Session.Growth

/-!
# Looking at a window

Whoever looks at a window of a buffer gets its parts where they stand. Nothing is copied, and
nothing is changed, so the same window can be looked at again, read, or looked at beside
another one, and all of this agrees.
-/

namespace Wirepool

namespace Session

variable {s : Session} {name : String} {b : Buffer}

/-- **A look at a window** answers its parts, and everything is as before. -/
theorem step_range (hb : s.buffers.get? name = some b) (offset count : Nat) :
    ∃ buffers, s.step (.buffer (.request name (.range offset count))) =
        (.request (.reply (.parts (Chunks.locate 0 (b.range offset count)))) b.info,
          { s with buffers }) ∧
      ∀ other, buffers.get? other = s.buffers.get? other := by
  refine ⟨s.buffers.put name b, ?_, fun other => ?_⟩
  · show s.expect (s.buffers.get? name) _ = _
    rw [hb]
    rfl
  · rw [Table.get?_put]
    by_cases hother : other = name
    · rw [if_pos hother, hother, hb]
    · rw [if_neg hother]

/-- **The parts of a window are a partition of it**, for every buffer in every session that can
be reached, and whatever the window: in front of the end, across it, behind it, or up to a
position that is no word. The machine calls for these parts and is never stopped on the way;
a read of the window gives their bytes, one behind another; and the look leaves all buffers,
and everything else, as they are. -/
theorem window_is_partitioned (commands : List Command) (name : String) (b : Buffer)
    (hb : (({} : Session).play commands).2.buffers.get? name = some b) (offset count : Nat) :
    let s := (({} : Session).play commands).2
    ∃ calls, b.calls offset count = .ok calls ∧ b.Partitions offset count calls ∧
      b.readAt offset count =
        (if b.length ≤ offset then .error .endOfData
        else .ok (calls.flatMap fun call => call.2.bytes)) ∧
      ∃ buffers, s.step (.buffer (.request name (.range offset count))) =
          (.request (.reply (.parts calls)) b.info, { s with buffers }) ∧
        ∀ other, buffers.get? other = s.buffers.get? other := by
  intro s
  have htidy : b.Tidy := (supplied_play hb).toTidy
  refine ⟨Chunks.locate 0 (b.range offset count), htidy.calls_eq offset count,
    htidy.partitions offset count, ?_, step_range hb offset count⟩
  rw [Chunks.flatMap_locate]
  split
  · next hend => exact if_pos hend
  · next hin => exact Buffer.readAt_eq (Nat.lt_of_not_le hin) count

/-- A window that starts in the first chunk and is longer than any buffer. -/
theorem window_is_partitioned_across :
    let commands : List Command := [.pool (.make "pool"),
      .buffer (.make "pool" 4 false "buffer"),
      .buffer (.request "buffer" (.writeAt [1, 2, 3, 4, 5, 6, 7, 8, 9] 1))]
    ∃ b, (({} : Session).play commands).2.buffers.get? "buffer" = some b ∧
      b.Partitions 3 18446744073709551615
        [(0, ⟨0, 3, [3]⟩), (1, ⟨1, 0, [4, 5, 6, 7]⟩), (5, ⟨2, 0, [8, 9]⟩)] := by
  intro commands
  obtain ⟨b, hb, hrange⟩ : ∃ b, (({} : Session).play commands).2.buffers.get? "buffer" = some b ∧
      Chunks.locate 0 (b.range 3 18446744073709551615) =
        [(0, ⟨0, 3, [3]⟩), (1, ⟨1, 0, [4, 5, 6, 7]⟩), (5, ⟨2, 0, [8, 9]⟩)] :=
    ⟨_, rfl, by decide⟩
  obtain ⟨calls, hcalls, hpartitions, -⟩ :=
    window_is_partitioned commands "buffer" b hb 3 18446744073709551615
  have htidy : b.Tidy := (supplied_play hb).toTidy
  cases hcalls.symm.trans (htidy.calls_eq 3 18446744073709551615)
  exact ⟨b, hb, hrange ▸ hpartitions⟩

end Session

end Wirepool
