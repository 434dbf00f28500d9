import Wirepool.Proofs.Buffer.Strip
import Wirepool.Proofs.Wire.Cursor

/-!
# The parts of a window

Whoever looks at a window of a buffer without copying it is called once for each part, with
the place of the part in the window and the bytes of it where they stand. Nothing is said to
the caller of chunks, so it must be able to rely on the parts: they follow each other without
a gap, none is empty, and together they are what a read of the window gives.

The loop behind it is about positions. A turn takes the rest of the chunk that its position
is in, or less if the window ends there. So a turn that another one follows ends where its
chunk does, and the next one starts where the next chunk does; this is what `Joins` says of
two neighbours, and all else is said of one part alone.

The end of the window is a sum that may be larger than any word. The machine cuts it off at
the greatest word, and a buffer is never longer than that, so the window is the one that is
meant.
-/

namespace Wirepool

/-- A sum, or the greatest word if there is no room for it. -/
def Checked.addSaturating (a b : Nat) : Nat := min (a + b) (wordLimit - 1)

/-- One thing of a row. -/
def Checked.item {α : Type} (row : List α) (index : Nat) : Except Trap α :=
  match row[index]? with
  | some a => .ok a
  | none => .error .outOfBounds

namespace Chunks

variable {size place : Nat} {parts : List Part}

/-- **Two calls that follow each other.** -/
structure Joins (size : Nat) (call next : Nat × Part) : Prop where
  /-- The second part stands in the window where the first one ends. -/
  place_eq : next.1 = call.1 + call.2.bytes.length
  chunk_eq : next.2.chunk = call.2.chunk + 1
  /-- The first part ends with its chunk. -/
  ends : call.2.within + call.2.bytes.length = size
  /-- The second one starts with its chunk. -/
  starts : next.2.within = 0

/-- Where the parts stand does not change them. -/
theorem flatMap_locate (place : Nat) (parts : List Part) :
    (locate place parts).flatMap (fun call => call.2.bytes) = parts.flatMap Part.bytes := by
  induction parts generalizing place with
  | nil => rfl
  | cons part parts ih => rw [locate, List.flatMap_cons, List.flatMap_cons, ih]

end Chunks

namespace Buffer

variable {b : Buffer} {position count place offset : Nat}

/-! ## The loop of the machine -/

/-- The number of bytes that a turn of the loop takes. -/
def here (b : Buffer) (position count : Nat) : Nat :=
  min (b.chunkSize - position % b.chunkSize) count

theorem here_pos (b : Buffer) (position : Nat) (hcount : 0 < count) :
    0 < b.here position count := by
  have hwithin := Nat.mod_lt position b.chunkSize_pos
  rw [here]
  omega

/-- **The calls for the positions from one on** up to another, with their places counted from
the start of the window. A position is in front of the end in each turn, and a place in a
chunk is in front of its end, so these two differences are never negative. -/
def walk (b : Buffer) (start position finish : Nat) :
    Except Trap (List (Nat × Chunks.Part)) :=
  if position < finish then do
    let index := position / b.chunkSize
    let within := position % b.chunkSize
    let count := b.here position (finish - position)
    let place ← Checked.sub position start
    let chunk ← Checked.item b.chunks index
    let stop ← Checked.add wordLimit within count
    let bytes ← Checked.slice chunk.view within stop
    let _ ← Checked.add wordLimit position count
    let others ← b.walk start (position + count) finish
    return (place, ⟨index, within, bytes⟩) :: others
  else return []
termination_by finish - position
decreasing_by
  next hmore =>
  have hhere := b.here_pos position (Nat.sub_pos_of_lt hmore)
  omega

/-- **The calls for a window**, as the machine makes them. -/
def calls (b : Buffer) (offset count : Nat) : Except Trap (List (Nat × Chunks.Part)) :=
  b.walk offset offset (min (Checked.addSaturating offset count) b.length)

/-! ## One turn -/

theorem here_le (b : Buffer) (position count : Nat) : b.here position count ≤ count :=
  Nat.min_le_right _ _

/-- What a turn takes lies in one chunk. -/
theorem mod_add_here_le (b : Buffer) (position count : Nat) :
    position % b.chunkSize + b.here position count ≤ b.chunkSize := by
  have hwithin := Nat.mod_lt position b.chunkSize_pos
  rw [here]
  omega

/-- A turn that another one follows takes the rest of its chunk, and the next position is the
first one of the next chunk. -/
theorem div_mod_add_here (hmore : 0 < count - b.here position count) :
    position % b.chunkSize + b.here position count = b.chunkSize ∧
      (position + b.here position count) / b.chunkSize = position / b.chunkSize + 1 ∧
      (position + b.here position count) % b.chunkSize = 0 := by
  have hwithin := Nat.mod_lt position b.chunkSize_pos
  have hends : position % b.chunkSize + b.here position count = b.chunkSize := by
    rw [here] at hmore ⊢
    omega
  have hnext : position + b.here position count =
      b.chunkSize * (position / b.chunkSize + 1) := by
    have hposition := Nat.div_add_mod position b.chunkSize
    rw [Nat.mul_succ]
    omega
  rw [hnext]
  exact ⟨hends, Nat.mul_div_cancel_left _ b.chunkSize_pos, Nat.mul_mod_right _ _⟩

/-- The part that a turn takes of a chunk. -/
def partAt (b : Buffer) (chunk : Loan) (position count : Nat) : Chunks.Part :=
  ⟨position / b.chunkSize, position % b.chunkSize,
    (chunk.view.drop (position % b.chunkSize)).take (b.here position count)⟩

theorem length_partAt {chunk : Loan} (hview : chunk.view.length = b.chunkSize)
    (position count : Nat) :
    (b.partAt chunk position count).bytes.length = b.here position count := by
  have hinside := b.mod_add_here_le position count
  rw [partAt, List.length_take_of_le]
  rw [List.length_drop, hview]
  exact Nat.le_sub_of_add_le' hinside

/-- **The first call**, and the calls for what is left of the window behind it. -/
theorem Tidy.locate_parts (h : b.Tidy) (place : Nat) (hcount : 0 < count)
    (hfit : position + count ≤ b.length) :
    ∃ chunk, b.chunks[position / b.chunkSize]? = some chunk ∧
      chunk.view.length = b.chunkSize ∧
      Chunks.locate place (Chunks.parts b.chunkSize 0 b.chunks position count) =
        (place, b.partAt chunk position count) ::
          Chunks.locate (place + b.here position count)
            (Chunks.parts b.chunkSize 0 b.chunks (position + b.here position count)
              (count - b.here position count)) := by
  obtain ⟨chunk, hchunk, -, -, hparts⟩ := h.shows.turn position count hcount hfit
  have hview := h.even chunk (List.mem_of_getElem? hchunk)
  refine ⟨chunk, hchunk, hview, ?_⟩
  change _ = b.partAt chunk position count :: _ at hparts
  rw [hparts, Chunks.locate, length_partAt hview]
  rfl

/-- **A part lies in a chunk**, is not empty, and stands there where its place in the window
is in the buffer. -/
structure Holds (b : Buffer) (offset : Nat) (call : Nat × Chunks.Part) : Prop where
  nonempty : call.2.bytes ≠ []
  inside : call.2.within + call.2.bytes.length ≤ b.chunkSize
  /-- The bytes are those that stand there in the chunk. -/
  bytes_eq : ∃ chunk, b.chunks[call.2.chunk]? = some chunk ∧
    call.2.bytes = (chunk.view.drop call.2.within).take call.2.bytes.length
  position_eq : call.2.chunk * b.chunkSize + call.2.within = offset + call.1

/-- The part of a turn does. -/
theorem holds_partAt {chunk : Loan} (hcount : 0 < count)
    (hchunk : b.chunks[position / b.chunkSize]? = some chunk)
    (hview : chunk.view.length = b.chunkSize) (hplace : offset + place = position) :
    b.Holds offset (place, b.partAt chunk position count) := by
  have hlength := length_partAt hview position count
  refine ⟨?_, ?_, ⟨chunk, hchunk, ?_⟩, ?_⟩
  · rw [← List.length_pos_iff, hlength]
    exact b.here_pos position hcount
  · rw [hlength]
    exact b.mod_add_here_le position count
  · rw [hlength]
    rfl
  · rw [hplace, partAt, Nat.mul_comm, Nat.div_add_mod]

/-! ## All turns -/

section Turns

variable (h : b.Tidy)
include h

/-- **Every part lies in a chunk.** -/
theorem Tidy.holds_locate (hfit : position + count ≤ b.length)
    (hplace : offset + place = position) :
    ∀ call ∈ Chunks.locate place (Chunks.parts b.chunkSize 0 b.chunks position count),
      b.Holds offset call := by
  induction count using Nat.strong_induction_on generalizing place position with
  | _ count ih =>
    rcases Nat.eq_zero_or_pos count with rfl | hcount
    · rw [Chunks.parts_zero]
      exact nofun
    · obtain ⟨chunk, hchunk, hview, hturn⟩ := h.locate_parts place hcount hfit
      have hpos := b.here_pos position hcount
      have hle := b.here_le position count
      rw [hturn]
      refine List.forall_mem_cons.2 ⟨holds_partAt hcount hchunk hview hplace, ?_⟩
      exact ih _ (by omega) (by omega) (by omega)

/-- **The parts follow each other.** -/
theorem Tidy.isChain_locate (place : Nat) (hfit : position + count ≤ b.length) :
    (Chunks.locate place (Chunks.parts b.chunkSize 0 b.chunks position count)).IsChain
      (Chunks.Joins b.chunkSize) := by
  induction count using Nat.strong_induction_on generalizing place position with
  | _ count ih =>
    rcases Nat.eq_zero_or_pos count with rfl | hcount
    · rw [Chunks.parts_zero]
      exact .nil
    obtain ⟨chunk, hchunk, hview, hturn⟩ := h.locate_parts place hcount hfit
    have hpos := b.here_pos position hcount
    have hle := b.here_le position count
    rw [hturn, List.isChain_cons]
    refine ⟨?_, ih _ (by omega) _ (by omega)⟩
    rcases Nat.eq_zero_or_pos (count - b.here position count) with hdone | hmore
    · rw [hdone, Chunks.parts_zero]
      exact nofun
    · -- the next turn is known from its position, which is the first one of a chunk
      obtain ⟨hends, hdiv, hmod⟩ := div_mod_add_here hmore
      have hrest : position + b.here position count + (count - b.here position count) ≤ b.length :=
        by omega
      obtain ⟨other, -, -, hnext⟩ := h.locate_parts (place + b.here position count) hmore hrest
      have hlength := length_partAt hview position count
      rw [hnext]
      rintro call ⟨⟩
      refine ⟨?_, hdiv, ?_, hmod⟩
      · rw [hlength]
      · rw [hlength]
        exact hends

/-- **The loop of the machine makes these calls**: each chunk that it asks for is there, no
place in one is behind its end, and no sum is too large. -/
theorem Tidy.walk_eq {start : Nat} (hstart : start ≤ position)
    (hfit : position + count ≤ b.length) :
    b.walk start position (position + count) =
      .ok (Chunks.locate (position - start)
        (Chunks.parts b.chunkSize 0 b.chunks position count)) := by
  induction count using Nat.strong_induction_on generalizing position with
  | _ count ih =>
    rcases Nat.eq_zero_or_pos count with rfl | hcount
    · rw [walk, Nat.add_zero, if_neg (Nat.lt_irrefl _), Chunks.parts_zero]
      rfl
    obtain ⟨chunk, hchunk, hview, hturn⟩ := h.locate_parts (position - start) hcount hfit
    have hpos := b.here_pos position hcount
    have hle := b.here_le position count
    have hinside := b.mod_add_here_le position count
    have hlength := h.length_lt
    have hplace : Checked.sub position start = .ok (position - start) := if_pos hstart
    have hitem : Checked.item b.chunks (position / b.chunkSize) = .ok chunk := by
      rw [Checked.item, hchunk]
    have hwithin := Nat.mod_le position b.chunkSize
    have hstop : Checked.add wordLimit (position % b.chunkSize) (b.here position count) =
        .ok (position % b.chunkSize + b.here position count) := if_pos (by omega)
    have hslice : Checked.slice chunk.view (position % b.chunkSize)
        (position % b.chunkSize + b.here position count) =
          .ok ((chunk.view.drop (position % b.chunkSize)).take (b.here position count)) := by
      rw [Checked.slice, if_pos ⟨Nat.le_add_right _ _, hview.symm ▸ hinside⟩, List.drop_take,
        Nat.add_sub_cancel_left]
    have hnext : Checked.add wordLimit position (b.here position count) =
        .ok (position + b.here position count) := if_pos (by omega)
    have hothers := ih (count - b.here position count) (by omega)
      (show start ≤ position + b.here position count by omega) (by omega)
    rw [Nat.add_assoc, Nat.add_sub_of_le hle] at hothers
    rw [walk, if_pos (Nat.lt_add_of_pos_right hcount), Nat.add_sub_cancel_left]
    simp only [hplace, hitem, hstop, hslice, hnext, hothers, bind, Except.bind, pure, Except.pure]
    rw [hturn, Nat.sub_add_comm hstart]
    rfl

/-! ## Windows -/

/-- The end of a window, cut off where words end, is that of the window. -/
theorem Tidy.min_addSaturating (offset count : Nat) :
    min (Checked.addSaturating offset count) b.length = min (offset + count) b.length := by
  have hlength := h.length_lt
  rw [Checked.addSaturating]
  omega

/-- **The machine is called for the parts of the window.** -/
theorem Tidy.calls_eq (offset count : Nat) :
    b.calls offset count = .ok (Chunks.locate 0 (b.range offset count)) := by
  rw [calls, h.min_addSaturating, range]
  rcases Nat.lt_or_ge offset b.length with hin | hout
  · have hfinish : min (offset + count) b.length = offset + min count (b.length - offset) := by
      omega
    rw [hfinish, h.walk_eq (Nat.le_refl _) (by omega), Nat.sub_self]
  · rw [walk, if_neg (by omega), Nat.sub_eq_zero_of_le hout, Nat.min_zero, Chunks.parts_zero]
    rfl

/-- **The parts of a window are its bytes.** -/
theorem Tidy.flatMap_range (offset count : Nat) :
    (b.range offset count).flatMap Chunks.Part.bytes =
      (b.content.drop offset).take (min (offset + count) b.length - offset) := by
  rcases Nat.lt_or_ge offset b.length with hin | hout
  · have hcount : min (offset + count) b.length - offset = min count (b.length - offset) := by
      omega
    rw [range, h.flatMap_parts (by omega), hcount]
  · rw [range, Nat.sub_eq_zero_of_le hout, Nat.min_zero, Chunks.parts_zero,
      show min (offset + count) b.length - offset = 0 by omega, List.take_zero]
    rfl

omit h in
/-- A read of a window gives its parts, one behind another. -/
theorem readAt_eq (hin : offset < b.length) (count : Nat) :
    b.readAt offset count = .ok ((b.range offset count).flatMap Chunks.Part.bytes) := by
  rw [readAt, if_neg (Nat.not_le.2 hin), range, Nat.min_comm]

/-- There is no part just if there is no byte. -/
theorem Tidy.range_eq_nil_iff (offset count : Nat) :
    b.range offset count = [] ↔ min (offset + count) b.length ≤ offset := by
  constructor
  · intro hnone
    have hbytes := h.flatMap_range offset count
    rw [hnone, List.flatMap_nil] at hbytes
    have hlength := congrArg List.length hbytes
    rw [List.length_nil, List.length_take, List.length_drop, h.length_content] at hlength
    omega
  · intro hempty
    rw [range, show min count (b.length - offset) = 0 by omega, Chunks.parts_zero]

end Turns

/-- **The calls for a window** are a partition of it. -/
structure Partitions (b : Buffer) (offset count : Nat) (calls : List (Nat × Chunks.Part)) :
    Prop where
  /-- The first part stands at the start of the window. -/
  first : ∀ call ∈ calls.head?, call.1 = 0
  /-- Each other one stands where the one in front of it ends, in the next chunk. -/
  joins : calls.IsChain (Chunks.Joins b.chunkSize)
  holds : ∀ call ∈ calls, b.Holds offset call
  /-- Together they are the window, as far as the buffer goes. -/
  bytes_eq : calls.flatMap (fun call => call.2.bytes) =
    (b.content.drop offset).take (min (offset + count) b.length - offset)
  /-- There is none just if the window is empty. -/
  eq_nil_iff : calls = [] ↔ min (offset + count) b.length ≤ offset

/-- **The calls for a window of a tidy buffer** are a partition of it. -/
theorem Tidy.partitions (h : b.Tidy) (offset count : Nat) :
    b.Partitions offset count (Chunks.locate 0 (b.range offset count)) := by
  have hnil : Chunks.locate 0 (b.range offset count) = [] ↔ b.range offset count = [] := by
    cases b.range offset count with
    | nil => exact iff_of_true rfl rfl
    | cons part parts => exact iff_of_false (List.cons_ne_nil _ _) (List.cons_ne_nil _ _)
  refine ⟨?_, ?_, ?_, ?_, hnil.trans (h.range_eq_nil_iff offset count)⟩
  · rintro call hcall
    cases hparts : b.range offset count with
    | nil =>
      rw [hparts] at hcall
      cases hcall
    | cons part parts =>
      rw [hparts] at hcall
      cases hcall
      rfl
  · rcases Nat.lt_or_ge offset b.length with hin | hout
    · exact h.isChain_locate 0 (by omega)
    · rw [hnil.2 ((h.range_eq_nil_iff offset count).2 (by omega))]
      exact .nil
  · rcases Nat.lt_or_ge offset b.length with hin | hout
    · exact h.holds_locate (by omega) (Nat.add_zero offset)
    · rw [hnil.2 ((h.range_eq_nil_iff offset count).2 (by omega))]
      exact nofun
  · rw [Chunks.flatMap_locate, h.flatMap_range]

end Buffer

end Wirepool
