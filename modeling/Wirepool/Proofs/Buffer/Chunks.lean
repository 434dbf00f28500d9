import Wirepool.Proofs.Memory.View
import Wirepool.Buffer

/-!
# A row of chunks as one row of bytes

Chunks of one size that stand one behind another make one long row of bytes.
The parts of a window are a stretch of that row, clearing and writing replace
one. So nothing behind this file needs to know where one chunk ends and the next
one starts.

A loop over a window takes one part at a turn: the chunk is the position divided
by the size, the place in the chunk is the remainder. The last section says that
the parts are what that loop finds, and that it always finds a chunk.
-/

namespace Wirepool

namespace Chunks

variable {size offset count : Nat} {chunks : List Loan}

/-- **The bytes of a row of chunks**, one chunk behind another. -/
def joined (chunks : List Loan) : List UInt8 := chunks.flatMap Loan.view

/-- **Chunks of one size**: that much is seen of each of them. -/
def Even (size : Nat) (chunks : List Loan) : Prop := ∀ chunk ∈ chunks, chunk.view.length = size

@[simp] theorem joined_cons (chunk : Loan) (chunks : List Loan) :
    joined (chunk :: chunks) = chunk.view ++ joined chunks := List.flatMap_cons

/-- Chunks behind chunks. -/
theorem joined_append (chunks others : List Loan) :
    joined (chunks ++ others) = joined chunks ++ joined others := List.flatMap_append

theorem even_cons {chunk : Loan} :
    Even size (chunk :: chunks) ↔ chunk.view.length = size ∧ Even size chunks :=
  List.forall_mem_cons

theorem Even.append {others : List Loan} (h : Even size chunks) (h' : Even size others) :
    Even size (chunks ++ others) := List.forall_mem_append.mpr ⟨h, h'⟩

/-- There are as many bytes as chunks, times the size of a chunk. -/
theorem Even.length_joined (h : Even size chunks) :
    (joined chunks).length = chunks.length * size := by
  induction chunks with
  | nil => exact (Nat.zero_mul size).symm
  | cons chunk chunks ih =>
    obtain ⟨hchunk, hchunks⟩ := even_cons.mp h
    rw [joined_cons, List.length_append, hchunk, ih hchunks, List.length_cons, Nat.succ_mul,
      Nat.add_comm]

/-! ## Reading -/

/-- **The parts of a window** are a stretch of the bytes. -/
theorem Even.flatMap_parts (h : Even size chunks) (first offset count : Nat) :
    (parts size first chunks offset count).flatMap Part.bytes =
      ((joined chunks).drop offset).take count := by
  induction chunks generalizing first offset count with
  | nil =>
    show [] = (([] : List UInt8).drop offset).take count
    rw [List.drop_nil, List.take_nil]
  | cons chunk chunks ih =>
    obtain ⟨hchunk, hchunks⟩ := even_cons.mp h
    rw [parts, joined_cons]
    by_cases hcount : count = 0
    · rw [if_pos hcount, hcount, List.take_zero]
      rfl
    · rw [if_neg hcount, List.drop_append, hchunk]
      by_cases hoffset : size ≤ offset
      · have hfront : chunk.view.drop offset = [] := List.drop_eq_nil_of_le (hchunk ▸ hoffset)
        rw [if_pos hoffset, ih hchunks, hfront, List.nil_append]
      · -- the chunk gives all it has from the offset on, or all that is asked for
        have hrest : (chunk.view.drop offset).length = size - offset := by
          rw [List.length_drop, hchunk]
        have hhere : (chunk.view.drop offset).take (min (size - offset) count) =
            (chunk.view.drop offset).take count := by
          rw [List.take_eq_take_iff, hrest]
          omega
        have hlater : count - min (size - offset) count = count - (size - offset) := by omega
        rw [if_neg hoffset, List.flatMap_cons, ih hchunks, Loan.read_eq_view, hhere, hlater,
          List.take_append, hrest, Nat.sub_eq_zero_of_le (Nat.le_of_not_le hoffset)]

/-! ## Writing -/

/-- **Writing** replaces a stretch of the bytes. -/
theorem Even.joined_write (h : Even size chunks) {row : List UInt8}
    (hfit : offset + row.length ≤ (joined chunks).length) :
    joined (write size chunks offset row) = splice (joined chunks) offset row := by
  induction chunks generalizing offset row with
  | nil =>
    obtain ⟨rfl, hrow⟩ := Nat.add_eq_zero_iff.mp (Nat.le_zero.mp hfit)
    rw [List.eq_nil_of_length_eq_zero hrow]
    rfl
  | cons chunk chunks ih =>
    obtain ⟨hchunk, hchunks⟩ := even_cons.mp h
    rw [joined_cons, List.length_append, hchunk] at hfit
    rw [write, joined_cons]
    by_cases hrow : row = []
    · rw [hrow, splice_nil]
      rfl
    · rw [if_neg (fun hempty => hrow (List.isEmpty_iff.mp hempty))]
      by_cases hoffset : size ≤ offset
      · rw [if_pos hoffset, joined_cons, ih hchunks (by omega),
          splice_append_right (hchunk ▸ hoffset), hchunk]
      · -- the front of the row goes into the chunk, the rest into those behind it
        have hfront : offset + (row.take (size - offset)).length ≤ chunk.view.length := by
          rw [List.length_take, hchunk]
          omega
        have hback : 0 + (row.drop (size - offset)).length ≤ (joined chunks).length := by
          rw [List.length_drop]
          omega
        rw [if_neg hoffset, joined_cons, Loan.view_write hfront, ih hchunks hback, ← hchunk,
          splice_append_of_le (by omega)]

/-- Writing keeps the size of the chunks. -/
theorem Even.write (h : Even size chunks) (offset : Nat) (row : List UInt8) :
    Even size (write size chunks offset row) := by
  induction chunks generalizing offset row with
  | nil => exact nofun
  | cons chunk chunks ih =>
    obtain ⟨hchunk, hchunks⟩ := even_cons.mp h
    rw [Chunks.write]
    split
    · exact h
    · split
      · exact even_cons.mpr ⟨hchunk, ih hchunks _ _⟩
      · exact even_cons.mpr ⟨by rw [Loan.length_view_write, hchunk], ih hchunks _ _⟩

@[simp] theorem length_write (size : Nat) (chunks : List Loan) (offset : Nat) (row : List UInt8) :
    (Chunks.write size chunks offset row).length = chunks.length := by
  induction chunks generalizing offset row with
  | nil => rfl
  | cons chunk chunks ih =>
    rw [Chunks.write]
    split
    · rfl
    · split <;> rw [List.length_cons, ih, List.length_cons]

/-- **Clearing** is writing zeros. -/
theorem map_view_clear (size : Nat) (chunks : List Loan) (offset count : Nat) :
    (clear size chunks offset count).map Loan.view =
      (Chunks.write size chunks offset (List.replicate count 0)).map Loan.view := by
  induction chunks generalizing offset count with
  | nil => rfl
  | cons chunk chunks ih =>
    rw [clear, Chunks.write]
    by_cases hcount : count = 0
    · rw [if_pos hcount, hcount]
      rfl
    · have hrow : ¬(List.replicate count (0 : UInt8)).isEmpty := by
        rw [List.isEmpty_iff, List.replicate_eq_nil_iff]
        exact hcount
      rw [if_neg hcount, if_neg hrow]
      by_cases hoffset : size ≤ offset
      · rw [if_pos hoffset, if_pos hoffset, List.map_cons, List.map_cons, ih]
      · have hlater : count - min (size - offset) count = count - (size - offset) := by omega
        rw [if_neg hoffset, if_neg hoffset, List.map_cons, List.map_cons, ih, Loan.view_fill,
          List.take_replicate, List.drop_replicate, hlater]

/-- Clearing keeps the number of chunks. -/
@[simp] theorem length_clear (size : Nat) (chunks : List Loan) (offset count : Nat) :
    (clear size chunks offset count).length = chunks.length := by
  have hlength := congrArg List.length (map_view_clear size chunks offset count)
  rwa [List.length_map, List.length_map, length_write] at hlength

/-- Clearing keeps the size of the chunks. -/
theorem Even.clear (h : Even size chunks) (offset count : Nat) :
    Even size (clear size chunks offset count) := by
  intro chunk hchunk
  have hview := List.mem_map_of_mem (f := Loan.view) hchunk
  rw [map_view_clear] at hview
  obtain ⟨written, hwritten, heq⟩ := List.mem_map.mp hview
  rw [← heq]
  exact h.write offset _ written hwritten

/-- **Clearing** replaces a stretch of the bytes by zeros. -/
theorem Even.joined_clear (h : Even size chunks)
    (hfit : offset + count ≤ (joined chunks).length) :
    joined (Chunks.clear size chunks offset count) =
      splice (joined chunks) offset (List.replicate count 0) := by
  rw [← h.joined_write (by rwa [List.length_replicate]), joined, joined, List.flatMap_def,
    List.flatMap_def, map_view_clear]

/-! ## The loop over a window -/

/-- Nothing is a window of no parts. -/
@[simp] theorem parts_zero (size first : Nat) (chunks : List Loan) (offset : Nat) :
    parts size first chunks offset 0 = [] := by
  cases chunks with
  | nil => rfl
  | cons chunk chunks => rw [parts, if_pos rfl]

/-- The parts of a window that starts behind the first chunk. -/
theorem parts_cons_of_le (first : Nat) (chunk : Loan) (chunks : List Loan) (hoffset : size ≤ offset)
    (count : Nat) :
    parts size first (chunk :: chunks) offset count =
      parts size (first + 1) chunks (offset - size) count := by
  rw [parts]
  by_cases hcount : count = 0
  · rw [if_pos hcount, hcount, parts_zero]
  · rw [if_neg hcount, if_pos hoffset]

/-- **One turn of the loop** over a window finds the chunk of the position, takes
what it has from there on, or all that is asked for, and goes on behind that. -/
theorem parts_eq_cons (hsize : 0 < size) (first : Nat) (hcount : 0 < count)
    (hfit : offset + count ≤ chunks.length * size) :
    ∃ chunk, chunks[offset / size]? = some chunk ∧
      parts size first chunks offset count =
        ⟨first + offset / size, offset % size,
          chunk.read (offset % size) (min (size - offset % size) count)⟩ ::
        parts size first chunks (offset + min (size - offset % size) count)
          (count - min (size - offset % size) count) := by
  induction chunks generalizing first offset with
  | nil =>
    rw [List.length_nil, Nat.zero_mul] at hfit
    omega
  | cons chunk chunks ih =>
    rw [List.length_cons, Nat.succ_mul] at hfit
    by_cases hoffset : size ≤ offset
    · -- the window starts behind the first chunk, so the turn is one of the others
      have hothers : offset - size + count ≤ chunks.length * size := by omega
      obtain ⟨found, hfound, hparts⟩ := ih (first + 1) hothers
      rw [← Nat.mod_eq_sub_mod hoffset] at hparts
      have hdiv := Nat.div_eq_sub_div hsize hoffset
      refine ⟨found, by rw [hdiv, List.getElem?_cons_succ, hfound], ?_⟩
      rw [parts_cons_of_le first chunk chunks hoffset, hparts,
        parts_cons_of_le first chunk chunks (Nat.le_add_right_of_le hoffset),
        Nat.sub_add_comm hoffset, hdiv, Nat.add_right_comm first 1, Nat.add_assoc first]
    · have hlt : offset < size := Nat.lt_of_not_le hoffset
      refine ⟨chunk, by rw [Nat.div_eq_of_lt hlt]; rfl, ?_⟩
      rw [Nat.div_eq_of_lt hlt, Nat.mod_eq_of_lt hlt, parts, if_neg (Nat.ne_of_gt hcount),
        if_neg hoffset]
      dsimp only
      rcases Nat.le_total (size - offset) count with hmore | hless
      · -- the next turn starts where the second chunk does
        have hnext : offset + (size - offset) = size := Nat.add_sub_of_le (Nat.le_of_lt hlt)
        rw [Nat.min_eq_left hmore, hnext, parts_cons_of_le first chunk chunks (Nat.le_refl size),
          Nat.sub_self, Nat.add_zero first]
      · rw [Nat.min_eq_right hless, Nat.sub_self, parts_zero, parts_zero, Nat.add_zero first]

end Chunks

end Wirepool
