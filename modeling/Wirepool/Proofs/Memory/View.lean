import Mathlib.Data.List.Basic
import Wirepool.Pool.Basic

/-!
# What is seen of a loan

A borrower sees the front of the memory behind a loan, as much of it as was
asked for. Reads and writes are said here on that view alone: a read takes a
stretch of it, a write replaces one, and neither reaches behind its end, where
the bytes of earlier borrowers stand.
-/

namespace Wirepool

/-- **A row with a stretch replaced** by another one of the same length. -/
def splice (row : List UInt8) (offset : Nat) (patch : List UInt8) : List UInt8 :=
  row.take offset ++ patch ++ row.drop (offset + patch.length)

/-- Replacing a stretch that lies in a row keeps its length. -/
theorem length_splice {row patch : List UInt8} {offset : Nat}
    (h : offset + patch.length ≤ row.length) : (splice row offset patch).length = row.length := by
  rw [splice, List.length_append, List.length_append, List.length_take, List.length_drop]
  omega

/-- The bytes of a row with a stretch replaced. -/
theorem getElem?_splice {row patch : List UInt8} {offset : Nat} (h : offset ≤ row.length)
    (i : Nat) :
    (splice row offset patch)[i]? =
      if offset ≤ i ∧ i < offset + patch.length then patch[i - offset]? else row[i]? := by
  have hfront : (row.take offset).length = offset := List.length_take_of_le h
  rw [splice, List.append_assoc, List.getElem?_append, hfront]
  by_cases h1 : i < offset
  · rw [if_pos h1, if_neg (by omega), List.getElem?_take_of_lt h1]
  · rw [if_neg h1, List.getElem?_append]
    by_cases h2 : i < offset + patch.length
    · rw [if_pos (by omega), if_pos ⟨by omega, h2⟩]
    · rw [if_neg (by omega), if_neg (by omega), List.getElem?_drop]
      congr 1
      omega

/-- Replacing nothing changes nothing. -/
@[simp] theorem splice_nil (row : List UInt8) (offset : Nat) : splice row offset [] = row := by
  rw [splice, List.append_nil, List.length_nil, Nat.add_zero, List.take_append_drop]

/-- Replacing a stretch behind a front part leaves that part. -/
theorem splice_append_right {front : List UInt8} {offset : Nat} (h : front.length ≤ offset)
    (back patch : List UInt8) :
    splice (front ++ back) offset patch = front ++ splice back (offset - front.length) patch := by
  rw [splice, splice, List.take_append, List.take_of_length_le h, List.drop_append,
    List.drop_eq_nil_of_le (Nat.le_add_right_of_le h), List.nil_append,
    Nat.sub_add_comm h, List.append_assoc, List.append_assoc, List.append_assoc]

/-- A stretch that starts in a front part may end behind it. -/
theorem splice_append_of_le {front : List UInt8} {offset : Nat} (h : offset ≤ front.length)
    (back patch : List UInt8) :
    splice (front ++ back) offset patch =
      splice front offset (patch.take (front.length - offset)) ++
        splice back 0 (patch.drop (front.length - offset)) := by
  rw [splice, splice, splice, List.take_append_of_le_length h, List.drop_append, List.length_take,
    List.length_drop, List.take_zero, List.nil_append, Nat.zero_add]
  rcases Nat.le_total patch.length (front.length - offset) with hshort | hlong
  · -- all of the stretch lies in the front part
    rw [List.take_of_length_le hshort, List.drop_eq_nil_of_le hshort, List.nil_append,
      Nat.min_eq_right hshort, show offset + patch.length - front.length = 0 by omega,
      Nat.sub_eq_zero_of_le hshort, List.append_assoc, List.append_assoc, List.append_assoc]
  · -- nothing is left of the front part behind the stretch
    have hnone : front.drop (offset + patch.length) = [] := List.drop_eq_nil_of_le (by omega)
    have hend : front.drop (offset + (front.length - offset)) = [] :=
      List.drop_eq_nil_of_le (by omega)
    rw [Nat.min_eq_left hlong, hnone, hend, List.append_nil, List.nil_append,
      show offset + patch.length - front.length = patch.length - (front.length - offset) by omega,
      ← List.append_assoc, List.append_assoc (front.take offset) (patch.take _),
      List.take_append_drop]

namespace Loan

/-- A change of the content changes nothing else about a loan. -/
@[simp] theorem len_mapBlock (f : Block → Block) (hf : ∀ b, (f b).size = b.size) (loan : Loan) :
    (loan.mapBlock f hf).len = loan.len := by
  cases loan with
  | unpooled block => exact hf block
  | pooled lease => rfl

/-- A change of the content is a change of the memory behind a loan. -/
@[simp] theorem block_mapBlock (f : Block → Block) (hf : ∀ b, (f b).size = b.size)
    (loan : Loan) : (loan.mapBlock f hf).block = f loan.block := by
  cases loan <;> rfl

/-- **The view is the front of the memory.** -/
theorem view_eq (loan : Loan) : loan.view = loan.block.toBytes.take loan.len := by
  rw [view, read, Block.read_eq, Nat.sub_zero, Nat.min_self, List.drop_zero]

/-- As much is seen as was asked for, if the memory has that much. -/
theorem length_view (loan : Loan) : loan.view.length = min loan.len loan.block.size := by
  rw [view_eq, List.length_take, Block.length_toBytes]

/-- **A read takes a stretch of the view.** -/
theorem read_eq_view (loan : Loan) (offset count : Nat) :
    loan.read offset count = (loan.view.drop offset).take count := by
  rw [read, Block.read_eq, view_eq, List.drop_take, List.take_take]

/-- **A write replaces a stretch of the view**, cut off where the view ends. -/
theorem getElem?_view_write (loan : Loan) (offset : Nat) (row : List UInt8) (i : Nat) :
    (loan.write offset row).view[i]? =
      if i < loan.view.length ∧ offset ≤ i ∧ i < offset + row.length then row[i - offset]?
      else loan.view[i]? := by
  rw [view_eq, view_eq, write, block_mapBlock, len_mapBlock, List.length_take,
    Block.length_toBytes]
  by_cases hlen : i < loan.len
  · rw [List.getElem?_take_of_lt hlen, List.getElem?_take_of_lt hlen,
      Block.getElem?_toBytes_write, List.length_take, List.getElem?_take]
    by_cases hin : i < loan.block.size ∧ offset ≤ i ∧ i < offset + row.length
    · rw [if_pos (by omega), if_pos (by omega), if_pos (by omega)]
    · rw [if_neg (by omega), if_neg (by omega)]
  · rw [if_neg (by omega), List.getElem?_take_eq_none (by omega),
      List.getElem?_take_eq_none (by omega)]

/-- A write does not change how much is seen. -/
@[simp] theorem length_view_write (loan : Loan) (offset : Nat) (row : List UInt8) :
    (loan.write offset row).view.length = loan.view.length := by
  rw [length_view, length_view, write, len_mapBlock, block_mapBlock, Block.size_write]

/-- **Filling** is writing one value over and over. -/
theorem view_fill (loan : Loan) (offset count : Nat) (value : UInt8) :
    (loan.fill offset count value).view =
      (loan.write offset (List.replicate count value)).view := by
  rw [view_eq, view_eq, fill, write, len_mapBlock, len_mapBlock, block_mapBlock, block_mapBlock,
    Block.toBytes_fill, List.take_replicate, Nat.min_comm]

/-- **A write that lies in the view** replaces just that stretch. -/
theorem view_write {loan : Loan} {offset : Nat} {row : List UInt8}
    (h : offset + row.length ≤ loan.view.length) :
    (loan.write offset row).view = splice loan.view offset row := by
  apply List.ext_getElem?
  intro i
  rw [getElem?_view_write, getElem?_splice (by omega)]
  by_cases hin : offset ≤ i ∧ i < offset + row.length
  · rw [if_pos ⟨by omega, hin⟩, if_pos hin]
  · rw [if_neg (by omega), if_neg hin]

/-- **What is written is read back**, if there was room for it. -/
theorem read_write_self {loan : Loan} {offset count : Nat} {row : List UInt8}
    (h : row.length = (loan.read offset count).length) :
    (loan.write offset row).read offset count = row := by
  rw [read_eq_view, List.length_take, List.length_drop] at h
  rcases Nat.lt_or_ge loan.view.length offset with hout | hin
  · -- nothing can be read there, so nothing was written
    rw [Nat.sub_eq_zero_of_le (by omega), Nat.min_zero] at h
    rw [read_eq_view, List.drop_eq_nil_of_le (by rw [length_view_write]; omega), List.take_nil,
      List.eq_nil_of_length_eq_zero h]
  · have hfit : offset + row.length ≤ loan.view.length := by omega
    have hfront : (loan.view.take offset).length = offset := List.length_take_of_le hin
    rw [read_eq_view, view_write hfit, splice, List.append_assoc, List.drop_left' hfront]
    rcases Nat.lt_or_ge row.length count with hless | hmore
    · rw [List.drop_eq_nil_of_le (by omega), List.append_nil, List.take_of_length_le (by omega)]
    · rw [List.take_left' (by omega)]

/-- **A message that fills a loan** is what is seen of it. -/
theorem view_write_zero {loan : Loan} {row : List UInt8} (h : row.length = loan.view.length) :
    (loan.write 0 row).view = row := by
  rw [view_write (by omega), splice, List.take_zero, List.nil_append, Nat.zero_add,
    List.drop_eq_nil_of_le (by omega), List.append_nil]

end Loan

end Wirepool
