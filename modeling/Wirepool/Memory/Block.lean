import Wirepool.Fault
import Wirepool.Memory.Limits

/-!
# Blocks of memory

A block is a row of bytes of fixed size that starts out all zero. It is kept as
its size and the front part that was ever touched; all bytes behind that part
are zero. So a fresh block of 32 MiB costs nothing, and two blocks of one
content may differ in how much of it they spell out: what counts is `toBytes`.

Every operation stays inside the block. What would reach beyond its end is cut
off. The lemmas say what each operation does to `toBytes`.
-/

namespace Wirepool

/-- **A block of memory.** -/
structure Block where
  /-- The number of bytes. -/
  size : Nat
  /-- The front part; zeros follow. -/
  front : List UInt8
  /-- The front part lies in the block. -/
  front_le : front.length ≤ size
  deriving DecidableEq

namespace Block

/-- A fresh block. -/
def zeroed (size : Nat) : Block := ⟨size, [], Nat.zero_le _⟩

instance : Inhabited Block := ⟨zeroed 0⟩

/-- **Asks the system for a fresh block.** More than addresses can span is
refused before any memory is touched. -/
def allocate (size : Nat) : Except Abort Block :=
  if size < addressLimit then .ok (zeroed size) else .error .capacityOverflow

/-- **All bytes of a block.** -/
def toBytes (b : Block) : List UInt8 :=
  b.front ++ List.replicate (b.size - b.front.length) 0

/-- The block of the same size with the given front part, cut off where the
block ends. -/
def withFront (b : Block) (front : List UInt8) : Block :=
  ⟨b.size, front.take b.size, by simp only [List.length_take]; omega⟩

/-- At most `count` bytes from `offset` on. -/
def read (b : Block) (offset count : Nat) : List UInt8 :=
  let row := (b.front.drop offset).take count
  row ++ List.replicate (min count (b.size - offset) - row.length) 0

/-- The block with `row` written at `offset`. -/
def write (b : Block) (offset : Nat) (row : List UInt8) : Block :=
  b.withFront (b.front.take offset ++ List.replicate (offset - b.front.length) 0
    ++ row ++ b.front.drop (offset + row.length))

/-- The block with `count` bytes from `offset` on set to zero. Bytes that were
never touched are zero already. -/
def clear (b : Block) (offset count : Nat) : Block :=
  b.withFront (b.front.take offset ++ List.replicate (min count (b.front.length - offset)) 0
    ++ b.front.drop (offset + count))

/-- The block with `count` bytes from `offset` on set to one value. -/
def fill (b : Block) (offset count : Nat) (value : UInt8) : Block :=
  if value = 0 then b.clear offset count else b.write offset (List.replicate count value)

/-! ## What the operations do to the content -/

@[simp] theorem length_toBytes (b : Block) : b.toBytes.length = b.size := by
  have := b.front_le
  simp only [toBytes, List.length_append, List.length_replicate]
  omega

@[simp] theorem toBytes_zeroed (size : Nat) :
    (zeroed size).toBytes = List.replicate size 0 := by
  simp [zeroed, toBytes]

@[simp] theorem size_withFront (b : Block) (front : List UInt8) :
    (b.withFront front).size = b.size := rfl

@[simp] theorem size_write (b : Block) (offset : Nat) (row : List UInt8) :
    (b.write offset row).size = b.size := rfl

@[simp] theorem size_clear (b : Block) (offset count : Nat) :
    (b.clear offset count).size = b.size := rfl

@[simp] theorem size_fill (b : Block) (offset count : Nat) (value : UInt8) :
    (b.fill offset count value).size = b.size := by
  unfold fill
  split <;> rfl

/-- The byte at a position, zero where nothing was ever touched. -/
theorem getElem?_toBytes (b : Block) (i : Nat) :
    b.toBytes[i]? = if i < b.size then some (b.front[i]?.getD 0) else none := by
  have := b.front_le
  by_cases hf : i < b.front.length
  · simp [toBytes, List.getElem?_append, hf, show i < b.size by omega]
  · by_cases hs : i < b.size
    · simp only [toBytes, List.getElem?_append, hf, if_false, List.getElem?_replicate, hs, if_true]
      rw [if_pos (by omega), List.getElem?_eq_none (by omega)]
      rfl
    · rw [List.getElem?_eq_none (by simp; omega), if_neg hs]

/-- A front part may be longer than the block or spell out zeros. -/
theorem getElem?_toBytes_withFront (b : Block) (front : List UInt8) (i : Nat) :
    (b.withFront front).toBytes[i]? = if i < b.size then some (front[i]?.getD 0) else none := by
  rw [getElem?_toBytes]
  by_cases hs : i < b.size
  · simp [withFront, hs]
  · simp [withFront, hs]

/-- **Reading** takes a stretch of the content. -/
theorem read_eq (b : Block) (offset count : Nat) :
    b.read offset count = (b.toBytes.drop offset).take count := by
  have := b.front_le
  simp only [read, toBytes, List.drop_append, List.take_append, List.length_take,
    List.length_drop, List.drop_replicate, List.take_replicate]
  congr 2
  omega

/-- **Writing** replaces a stretch of the content and nothing else. -/
theorem getElem?_toBytes_write (b : Block) (offset : Nat) (row : List UInt8) (i : Nat) :
    (b.write offset row).toBytes[i]? =
      if i < b.size ∧ offset ≤ i ∧ i < offset + row.length then row[i - offset]?
      else b.toBytes[i]? := by
  rw [write, getElem?_toBytes_withFront, getElem?_toBytes]
  by_cases hs : i < b.size
  · simp only [hs, if_true, true_and]
    simp only [List.getElem?_append, List.length_append, List.length_take, List.length_replicate,
      List.getElem?_take, List.getElem?_replicate, List.getElem?_drop]
    by_cases h1 : i < offset
    · rw [if_neg (by omega : ¬(offset ≤ i ∧ i < offset + row.length))]
      by_cases h2 : i < b.front.length
      · simp [h1, show i < min offset b.front.length by omega,
          show i < min offset b.front.length + (offset - b.front.length) by omega,
          show i < min offset b.front.length + (offset - b.front.length) + row.length by omega]
      · simp [show ¬ i < min offset b.front.length by omega,
          show i - min offset b.front.length < offset - b.front.length by omega,
          show i < min offset b.front.length + (offset - b.front.length) by omega,
          show i < min offset b.front.length + (offset - b.front.length) + row.length by omega,
          List.getElem?_eq_none (show b.front.length ≤ i by omega)]
    · have hlen : min offset b.front.length + (offset - b.front.length) = offset := by omega
      rw [hlen]
      by_cases h2 : i < offset + row.length
      · rw [if_pos h2, if_neg (by omega : ¬ i < offset), if_pos ⟨by omega, h2⟩,
          List.getElem?_eq_getElem (by omega : i - offset < row.length)]
        rfl
      · rw [if_neg h2, if_neg (by omega : ¬(offset ≤ i ∧ i < offset + row.length)),
          show offset + row.length + (i - (offset + row.length)) = i by omega]
  · simp only [hs, if_false, false_and]

/-- **Clearing** is writing zeros. -/
theorem toBytes_clear (b : Block) (offset count : Nat) :
    (b.clear offset count).toBytes = (b.write offset (List.replicate count 0)).toBytes := by
  apply List.ext_getElem?
  intro i
  rw [getElem?_toBytes_write, clear, getElem?_toBytes_withFront, getElem?_toBytes]
  by_cases hs : i < b.size
  · simp only [hs, if_true, true_and, List.length_replicate]
    simp only [List.getElem?_append, List.length_append, List.length_take, List.length_replicate,
      List.getElem?_take, List.getElem?_replicate, List.getElem?_drop]
    by_cases hf : i < b.front.length
    · by_cases h1 : i < offset
      · simp [h1, show i < min offset b.front.length by omega,
          show i < min offset b.front.length + min count (b.front.length - offset) by omega,
          show ¬(offset ≤ i ∧ i < offset + count) by omega]
      · by_cases h2 : i < offset + count
        · simp [show ¬ i < min offset b.front.length by omega,
            show i < min offset b.front.length + min count (b.front.length - offset) by omega,
            show i - min offset b.front.length < min count (b.front.length - offset) by omega,
            show offset ≤ i ∧ i < offset + count by omega, show i - offset < count by omega]
        · rw [if_neg (by omega), if_neg (by omega : ¬(offset ≤ i ∧ i < offset + count)),
            show offset + count + (i - (min offset b.front.length
              + min count (b.front.length - offset))) = i by omega]
    · have hnone : b.front[i]? = none := List.getElem?_eq_none (by omega)
      rw [if_neg (by omega), List.getElem?_eq_none (by omega), hnone]
      split
      · rw [if_pos (by omega)]; rfl
      · rfl
  · simp only [hs, if_false, false_and]

/-- **Filling** is writing one value over and over. -/
theorem toBytes_fill (b : Block) (offset count : Nat) (value : UInt8) :
    (b.fill offset count value).toBytes =
      (b.write offset (List.replicate count value)).toBytes := by
  unfold fill
  split
  · subst_vars
    exact toBytes_clear b offset count
  · rfl

end Block

end Wirepool
