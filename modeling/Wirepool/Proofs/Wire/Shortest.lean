import Mathlib.Tactic.Ring
import Wirepool.Proofs.Wire.Grammar

/-!
# The form that is written is the shortest that is read

The machine measures a number before it writes it. The measure is a formula about leading
zeros and a quotient that is rounded up, and it has no loop; the writer is a loop that
shifts the number out of a word and stores a byte in each turn, and it knows nothing of the
measure. If the two differed by one byte, the writer would run past the place that is
reserved for it, or leave a byte there that belongs to nobody.

What ties them is the invariant of the loop: the bytes that are stored, and the form of what
is left of the word behind them, are the form of the number at every time.

A reader takes longer rows than that as well. They have groups of zeros at their end, which
is the only freedom there is: a number is in its form exactly if its last byte counts for
something, or is the only one.
-/

namespace Wirepool

/-- A row with another byte in one place. -/
def Checked.store (row : List UInt8) (index : Nat) (b : UInt8) : Except Trap (List UInt8) :=
  if index < row.length then .ok (row.set index b) else .error .outOfBounds

namespace Varint

/-! ## The writer of the machine -/

/-- The lowest byte of a word. -/
def lowByte (word : BitVec 64) : UInt8 := .ofBitVec (word.setWidth 8)

/-- **The number of bytes that a word takes**, from its leading zeros. -/
def measure (word : BitVec 64) : Except Trap Nat := do
  let bits ← Checked.sub 64 (word ||| 1).clz.toNat
  return if 0 < bits % 7 then bits / 7 + 1 else bits / 7

/-- Writes on with what is left of a word, from a place of a row on. Gives the row and the
place behind the last byte. -/
def putFrom (row : List UInt8) (word : BitVec 64) (index : Nat) :
    Except Trap (List UInt8 × Nat) :=
  if 128 ≤ word then do
    let row ← Checked.store row index (lowByte word ||| 128)
    let next ← Checked.add wordLimit index 1
    putFrom row (word >>> 7) next
  else do
    let row ← Checked.store row index (lowByte word)
    let next ← Checked.add wordLimit index 1
    return (row, next)
termination_by word.toNat
decreasing_by
  next hmore =>
  have hword : 128 ≤ word.toNat := BitVec.le_def.1 hmore
  rw [BitVec.toNat_ushiftRight, Nat.shiftRight_eq_div_pow]
  exact Nat.div_lt_self (by omega) (by decide)

/-- **Writes a word** to the front of a row, and gives the row with the number of bytes that
are written. -/
def put (row : List UInt8) (word : BitVec 64) : Except Trap (List UInt8 × Nat) :=
  putFrom row word 0

/-! ## The measure -/

/-- A set bit at the bottom makes no number longer. -/
theorem log2_or_one (n : Nat) : (n ||| 1).log2 = n.log2 := by
  rcases Nat.eq_zero_or_pos n with rfl | hn
  · rfl
  have hlow : 2 ^ n.log2 ≤ n := Nat.log2_self_le hn.ne'
  have hor : n ≤ n ||| 1 := Nat.left_le_or
  rw [Nat.log2_eq_iff (by omega)]
  exact ⟨hlow.trans hor, Nat.or_lt_two_pow Nat.lt_log2_self (Nat.one_lt_two_pow (by omega))⟩

/-- The highest bit that is set stands behind the leading zeros. -/
theorem log2_toNat {word : BitVec 64} (hword : word ≠ 0) :
    word.clz.toNat < 64 ∧ word.toNat.log2 = 63 - word.clz.toNat := by
  have hlow := BitVec.two_pow_sub_clz_le_toNat_of_ne_zero (by decide) hword
  have hhigh := BitVec.toNat_lt_two_pow_sub_clz (x := word)
  have hclz : word.clz.toNat < 64 := BitVec.lt_def.1 (BitVec.clz_lt_iff_ne_zero.2 hword)
  have hnat : word.toNat ≠ 0 := fun h => hword (BitVec.eq_of_toNat_eq h)
  refine ⟨hclz, (Nat.log2_eq_iff hnat).2 ?_⟩
  rw [show 63 - word.clz.toNat + 1 = 64 - word.clz.toNat by omega]
  exact ⟨hlow, hhigh⟩

/-- The bits that are not leading zeros are those up to the highest one that is set. -/
theorem sub_clz {word : BitVec 64} (hword : word ≠ 0) :
    Checked.sub 64 word.clz.toNat = .ok (word.toNat.log2 + 1) := by
  obtain ⟨hclz, hlog⟩ := log2_toNat hword
  rw [Checked.sub, if_pos hclz.le, hlog]
  exact congrArg Except.ok (by omega)

/-- **The measure is the number of groups**, and no difference in it is negative. -/
theorem measure_eq (word : BitVec 64) : measure word = .ok (size word.toNat) := by
  have hone : word ||| 1 ≠ 0 := fun h => by
    have hzero := congrArg BitVec.toNat h
    have hor : 1 ≤ word.toNat ||| 1 := Nat.right_le_or
    rw [BitVec.toNat_or] at hzero
    exact absurd hzero (Nat.ne_of_gt hor)
  have hlog : (word ||| 1).toNat.log2 = word.toNat.log2 := by
    rw [BitVec.toNat_or]
    exact log2_or_one word.toNat
  rw [measure, sub_clz hone, hlog, size]
  refine congrArg Except.ok ?_
  split
  · omega
  · omega

/-! ## The loop -/

theorem size_of_lt {n : Nat} (h : n < 128) : size n = 1 := by
  rw [size, Nat.div_eq_of_lt (log2_lt_group h)]

theorem size_of_le {n : Nat} (h : 128 ≤ n) : size n = size (n / 128) + 1 := by
  rw [← length_encode, encode_of_le h, List.length_cons, length_encode]

theorem size_pos (n : Nat) : 1 ≤ size n := Nat.le_add_left 1 _

/-- **A number has `count` groups at most** if it is below the place of the next one. -/
theorem size_le_iff {n count : Nat} (hcount : 0 < count) : size n ≤ count ↔ n < 128 ^ count := by
  rw [size, Nat.succ_le_iff, Nat.div_lt_iff_lt_mul (by decide), Nat.mul_comm,
    show (128 : Nat) = 2 ^ 7 from rfl, ← Nat.pow_mul]
  rcases Nat.eq_zero_or_pos n with rfl | hn
  · exact iff_of_true (Nat.mul_pos (by decide) hcount) (Nat.pow_pos (by decide))
  · exact Nat.log2_lt hn.ne'

theorem size_le_ten {n : Nat} (h : n < 2 ^ 64) : size n ≤ maxLength :=
  (size_le_iff (by decide)).2 (Nat.lt_of_lt_of_le h (by decide))

theorem toNat_lowByte (word : BitVec 64) : (lowByte word).toNat = word.toNat % 256 := by
  rw [lowByte, UInt8.toNat_ofBitVec, BitVec.toNat_setWidth]

/-- The top bit of a byte, when it is set. -/
theorem or_top {low : Nat} (h : low < 256) : low ||| 128 = low % 128 + 128 := by
  have hmod : (low ||| 128) % 2 ^ 7 = low % 2 ^ 7 := by
    rw [Nat.or_mod_two_pow]
    exact Nat.or_zero _
  have hdiv : (low ||| 128) / 2 ^ 7 = 1 := by
    rw [Nat.or_div_two_pow]
    have htop : low / 2 ^ 7 = 0 ∨ low / 2 ^ 7 = 1 := by omega
    rcases htop with htop | htop
    · rw [htop]
      rfl
    · rw [htop]
      rfl
  omega

/-- The byte that is stored when another one follows. -/
theorem lowByte_or (word : BitVec 64) :
    lowByte word ||| 128 = UInt8.ofNat (word.toNat % 128 + 128) := by
  rw [← UInt8.toNat_inj, toNat_more, UInt8.toNat_or, toNat_lowByte]
  exact (or_top (Nat.mod_lt _ (by decide))).trans (by omega)

theorem lowByte_eq (word : BitVec 64) : lowByte word = UInt8.ofNat word.toNat := by
  rw [← UInt8.toNat_inj, toNat_lowByte, UInt8.toNat_ofNat']

/-- A byte is stored in the place behind those that are there. -/
theorem store_append (front : List UInt8) (old : UInt8) (back : List UInt8) (b : UInt8) :
    Checked.store (front ++ old :: back) front.length b = .ok (front ++ [b] ++ back) := by
  have hplace : front.length < (front ++ old :: back).length := by
    rw [List.length_append, List.length_cons]
    omega
  rw [Checked.store, if_pos hplace, List.set_append_right _ _ (Nat.le_refl _), Nat.sub_self,
    List.set_cons_zero, List.append_assoc, List.singleton_append]

/-- **The form of what is left is written behind what is there**, or the row is too short for
it. A word has ten groups, so the place can always be counted up. -/
theorem putFrom_eq (word : BitVec 64) (front back : List UInt8)
    (hroom : front.length + size word.toNat ≤ maxLength) :
    putFrom (front ++ back) word front.length =
      if size word.toNat ≤ back.length then
        .ok (front ++ encode word.toNat ++ back.drop (size word.toNat),
          front.length + size word.toNat)
      else .error .outOfBounds := by
  have hten : maxLength = 10 := rfl
  have hpos := size_pos word.toNat
  have hlimit : wordLimit = 2 ^ 64 := rfl
  have hnext : Checked.add wordLimit front.length 1 = .ok (front.length + 1) := if_pos (by omega)
  induction hn : word.toNat using Nat.strong_induction_on generalizing word front back with
  | _ n ih =>
    subst hn
    rcases back with _ | ⟨old, back⟩
    · have hfull (b : UInt8) :
          Checked.store (front ++ []) front.length b = .error .outOfBounds :=
        if_neg (by rw [List.append_nil]; exact Nat.lt_irrefl _)
      rw [if_neg (by rw [List.length_nil]; omega), putFrom, hfull, hfull]
      split <;> rfl
    rcases Nat.lt_or_ge word.toNat 128 with hlast | hmore
    · have hstop : ¬128 ≤ word := fun h => absurd (BitVec.le_def.1 h) (Nat.not_le.2 hlast)
      rw [putFrom, if_neg hstop, store_append, size_of_lt hlast, encode_of_lt hlast,
        if_pos (by rw [List.length_cons]; omega), lowByte_eq]
      simp only [hnext, bind, Except.bind, pure, Except.pure, List.drop_succ_cons, List.drop_zero]
    · have hgo : (128 : BitVec 64) ≤ word := BitVec.le_def.2 hmore
      have hshift : (word >>> 7).toNat = word.toNat / 128 := by
        rw [BitVec.toNat_ushiftRight, Nat.shiftRight_eq_div_pow]
      have hsize : size word.toNat = size (word >>> 7).toNat + 1 := by
        rw [hshift, size_of_le hmore]
      have hlength : (front ++ [lowByte word ||| 128]).length = front.length + 1 :=
        List.length_append
      rw [putFrom, if_pos hgo, store_append]
      simp only [hnext, bind, Except.bind]
      rw [← hlength, ih (word >>> 7).toNat (by rw [hshift]; omega) (word >>> 7) _ back
        (by omega) (size_pos _) (if_pos (by omega)) rfl, hlength, hsize, encode_of_le hmore,
        hshift, lowByte_or, List.length_cons]
      simp only [Nat.add_le_add_iff_right, List.drop_succ_cons, List.append_assoc,
        List.cons_append, List.nil_append, Nat.add_assoc, Nat.add_comm 1]

/-- **A word is written in its form** to the front of a row that is long enough, and what
stands behind it is left there. -/
theorem put_eq (row : List UInt8) (word : BitVec 64) :
    put row word =
      if size word.toNat ≤ row.length then
        .ok (encode word.toNat ++ row.drop (size word.toNat), size word.toNat)
      else .error .outOfBounds := by
  have hroom : ([] : List UInt8).length + size word.toNat ≤ maxLength := by
    rw [List.length_nil, Nat.zero_add]
    exact size_le_ten word.isLt
  have h := putFrom_eq word [] row hroom
  simpa only [put, List.nil_append, List.length_nil, Nat.zero_add] using h

/-! ## Rows that are longer -/

/-- The groups of a row, with the last one by itself. -/
theorem spelled_succ (row : List UInt8) (n : Nat) :
    spelled row (n + 1) = spelled row n + byteAt row n % 128 * 128 ^ n := by
  rw [spelled, Finset.sum_range_succ, Nat.pow_mul]
  rfl

theorem spelled_lt_pow (row : List UInt8) (n : Nat) : spelled row n < 128 ^ n := by
  induction n with
  | zero => exact Nat.one_pos
  | succ n ih =>
    rw [spelled_succ, Nat.mul_comm]
    exact add_group_lt ih (Nat.mod_lt _ (by decide))

namespace Numeral

variable {row : List UInt8} {count : Nat}

theorem size_le (h : Numeral row count) : size (spelled row count) ≤ count :=
  (size_le_iff h.pos).2 (spelled_lt_pow row count)

/-- **The last byte tells whether a number is longer than it has to be.** -/
theorem size_eq_iff (h : Numeral row count) :
    count = size (spelled row count) ↔ byteAt row (count - 1) ≠ 0 ∨ count = 1 := by
  have hle := h.size_le
  have hpos := size_pos (spelled row count)
  have hends := h.ends
  obtain ⟨before, rfl⟩ : ∃ before, count = before + 1 := ⟨count - 1, by have := h.pos; omega⟩
  rw [Nat.add_sub_cancel] at hends ⊢
  rcases Nat.eq_zero_or_pos before with rfl | hbefore
  · exact iff_of_true (by omega) (.inr rfl)
  have hmore : size (spelled row (before + 1)) ≤ before ↔ byteAt row before = 0 := by
    rw [size_le_iff hbefore, spelled_succ, Nat.mod_eq_of_lt hends]
    constructor
    · intro hlt
      by_contra hbyte
      have hplace := Nat.le_mul_of_pos_left (128 ^ before) (Nat.pos_of_ne_zero hbyte)
      omega
    · intro hbyte
      rw [hbyte, Nat.zero_mul, Nat.add_zero]
      exact spelled_lt_pow row before
  rw [← not_iff_not, not_or, not_not, ← hmore]
  omega

/-- A row is in the form of its number exactly if it has as many bytes. -/
theorem take_eq_encode_iff (h : Numeral row count) :
    row.take count = encode (spelled row count) ↔ count = size (spelled row count) := by
  have hlength : (row.take count).length = count := List.length_take_of_le h.le_length
  constructor
  · intro hform
    rw [← length_encode, ← hform, hlength]
  · intro hcount
    obtain ⟨taken, hrow, -, -, hform⟩ := exists_of_decodeFrom (by decide) h.decode_eq
    have htaken : row.take count = taken :=
      List.append_cancel_right ((List.take_append_drop count row).trans hrow)
    rw [htaken] at hlength ⊢
    exact hform (hlength.trans hcount)

end Numeral

/-- A row that the machine reads is the number it is read as. -/
theorem exists_numeral_of_get {row : List UInt8} {word : BitVec 64} {count : Nat}
    (h : get row = .ok (.ok (word, count))) :
    Numeral row count ∧ word.toNat = spelled row count := by
  rcases decode_cases row with ⟨-, hcut⟩ | ⟨-, hlarge⟩ | ⟨n, hn, -⟩
  · cases h.symm.trans (get_eq_error_iff.2 hcut)
  · cases h.symm.trans (get_eq_error_iff.2 hlarge)
  · cases h.symm.trans hn.get_eq
    exact ⟨hn, Nat.mod_eq_of_lt hn.spelled_lt⟩

/-- What is written is read back by the machine, whatever follows. -/
theorem get_encode_append (word : BitVec 64) (following : List UInt8) :
    get (encode word.toNat ++ following) = .ok (.ok (word, size word.toNat)) := by
  rw [get_eq, decode_encode_append word.isLt]
  simp only [Except.map, List.length_append, Nat.add_sub_cancel, length_encode,
    BitVec.ofNat_toNat, BitVec.setWidth_eq]

/-- **The form that is written is the shortest one that is read.** The measure of a word is
the length of its form, from one byte to ten. The writer ends for every word; it stores the
form and no other byte, and stops the program only where the row is too short for the form.
The form is read back, whatever follows. Every other row that is read as the same word is
longer: its last byte is zero, and it has more than one. -/
theorem put_shortest (word : BitVec 64) :
    measure word = .ok (encode word.toNat).length ∧
      1 ≤ (encode word.toNat).length ∧ (encode word.toNat).length ≤ 10 ∧
      (∀ row, put row word =
        if (encode word.toNat).length ≤ row.length then
          .ok (encode word.toNat ++ row.drop (encode word.toNat).length,
            (encode word.toNat).length)
        else .error .outOfBounds) ∧
      (∀ following, get (encode word.toNat ++ following) =
        .ok (.ok (word, (encode word.toNat).length))) ∧
      ∀ row count, get row = .ok (.ok (word, count)) →
        (encode word.toNat).length ≤ count ∧ count ≤ row.length ∧
          (row.take count = encode word.toNat ↔ count = (encode word.toNat).length) ∧
          (row.take count = encode word.toNat ↔ byteAt row (count - 1) ≠ 0 ∨ count = 1) := by
  simp only [length_encode]
  refine ⟨measure_eq word, size_pos _, size_le_ten word.isLt, fun row => put_eq row word,
    get_encode_append word, fun row count hread => ?_⟩
  obtain ⟨hnumeral, hword⟩ := exists_numeral_of_get hread
  rw [hword]
  exact ⟨hnumeral.size_le, hnumeral.le_length, hnumeral.take_eq_encode_iff,
    hnumeral.take_eq_encode_iff.trans hnumeral.size_eq_iff⟩

/-- Three bytes that are read as 512, which is written in two. -/
theorem put_shortest_512 :
    get [0x80, 0x84, 0x00, 0xff] = .ok (.ok (512, 3)) ∧
      [0x80, 0x84, 0x00, 0xff].take 3 ≠ encode (512 : BitVec 64).toNat := by
  have hread : get [0x80, 0x84, 0x00, 0xff] = .ok (.ok (512, 3)) := by decide
  obtain ⟨-, -, -, -, -, hlonger⟩ := put_shortest 512
  obtain ⟨-, -, -, hlast⟩ := hlonger _ 3 hread
  exact ⟨hread, fun hform => absurd (hlast.1 hform) (by decide)⟩

end Varint

end Wirepool
