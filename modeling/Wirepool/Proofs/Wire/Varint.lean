import Mathlib.Algebra.Order.Group.Nat
import Mathlib.Tactic.Ring
import Wirepool.Memory.Limits
import Wirepool.Wire.Varint

/-!
# What is written as a varint is read back

The writer cuts a number into groups of seven bits and the reader puts them
together again. Both directions follow one recursion, so one induction on the
groups ties them; what it has to carry is how many groups the reader has seen,
because the tenth one is the last that a word has room for.

`size` counts the groups without making them. That it counts right is what
makes a measured length the length of what is written.
-/

namespace Wirepool

namespace Varint

/-- Dropping a group drops seven bits. -/
theorem log2_div_group {n : Nat} (h : 128 ≤ n) : (n / 128).log2 + 7 = n.log2 := by
  have hdiv : n / 128 ≠ 0 := by omega
  rw [eq_comm, Nat.log2_eq_iff (by omega)]
  have hlow := Nat.log2_self_le hdiv
  have hhigh := Nat.lt_log2_self (n := n / 128)
  rw [Nat.add_right_comm, Nat.pow_add 2 (n / 128).log2 7, Nat.pow_add 2 ((n / 128).log2 + 1) 7]
  omega

/-- A number below 128 is one group. -/
theorem log2_lt_group {n : Nat} (h : n < 128) : n.log2 < 7 := by
  rcases Nat.eq_zero_or_pos n with rfl | hn
  · decide
  · exact (Nat.log2_lt (by omega)).2 h

/-- **The groups of a number are as many as `size` says**, as long as there is
room for them. -/
theorem length_groups (more n : Nat) (h : n.log2 ≤ more) : (groups more n).length = size n := by
  induction more generalizing n with
  | zero =>
    have hz : n.log2 = 0 := Nat.le_zero.mp h
    rw [groups, size, hz]
    rfl
  | succ more ih =>
    unfold groups
    split
    · next hlt =>
      have := log2_lt_group hlt
      rw [size, Nat.div_eq_of_lt this]
      rfl
    · next hge =>
      have hlog := log2_div_group (Nat.le_of_not_lt hge)
      rw [List.length_cons, ih _ (by omega), size, size, ← hlog, Nat.add_div_right _ (by decide)]

/-- **The measured length is the written one.** -/
@[simp] theorem length_encode (n : Nat) : (encode n).length = size n :=
  length_groups _ _ (Nat.le_refl _)

/-- A group that is the last one is read wherever there is room for it. -/
theorem decodeFrom_last {before n : Nat} (hn : n < 128) (hword : n * 128 ^ before < 2 ^ 64)
    (rest : List UInt8) : decodeFrom before (UInt8.ofNat n :: rest) = .ok (n, rest) := by
  have hbyte : (UInt8.ofNat n).toNat = n := by
    rw [UInt8.toNat_ofNat', Nat.mod_eq_of_lt (by omega)]
  have hroom : ¬(before = maxLength - 1 ∧ 1 < n) := by
    rintro ⟨rfl, hone⟩
    rw [maxLength] at hword
    norm_num at hword
    omega
  rw [decodeFrom, hbyte, if_neg hroom, if_pos hn]

/-- A group that another one follows can only stand in the first nine places. -/
theorem place_lt_of_more {before n : Nat} (hn : 128 ≤ n) (hword : n * 128 ^ before < 2 ^ 64) :
    before < 9 := by
  by_contra hnine
  have hpow : 128 ^ 9 ≤ 128 ^ before := Nat.pow_le_pow_right (by decide) (by omega)
  have hmul : 128 * 128 ^ 9 ≤ n * 128 ^ before := Nat.mul_le_mul hn hpow
  norm_num at hmul
  omega

/-- What is left of a number behind a group fits behind it. -/
theorem next_group_lt {before n : Nat} (hword : n * 128 ^ before < 2 ^ 64) :
    n / 128 * 128 ^ (before + 1) < 2 ^ 64 := by
  refine Nat.lt_of_le_of_lt ?_ hword
  calc n / 128 * 128 ^ (before + 1) = n / 128 * 128 * 128 ^ before := by ring
    _ ≤ n * 128 ^ before := Nat.mul_le_mul_right _ (Nat.div_mul_le_self n 128)

/-- The byte of a group that another one follows. -/
theorem toNat_more (n : Nat) : (UInt8.ofNat (n % 128 + 128)).toNat = n % 128 + 128 := by
  rw [UInt8.toNat_ofNat', Nat.mod_eq_of_lt (by omega)]

/-- Reading the groups of a number, when the number and the groups that were
read before it fit into a word. -/
theorem decodeFrom_groups (more : Nat) (before : Nat) (n : Nat) (rest : List UInt8)
    (hmore : n.log2 ≤ more) (hword : n * 128 ^ before < 2 ^ 64) :
    decodeFrom before (groups more n ++ rest) = .ok (n, rest) := by
  induction more generalizing before n with
  | zero =>
    have hz : n < 2 := by
      have hlt := Nat.lt_log2_self (n := n)
      rwa [Nat.le_zero.mp hmore] at hlt
    exact decodeFrom_last (by omega) hword rest
  | succ more ih =>
    unfold groups
    split
    · next hlt => exact decodeFrom_last hlt hword rest
    · next hge =>
      have hlog := log2_div_group (Nat.le_of_not_lt hge)
      have hplace := place_lt_of_more (Nat.le_of_not_lt hge) hword
      rw [List.cons_append, decodeFrom, toNat_more, if_neg (by rw [maxLength]; omega),
        if_neg (by omega), ih _ _ (by omega) (next_group_lt hword)]
      have hval : (n % 128 + 128) % 128 + 128 * (n / 128) = n := by omega
      show Except.ok ((n % 128 + 128) % 128 + 128 * (n / 128), rest) = _
      rw [hval]

/-- **A word is read back** from its written form, whatever follows. -/
theorem decode_encode_append {n : Nat} (h : n < wordLimit) (rest : List UInt8) :
    decode (encode n ++ rest) = .ok (n, rest) :=
  decodeFrom_groups _ 0 n rest (Nat.le_refl _) (by simpa [wordLimit] using h)

/-- A signed word is folded onto a word. -/
theorem zigzag_lt {i : Int} (hlow : -2 ^ 63 ≤ i) (hhigh : i < 2 ^ 63) :
    zigzag i < wordLimit := by
  have hw : wordLimit = 2 ^ 64 := rfl
  cases i with
  | ofNat n =>
    rw [zigzag, hw]
    rw [Int.ofNat_eq_natCast] at hhigh
    omega
  | negSucc n =>
    rw [zigzag, hw]
    rw [Int.negSucc_eq] at hlow
    omega

end Varint

end Wirepool
