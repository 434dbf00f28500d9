import Wirepool.Proofs.Wire.Canonical
import Wirepool.Proofs.Wire.Shortest

/-!
# Folding keeps the order of magnitudes

A signed number is folded before it is written, so that it takes few bytes if it is near
zero, whatever its sign. On the integers that is arithmetic by cases: twice the number, or one
less than twice what it is below zero. The machine has no cases, and no room for a sum. It
shifts the word to the left, where the sign falls out, and turns all bits if the sign was
set. The lowest number of all is no exception: nothing is left of it behind the shift, and
that, turned, is the largest word.

Both directions are a bijection between all signed words and all words. What is gained is an
order. A number of smaller magnitude is folded onto a smaller one, and so it is never
written in more bytes. Of two numbers of one magnitude this says nothing: `-64` takes one
byte, and `64` takes two.
-/

namespace Wirepool

namespace Varint

/-- **Folds a signed word**: it is doubled, and all bits are turned if it is negative. -/
def fold (word : BitVec 64) : BitVec 64 := (word <<< 1) ^^^ word.sshiftRight 63

/-- Shifted to the right by all other bits, a word is nothing but its sign. -/
theorem sshiftRight_sign (word : BitVec 64) :
    word.sshiftRight 63 = if 0 ≤ word.toInt then 0#64 else BitVec.allOnes 64 := by
  have hlow := word.le_toInt
  have hhigh := word.toInt_lt
  have hsign : (word.sshiftRight 63).toInt = word.toInt / 2 ^ 63 := by
    rw [BitVec.toInt_sshiftRight, Int.shiftRight_eq_div_pow]
    rfl
  apply BitVec.eq_of_toInt_eq
  rw [hsign]
  split
  · exact Int.ediv_eq_zero_of_lt ‹_› hhigh
  · show _ = (-1 : Int)
    omega

/-- **The machine folds as the integers are folded**, and no bit that counts is lost. -/
theorem toNat_fold (word : BitVec 64) : (fold word).toNat = zigzag word.toInt := by
  have hint := word.toInt_eq_toNat_cond
  have hword := word.isLt
  have hdouble : (word <<< 1).toNat = 2 * word.toNat % 2 ^ 64 := by
    rw [BitVec.toNat_shiftLeft, Nat.shiftLeft_eq, Nat.mul_comm]
  rw [Format.zigzag_eq, Format.zigzag, fold, sshiftRight_sign]
  split
  · rw [BitVec.xor_zero, hdouble]
    split at hint <;> omega
  · -- the sign falls out of the doubled word, and the rest is counted from the top
    rw [BitVec.xor_allOnes, BitVec.toNat_not, hdouble]
    split at hint <;> omega

/-- What is folded is the number that it is unfolded to. -/
theorem unfold_fold (word : BitVec 64) : unfold (fold word) = .ok word.toInt := by
  rw [unfold_eq, toNat_fold, unzigzag_zigzag]

/-- Every word is a signed word that was folded. -/
theorem exists_fold_eq (word : BitVec 64) :
    ∃ signed : BitVec 64, fold signed = word ∧ signed.toInt = unzigzag word.toNat := by
  obtain ⟨hlow, hhigh⟩ := unzigzag_bounds word.isLt
  have hsigned : (BitVec.ofInt 64 (unzigzag word.toNat)).toInt = unzigzag word.toNat :=
    BitVec.toInt_ofInt_eq_self (by decide) hlow hhigh
  refine ⟨.ofInt 64 (unzigzag word.toNat), BitVec.eq_of_toNat_eq ?_, hsigned⟩
  rw [toNat_fold, hsigned, zigzag_unzigzag]

/-! ## The order -/

/-- **A number of smaller magnitude is folded onto a smaller one.** -/
theorem zigzag_lt_zigzag {i j : Int} (h : i.natAbs < j.natAbs) : zigzag i < zigzag j := by
  rw [Format.zigzag_eq, Format.zigzag_eq, Format.zigzag, Format.zigzag]
  split
  · split <;> omega
  · split <;> omega

/-- A smaller number has no more groups. -/
theorem size_mono {m n : Nat} (h : m ≤ n) : size m ≤ size n :=
  (size_le_iff (size_pos n)).2 (Nat.lt_of_le_of_lt h ((size_le_iff (size_pos n)).1 (Nat.le_refl _)))

/-- **Folding is a bijection that keeps the order of magnitudes.** On every signed word the
machine comes to what arithmetic says, twice the number or one less than twice what it is
below zero, and that is what is written for a signed number and measured before. The number
is unfolded again, and each word is unfolded to the one number that is folded onto it. Of two
numbers the one of smaller magnitude is folded onto the smaller word, and is not written in
more bytes than the other. -/
theorem folding_keeps_magnitudes :
    (∀ signed : BitVec 64,
      ((fold signed).toNat : Int) =
          (if 0 ≤ signed.toInt then 2 * signed.toInt else -2 * signed.toInt - 1) ∧
        zigzag signed.toInt = (fold signed).toNat ∧
        (∀ order, (Field.varSigned signed).pieces order = .ok [.varint (fold signed).toNat]) ∧
        measure (fold signed) = .ok (encode (fold signed).toNat).length ∧
        unfold (fold signed) = .ok signed.toInt) ∧
      (∀ word : BitVec 64, ∃ signed : BitVec 64, unfold word = .ok signed.toInt ∧
        unzigzag word.toNat = signed.toInt ∧ fold signed = word) ∧
      ∀ near far : BitVec 64, near.toInt.natAbs < far.toInt.natAbs →
        (fold near).toNat < (fold far).toNat ∧
          (encode (fold near).toNat).length ≤ (encode (fold far).toNat).length := by
  refine ⟨fun signed => ⟨?_, (toNat_fold signed).symm, fun order => ?_, ?_, unfold_fold signed⟩,
    fun word => ?_, fun near far hnear => ?_⟩
  · rw [toNat_fold, Format.zigzag_eq, Format.zigzag]
    split <;> omega
  · rw [toNat_fold]
    rfl
  · rw [measure_eq, length_encode]
  · obtain ⟨signed, hfold, hint⟩ := exists_fold_eq word
    exact ⟨signed, by rw [← hfold, unfold_fold], hint.symm, hfold⟩
  · have hlt : (fold near).toNat < (fold far).toNat := by
      rw [toNat_fold, toNat_fold]
      exact zigzag_lt_zigzag hnear
    rw [length_encode, length_encode]
    exact ⟨hlt, size_mono hlt.le⟩

/-- The largest number has a smaller magnitude than the lowest one, which has no opposite. -/
theorem folding_keeps_magnitudes_extreme :
    (BitVec.intMax 64).toInt.natAbs < (BitVec.intMin 64).toInt.natAbs ∧
      (fold (BitVec.intMax 64)).toNat = 2 ^ 64 - 2 ∧
      (fold (BitVec.intMin 64)).toNat = 2 ^ 64 - 1 ∧
      (encode (fold (BitVec.intMax 64)).toNat).length ≤
        (encode (fold (BitVec.intMin 64)).toNat).length := by
  have hnear : (BitVec.intMax 64).toInt.natAbs < (BitVec.intMin 64).toInt.natAbs := by decide
  obtain ⟨-, -, horder⟩ := folding_keeps_magnitudes
  exact ⟨hnear, by decide, by decide, (horder _ _ hnear).2⟩

end Varint

end Wirepool
