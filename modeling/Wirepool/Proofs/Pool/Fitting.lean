import Wirepool.Proofs.Memory.View
import Wirepool.Proofs.Pool.SizeClass
import Wirepool.Proofs.Wire.Shortest

/-!
# The machine selects the smallest page

The machine has no bit lengths to read a class off. It rounds the length up to a power of two,
no less than the smallest page, divides by that page, and counts the zeros behind the one bit
of the quotient; what it has then is a place in the row of classes. Each of these steps could
go wrong: a word has no power of two above the upper half of its values, the bit of a page
could be shifted out of the word, and a place could be behind the row.

None of them does, because the lengths that come so far are short. The guard in front lets no
length pass that is longer than the largest page, so the exponent is that of a page, and what
is left of it in the quotient is the place of the class.
-/

namespace Wirepool

namespace SizeClass

/-! ## The machine's way to a class -/

/-- **The smallest power of two that is no less than a word**: the bits that the number before
the word can have are all set, and one is added. -/
def roundUp (word : BitVec 64) : Except Trap (BitVec 64) := do
  let filled := if word ≤ 1 then 0 else BitVec.allOnes 64 >>> (word - 1).clz.toNat
  return .ofNat 64 (← Checked.add wordLimit filled.toNat 1)

/-- The size of the pages in a place of the row of classes. -/
def capacityAt (index : Nat) : Except Trap (BitVec 64) := Checked.shiftLeft 1024 index

/-- The class in a place of the row. -/
def ofIndex (index : Nat) : Except Trap SizeClass :=
  if h : index < classCount then .ok ⟨index, h⟩ else .error .outOfBounds

/-- **Selects the class that serves a length**, if one does. -/
def select (len : BitVec 64) : Except Trap (Option SizeClass) := do
  let longest ← capacityAt (classCount - 1)
  if .ofNat 64 minLength ≤ len ∧ len ≤ longest then
    let power ← roundUp len
    let capacity := if power < 1024 then 1024 else power
    return some (← ofIndex (capacity / 1024).ctz.toNat)
  else return none

/-! ## Each step of it -/

/-- A word of ones, cut off from above. -/
theorem toNat_allOnes_shiftRight {count : Nat} (h : count ≤ 64) :
    (BitVec.allOnes 64 >>> count).toNat = 2 ^ (64 - count) - 1 := by
  have hsplit : 2 ^ 64 = 2 ^ count * 2 ^ (64 - count) := by
    rw [← Nat.pow_add, Nat.add_sub_cancel' h]
  rw [BitVec.toNat_ushiftRight, BitVec.toNat_allOnes, Nat.shiftRight_eq_div_pow, hsplit,
    Nat.mul_sub_div 0 _ _ (hsplit ▸ Nat.two_pow_pos 64), Nat.zero_div]

/-- **Rounding up gives the power of the exponent**, and fails exactly where a word has no room
for that. -/
theorem roundUp_eq (word : BitVec 64) :
    roundUp word = if word.toNat ≤ 2 ^ 63 then .ok (.twoPow 64 (Nat.clog 2 word.toNat))
      else .error .overflow := by
  by_cases hone : word ≤ 1
  · have hnat : word.toNat ≤ 1 := BitVec.le_def.1 hone
    rw [roundUp, if_pos hone, if_pos (by omega), Nat.clog_of_right_le_one hnat]
    rfl
  · have hnat : 1 < word.toNat := Nat.lt_of_not_le fun h => hone (BitVec.le_def.2 h)
    have hpred : (word - 1).toNat = word.toNat - 1 :=
      BitVec.toNat_sub_of_le (BitVec.le_def.2 hnat.le)
    have hne : word - 1 ≠ 0 := fun h => by
      rw [h] at hpred
      exact absurd hpred (by show (0 : Nat) ≠ _; omega)
    obtain ⟨hclz, hlog⟩ := Varint.log2_toNat hne
    have hexponent := log2_pred hnat
    rw [← hpred, hlog] at hexponent
    have hfilled : (BitVec.allOnes 64 >>> (word - 1).clz.toNat).toNat =
        2 ^ Nat.clog 2 word.toNat - 1 := by
      rw [toNat_allOnes_shiftRight hclz.le, show 64 - _ = Nat.clog 2 word.toNat by omega]
    have hroom : 2 ^ Nat.clog 2 word.toNat < wordLimit ↔ word.toNat ≤ 2 ^ 63 := by
      rw [← Nat.clog_le_iff_le_pow Nat.one_lt_two, wordLimit, Nat.one_shiftLeft,
        Nat.pow_lt_pow_iff_right Nat.one_lt_two]
      omega
    rw [roundUp, if_neg hone, hfilled, Checked.add,
      Nat.sub_add_cancel (Nat.two_pow_pos (Nat.clog 2 word.toNat))]
    simp only [hroom]
    split
    · refine congrArg Except.ok (BitVec.eq_of_toNat_eq ?_)
      rw [BitVec.toNat_ofNat, BitVec.toNat_twoPow]
    · rfl

/-- **The size of a page is a word**: its bit is not shifted out. -/
theorem capacityAt_eq (c : SizeClass) :
    ∃ word, capacityAt c.val = .ok word ∧ word.toNat = c.capacity := by
  have hlimit := c.capacity_lt_addressLimit
  have hplace : c.val < 16 := c.isLt
  have haddress : addressLimit ≤ 2 ^ 64 := by decide
  refine ⟨(1024 : BitVec 64) <<< c.val, if_pos (by omega), ?_⟩
  rw [BitVec.toNat_shiftLeft]
  exact Nat.mod_eq_of_lt (Nat.lt_of_lt_of_le hlimit haddress)

/-- The bit of a power of two stands in front of the trailing zeros. -/
theorem ctz_twoPow {k : Nat} (hk : k < 64) : (BitVec.twoPow 64 k).ctz.toNat = k := by
  have hne : BitVec.twoPow 64 k ≠ 0 := fun h => by
    have hbit := congrArg (fun word => word.getLsbD k) h
    simp [hk] at hbit
  have hbit := BitVec.getLsbD_true_ctz_of_ne_zero hne
  rw [BitVec.getLsbD_twoPow, Bool.and_eq_true, decide_eq_true_iff, decide_eq_true_iff] at hbit
  exact hbit.2.symm

/-- **The place of a class is left over** when a power of two is divided by the smallest page,
which stands for all powers below. -/
theorem ctz_div {k : Nat} (hk : k < 64) :
    ((if BitVec.twoPow 64 k < 1024 then 1024 else BitVec.twoPow 64 k) / 1024).ctz.toNat =
      k - 10 := by
  have hpow : (BitVec.twoPow 64 k).toNat = 2 ^ k := by
    rw [BitVec.toNat_twoPow, Nat.mod_eq_of_lt (Nat.pow_lt_pow_right Nat.one_lt_two hk)]
  have hsmall : BitVec.twoPow 64 k < 1024 ↔ k < 10 := by
    rw [BitVec.lt_def, hpow]
    show 2 ^ k < 2 ^ 10 ↔ k < 10
    exact Nat.pow_lt_pow_iff_right Nat.one_lt_two
  by_cases hk10 : k < 10
  · rw [if_pos (hsmall.2 hk10), Nat.sub_eq_zero_of_le hk10.le]
    exact ctz_twoPow (k := 0) (by decide)
  · have hdiv : BitVec.twoPow 64 k / 1024 = BitVec.twoPow 64 (k - 10) := by
      apply BitVec.eq_of_toNat_eq
      rw [BitVec.toNat_udiv, hpow, BitVec.toNat_twoPow,
        Nat.mod_eq_of_lt (Nat.pow_lt_pow_right Nat.one_lt_two (by omega))]
      show 2 ^ k / 2 ^ 10 = 2 ^ (k - 10)
      exact Nat.pow_div (Nat.le_of_not_lt hk10) Nat.two_pos
    rw [if_neg fun h => hk10 (hsmall.1 h), hdiv, ctz_twoPow (by omega)]

/-- **The machine selects the class of a length**, and no step of it goes wrong, whatever length
a word can say. -/
theorem select_eq (len : BitVec 64) : select len = .ok (ofLength? len.toNat) := by
  obtain ⟨longest, hlongest, hmax⟩ := capacityAt_eq ⟨classCount - 1, by decide⟩
  have hguard : (.ofNat 64 minLength ≤ len ∧ len ≤ longest) ↔
      minLength ≤ len.toNat ∧ len.toNat ≤ maxLength := by
    rw [BitVec.le_def, BitVec.le_def, hmax]
    rfl
  simp only [select, hlongest, hguard, bind, Except.bind, pure, Except.pure]
  split
  · next hlen =>
    have hexponent := le_maxLength_iff.1 hlen.2
    have hplace : Nat.clog 2 len.toNat - 10 < classCount := by
      show _ < 16
      omega
    have hhalf : len.toNat ≤ 2 ^ 63 := hlen.2.trans (by decide)
    have hclass := ofLength?_eq_some_iff (c := ⟨_, hplace⟩).2 ⟨hlen.1, hlen.2, rfl⟩
    rw [roundUp_eq, if_pos hhalf, hclass]
    simp only [ctz_div (show Nat.clog 2 len.toNat < 64 by omega), ofIndex, dif_pos hplace]
  · next hlen =>
    rw [Option.not_isSome_iff_eq_none.1 (mt (isSome_ofLength?_iff _).1 hlen)]

end SizeClass

/-! ## What is lent -/

/-- **Memory fits a length**: it is what a borrower of that length is to get. -/
structure Loan.Fits (loan : Loan) (len : BitVec 64) : Prop where
  /-- It is a page, unless the length is too short for one or too long. -/
  isPooled_iff : loan.isPooled = true ↔ 9 ≤ len.toNat ∧ len.toNat ≤ 32 * 2 ^ 20
  /-- The page is of the class that the machine selects, and as large as the machine says. -/
  exists_class : loan.isPooled = true → ∃ c : SizeClass, SizeClass.select len = .ok (some c) ∧
    c.val < 16 ∧ loan.capacity = c.capacity ∧
    ∃ word, SizeClass.capacityAt c.val = .ok word ∧ word.toNat = c.capacity
  /-- No smaller page would do. -/
  isLeast : loan.isPooled = true →
    IsLeast {size | (∃ index < 16, size = 1024 * 2 ^ index) ∧ len.toNat ≤ size} loan.capacity
  lt_two_mul : loan.isPooled = true → 1024 < len.toNat → loan.capacity < 2 * len.toNat
  /-- Memory of the system is no larger than it has to be, and has no generation. -/
  unpooled : loan.isPooled = false → SizeClass.select len = .ok none ∧
    loan.capacity = len.toNat ∧ loan.generation = 0
  /-- All of the length is seen, and what is seen of the memory is there. -/
  view : Checked.slice loan.block.toBytes 0 loan.len = .ok loan.view ∧
    loan.view.length = len.toNat

namespace Loan

variable {len : BitVec 64}

/-- What is seen of memory that is large enough. -/
theorem slice_view (loan : Loan) (hlen : loan.len = len.toNat) (h : loan.len ≤ loan.block.size) :
    Checked.slice loan.block.toBytes 0 loan.len = .ok loan.view ∧
      loan.view.length = len.toNat := by
  rw [length_view, Nat.min_eq_left h, view_eq, Checked.slice, Block.length_toBytes,
    if_pos ⟨Nat.zero_le _, h⟩, List.drop_zero]
  exact ⟨rfl, hlen⟩

/-- **A page of the class of a length fits it.** -/
theorem fits_pooled {c : SizeClass} {lease : Lease}
    (hclass : SizeClass.ofLength? len.toNat = some c) (hpage : lease.page.sizeClass = c)
    (hlen : lease.len = len.toNat) : (Loan.pooled lease).Fits len := by
  obtain ⟨hmin, hmax, -⟩ := SizeClass.ofLength?_eq_some_iff.1 hclass
  obtain ⟨-, hheld, hfirst⟩ := SizeClass.ofLength?_eq_some_iff_isLeast.1 hclass
  have hsize : lease.page.block.size = c.capacity := lease.page.size_eq.trans (by rw [hpage])
  have hpow (d : SizeClass) : d.capacity = 1024 * 2 ^ d.val := Nat.shiftLeft_eq _ _
  refine ⟨iff_of_true rfl ⟨hmin, hmax⟩,
    fun _ => ⟨c, by rw [SizeClass.select_eq, hclass], c.isLt, hsize, c.capacityAt_eq⟩,
    fun _ => ⟨⟨⟨c.val, c.isLt, hsize.trans (hpow c)⟩, hheld.trans hsize.ge⟩, ?_⟩,
    fun _ hlong => hsize.trans_lt (SizeClass.capacity_lt_two_mul hclass hlong),
    fun h => absurd h.symm Bool.false_ne_true,
    slice_view _ hlen (hlen.le.trans (hheld.trans hsize.ge))⟩
  rintro _ ⟨⟨index, hindex, rfl⟩, hother⟩
  have hle : c ≤ ⟨index, hindex⟩ := hfirst (hother.trans (hpow ⟨index, hindex⟩).ge)
  calc lease.page.block.size = 1024 * 2 ^ c.val := hsize.trans (hpow c)
    _ ≤ 1024 * 2 ^ index := Nat.mul_le_mul_left _ (Nat.pow_le_pow_right Nat.two_pos hle)

/-- **Memory of the system fits a length that has no class.** -/
theorem fits_unpooled {block : Block} (hclass : SizeClass.ofLength? len.toNat = none)
    (hsize : block.size = len.toNat) : (Loan.unpooled block).Fits len := by
  have hrange : ¬(9 ≤ len.toNat ∧ len.toNat ≤ 32 * 2 ^ 20) := fun h =>
    absurd ((SizeClass.isSome_ofLength?_iff _).2 h) (by rw [hclass]; exact Bool.false_ne_true)
  have hneither {p : Prop} (h : (Loan.unpooled block).isPooled = true) : p :=
    absurd h Bool.false_ne_true
  exact ⟨iff_of_false Bool.false_ne_true hrange, hneither, hneither, hneither,
    fun _ => ⟨by rw [SizeClass.select_eq, hclass], hsize, rfl⟩,
    slice_view (.unpooled block) hsize (Nat.le_refl _)⟩

end Loan

end Wirepool
