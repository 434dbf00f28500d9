import Wirepool.Proofs.Wire.Format
import Wirepool.Wire.Decoder

/-!
# Canonical input

Most bytes have one reading and most values have one form. A number of fixed
width is its digits, a length in front of a payload is such a number, a text is
its bytes, and a payload with its delimiter is the two. There are just three
places where a reader takes more than a writer gives: a varint may have more
groups than its number needs, a truth value may be any byte, and bytes to be
ignored need not be zero. Input that avoids these is *canonical*.

That a varint is as short as it can be is said of the reader alone: no other row
that is read as the same number is shorter. `Varint.exists_of_decode` shows that
these rows are the ones that are written.
-/

namespace Wirepool

/-! ## Numbers of fixed width have one form -/

namespace Digits

/-- A row of digits spells a number below the power of its length. -/
theorem toNat_lt (row : List UInt8) : toNat row < 256 ^ row.length := by
  induction row with
  | nil => exact Nat.one_pos
  | cons b row ih =>
    have hb := b.toNat_lt
    rw [toNat, List.length_cons, Nat.pow_succ]
    omega

/-- The digits of the number that a row spells are that row. -/
theorem ofNat_toNat (row : List UInt8) : ofNat row.length (toNat row) = row := by
  induction row with
  | nil => rfl
  | cons b row ih =>
    have hb := b.toNat_lt
    have hdigit : UInt8.ofNat (b.toNat + 256 * toNat row) = b := by
      rw [← UInt8.toNat_inj, UInt8.toNat_ofNat']
      omega
    have hothers : (b.toNat + 256 * toNat row) / 256 = toNat row := by omega
    rw [List.length_cons, ofNat, toNat, hdigit, hothers, ih]

end Digits

namespace Width

/-- **A row of bytes is the form of the number it is read as.** -/
theorem encode_decode (w : Width) (o : ByteOrder) {row : List UInt8} (h : row.length = w.bytes) :
    w.encode o (w.decode o row) = row := by
  have hlength : (o.arrange row).length = w.bytes := by rw [ByteOrder.length_arrange, h]
  have hlt : Digits.toNat (o.arrange row) < 2 ^ w.bits := by
    rw [Format.two_pow_bits, ← hlength]
    exact Digits.toNat_lt _
  have hdigits := Digits.ofNat_toNat (o.arrange row)
  rw [hlength] at hdigits
  rw [encode, decode, BitVec.toNat_ofNat, Nat.mod_eq_of_lt hlt, hdigits,
    ByteOrder.arrange_arrange]

/-- A number of a width can be sent in it. -/
theorem holdsUnsigned_toNat {w : Width} (n : BitVec w.bits) : w.holdsUnsigned n.toNat := by
  rw [holdsUnsigned, Bool.or_eq_true, decide_eq_true_eq, decide_eq_true_eq, span,
    Nat.shiftLeft_eq, Nat.one_mul]
  exact .inr n.isLt

/-- A number of a width with a sign can be sent in it. -/
theorem holdsSigned_toInt {w : Width} (n : BitVec w.bits) : w.holdsSigned n.toInt := by
  have hlow := n.le_toInt
  have hhigh := n.toInt_lt
  rw [holdsSigned_iff, Format.FitsSigned]
  exact fun _ => ⟨hlow, hhigh⟩

/-- No width has more than 64 bits. -/
theorem bits_le (w : Width) : w.bits ≤ 64 := by
  cases w <;> decide

end Width

/-! ## Numbers of variable length have a shortest form -/

namespace Varint

/-- **A number that stands at the front in its shortest form**: wherever else it is
read, it takes at least as many bytes. -/
def Shortest (input : List UInt8) : Prop :=
  ∀ n rest, decode input = .ok (n, rest) →
    ∀ other rest', decode other = .ok (n, rest') →
      input.length - rest.length ≤ other.length - rest'.length

theorem encode_of_lt {n : Nat} (h : n < 128) : encode n = [UInt8.ofNat n] := by
  rw [Format.varint_eq, Format.leb128_of_lt h]

theorem encode_of_le {n : Nat} (h : 128 ≤ n) :
    encode n = UInt8.ofNat (n % 128 + 128) :: encode (n / 128) := by
  rw [Format.varint_eq, Format.varint_eq, Format.leb128_of_le h]

/-- A word is unfolded to a signed word. -/
theorem unzigzag_bounds {n : Nat} (h : n < wordLimit) :
    -2 ^ 63 ≤ unzigzag n ∧ unzigzag n < 2 ^ 63 := by
  have hw : wordLimit = 2 ^ 64 := rfl
  unfold unzigzag
  split
  · rw [Int.ofNat_eq_natCast]
    omega
  · rw [Int.negSucc_eq]
    omega

/-- A number in the place of a group that has room for it fits into a word. -/
theorem place_mul_lt {before n : Nat} (hbefore : before < maxLength) (hn : n < 128)
    (hroom : ¬(before = maxLength - 1 ∧ 1 < n)) : n * 128 ^ before < 2 ^ 64 := by
  rw [maxLength] at hbefore hroom
  by_cases hlast : before = 9
  · subst hlast
    have hone : n ≤ 1 := by omega
    calc n * 128 ^ 9 ≤ 1 * 128 ^ 9 := Nat.mul_le_mul_right _ hone
      _ < 2 ^ 64 := by decide
  · have hpow : 128 ^ before ≤ 128 ^ 8 := Nat.pow_le_pow_right (by decide) (by omega)
    calc n * 128 ^ before ≤ 127 * 128 ^ 8 := Nat.mul_le_mul (by omega) hpow
      _ < 2 ^ 64 := by decide

/-- A group in front of a number that fits behind it fits with it. -/
theorem group_mul_lt {before group n : Nat} (hbefore : before + 1 < maxLength)
    (hgroup : group < 128) (hword : n * 128 ^ (before + 1) < 2 ^ 64) :
    (group + 128 * n) * 128 ^ before < 2 ^ 64 := by
  rw [maxLength] at hbefore
  -- a word has room for a whole number of values behind the group
  have hspan : 2 ^ (64 - 7 * (before + 1)) * 128 ^ (before + 1) = 2 ^ 64 := by
    rw [show (128 : Nat) = 2 ^ 7 from rfl, ← Nat.pow_mul, ← Nat.pow_add]
    congr 1
    omega
  have hn : n < 2 ^ (64 - 7 * (before + 1)) := by
    rw [← hspan] at hword
    exact Nat.lt_of_mul_lt_mul_right hword
  have hpos : 0 < 128 ^ before := Nat.pow_pos (by decide)
  calc (group + 128 * n) * 128 ^ before < (128 * (n + 1)) * 128 ^ before :=
        Nat.mul_lt_mul_of_pos_right (by omega) hpos
    _ = (n + 1) * 128 ^ (before + 1) := by ring
    _ ≤ 2 ^ (64 - 7 * (before + 1)) * 128 ^ (before + 1) := Nat.mul_le_mul_right _ hn
    _ = 2 ^ 64 := hspan

/-- **What is read as a number is at least as long as its form**, and is its form if
it is just as long. Groups beyond the form are the only freedom, and they show in
the length. -/
theorem exists_of_decodeFrom {before n : Nat} {input rest : List UInt8}
    (hbefore : before < maxLength) (h : decodeFrom before input = .ok (n, rest)) :
    ∃ row, input = row ++ rest ∧ n * 128 ^ before < 2 ^ 64 ∧ size n ≤ row.length ∧
      (row.length = size n → row = encode n) := by
  induction input generalizing before n with
  | nil => cases h
  | cons b input ih =>
    have hb := b.toNat_lt
    rw [decodeFrom] at h
    split at h
    · cases h
    next hroom =>
    split at h
    · next hlast =>
      cases h
      have hsize : size b.toNat = 1 := by rw [← length_encode, encode_of_lt hlast]; rfl
      refine ⟨[b], rfl, place_mul_lt hbefore hlast hroom, hsize.le, fun _ => ?_⟩
      rw [encode_of_lt hlast, UInt8.ofNat_toNat]
    · next hmore =>
      split at h
      · next m following hothers =>
        cases h
        have hnext : before + 1 < maxLength := by
          rw [maxLength] at hroom hbefore ⊢
          omega
        obtain ⟨row, rfl, hword, hsize, hform⟩ := ih hnext hothers
        refine ⟨b :: row, rfl, group_mul_lt hnext (Nat.mod_lt _ (by decide)) hword, ?_⟩
        have hnonempty : 1 ≤ size m := Nat.le_add_left 1 _
        rw [List.length_cons]
        rcases Nat.eq_zero_or_pos m with rfl | hm
        · -- the groups behind the first one add nothing to the number
          have hsize' : size (b.toNat % 128 + 128 * 0) = 1 := by
            rw [← length_encode, encode_of_lt (by omega)]
            rfl
          exact ⟨by omega, by omega⟩
        · have hdiv : (b.toNat % 128 + 128 * m) / 128 = m := by omega
          have hmod : (b.toNat % 128 + 128 * m) % 128 + 128 = b.toNat := by omega
          have hencode : encode (b.toNat % 128 + 128 * m) = b :: encode m := by
            rw [encode_of_le (by omega), hdiv, hmod, UInt8.ofNat_toNat]
          have hsize' : size (b.toNat % 128 + 128 * m) = size m + 1 := by
            rw [← length_encode, hencode, List.length_cons, length_encode]
          rw [hsize', hencode]
          exact ⟨Nat.succ_le_succ hsize, fun hlength => by rw [hform (Nat.succ.inj hlength)]⟩
      · cases h

/-- **A number is in its shortest form just if it is as it would be written.** -/
theorem exists_of_decode {n : Nat} {input rest : List UInt8} (h : decode input = .ok (n, rest)) :
    ∃ row, input = row ++ rest ∧ n < wordLimit ∧ (encode n).length ≤ row.length ∧
      (encode n = row ↔ Shortest input) := by
  obtain ⟨row, rfl, hword, hsize, hform⟩ := exists_of_decodeFrom (by decide) h
  have hn : n < wordLimit := by simpa [wordLimit] using hword
  rw [← length_encode] at hsize hform
  refine ⟨row, rfl, hn, hsize, fun heq => ?_, fun hshortest => ?_⟩
  · intro m following hthis other rest' hother
    rw [h] at hthis
    cases hthis
    obtain ⟨row', rfl, -, hsize', -⟩ := exists_of_decodeFrom (by decide) hother
    rw [← heq, List.length_append, List.length_append, Nat.add_sub_cancel, Nat.add_sub_cancel,
      length_encode]
    exact hsize'
  · -- the written form is one that the shortest form is not longer than
    have hle := hshortest n rest h (encode n ++ []) [] (decode_encode_append hn [])
    rw [List.length_append, List.length_append, Nat.add_sub_cancel, Nat.add_sub_cancel] at hle
    exact (hform (Nat.le_antisymm hle hsize)).symm

end Varint

/-! ## Canonical reads -/

/-- A length of variable length stands in front of its payload in its shortest
form. -/
def Extent.Canonical (input : List UInt8) : Extent → Prop
  | .counted => Varint.Shortest input
  | _ => True

/-- **A read finds what it would be written as**: a varint, alone or as a length, is in
its shortest form, a truth value is 0 or 1, and bytes to be ignored are zero. -/
def Read.Canonical (input : List UInt8) : Read → Prop
  | .skip count => ∀ b ∈ input.take count, b = 0
  | .flag => ∀ b ∈ input.take 1, b = 0 ∨ b = 1
  | .varSigned | .varUnsigned => Varint.Shortest input
  | .text extent _ | .bytes extent _ => extent.Canonical input
  | _ => True

end Wirepool
