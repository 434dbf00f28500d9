/-!
# Byte order and width

A number of fixed width is a row of base-256 digits. All arithmetic here is on
the row that starts with the *least* significant digit, where reading and
writing are the two directions of one recursion; the byte order of the wire
decides only whether that row is then turned round. So nothing but the
direction depends on the order, and a number of one byte does not depend on
it at all.
-/

namespace Wirepool

/-- **The order in which the bytes of a fixed-width number are sent.** -/
inductive ByteOrder where
  /-- Most significant byte first. -/
  | bigEndian
  /-- Least significant byte first. -/
  | littleEndian
  deriving DecidableEq, Repr, Inhabited

/-- A row that starts with the least significant byte, as it is sent. The same
function takes a row that was sent back, because turning round twice changes
nothing. -/
def ByteOrder.arrange {α : Type} : ByteOrder → List α → List α
  | .littleEndian, row => row
  | .bigEndian, row => row.reverse

@[simp] theorem ByteOrder.length_arrange {α : Type} (o : ByteOrder) (row : List α) :
    (o.arrange row).length = row.length := by
  cases o <;> simp [arrange]

@[simp] theorem ByteOrder.arrange_arrange {α : Type} (o : ByteOrder) (row : List α) :
    o.arrange (o.arrange row) = row := by
  cases o <;> simp [arrange]

/-- **The widths that a fixed-width number can have.** -/
inductive Width where
  | one
  | two
  | four
  | eight
  deriving DecidableEq, Repr

namespace Width

/-- The number of bytes. -/
def bytes : Width → Nat
  | one => 1
  | two => 2
  | four => 4
  | eight => 8

/-- The number of bits. -/
abbrev bits (w : Width) : Nat := 8 * w.bytes

/-- The number of values. -/
def span (w : Width) : Nat := 1 <<< w.bits

/-- The width of a given number of bytes, if it is one. -/
def ofBytes? : Nat → Option Width
  | 1 => some one
  | 2 => some two
  | 4 => some four
  | 8 => some eight
  | _ => none

@[simp] theorem ofBytes?_bytes (w : Width) : ofBytes? w.bytes = some w := by
  cases w <;> rfl

end Width

namespace Digits

/-- The `count` lowest base-256 digits of a number, least significant first. -/
def ofNat : (count : Nat) → Nat → List UInt8
  | 0, _ => []
  | count + 1, n => UInt8.ofNat n :: ofNat count (n / 256)

/-- The number that a row of base-256 digits spells, least significant first. -/
def toNat : List UInt8 → Nat
  | [] => 0
  | d :: ds => d.toNat + 256 * toNat ds

@[simp] theorem length_ofNat (count n : Nat) : (ofNat count n).length = count := by
  induction count generalizing n with
  | zero => rfl
  | succ count ih => simp [ofNat, ih]

/-- Digits spell their number, reduced to what that many digits can hold. -/
theorem toNat_ofNat (count n : Nat) : toNat (ofNat count n) = n % (1 <<< (8 * count)) := by
  rw [Nat.shiftLeft_eq, Nat.one_mul, Nat.pow_mul, show (2 : Nat) ^ 8 = 256 from rfl]
  induction count generalizing n with
  | zero => simp [ofNat, toNat, Nat.mod_one]
  | succ count ih =>
    have hd : (UInt8.ofNat n).toNat = n % 256 := by simp
    rw [ofNat, toNat, ih, hd, Nat.pow_succ, Nat.mul_comm (256 ^ count) 256, Nat.mod_mul]

end Digits

namespace Width

/-- The bytes of a number of this width, as sent. -/
def encode (w : Width) (o : ByteOrder) (value : BitVec w.bits) : List UInt8 :=
  o.arrange (Digits.ofNat w.bytes value.toNat)

/-- The number of this width that was sent as the given bytes. -/
def decode (w : Width) (o : ByteOrder) (row : List UInt8) : BitVec w.bits :=
  BitVec.ofNat w.bits (Digits.toNat (o.arrange row))

@[simp] theorem length_encode (w : Width) (o : ByteOrder) (value : BitVec w.bits) :
    (w.encode o value).length = w.bytes := by
  simp [encode]

/-- A number sent in some order is read back in the same order. -/
@[simp] theorem decode_encode (w : Width) (o : ByteOrder) (value : BitVec w.bits) :
    w.decode o (w.encode o value) = value := by
  have hlt : value.toNat < 1 <<< (8 * w.bytes) := by
    rw [Nat.shiftLeft_eq, Nat.one_mul]
    exact value.isLt
  simp only [encode, decode, ByteOrder.arrange_arrange, Digits.toNat_ofNat,
    Nat.mod_eq_of_lt hlt, BitVec.ofNat_toNat, BitVec.setWidth_eq]

end Width

end Wirepool
