import Mathlib.Data.Nat.Log
import Wirepool.Proofs.Wire.Mirror

/-!
# The wire format by place value

The format said once more, without the recursions that produce it: byte `i` of a
number is a digit of the number, and the byte order only says which one. A fixed
number has as many digits to base 256 as its width, a variable one as many to
base 128 as it needs; a signed number is taken to its two's complement or to its
zigzag first.

Beside the bytes stands what can keep a field from being sent at all: a width
that is none, a number that its width does not hold, and an empty delimiter. The
main lemma of the module, `Field.pieces_cases`, says that the pieces of a field
are its parts in this format, or the fault that keeps it from being sent.
-/

namespace Wirepool

namespace Format

/-! ## Numbers -/

/-- The place of byte `i` among `size` bytes, the least significant one being
place zero. -/
def place (o : ByteOrder) (size i : Nat) : Nat :=
  match o with
  | .littleEndian => i
  | .bigEndian => size - 1 - i

/-- **A number in `size` bytes**: every byte is the digit of its place. -/
def fixed (o : ByteOrder) (size n : Nat) : List UInt8 :=
  (List.range size).map fun i => UInt8.ofNat (n / 256 ^ place o size i % 256)

/-- **The two's complement** of a number in `size` bytes. -/
def twosComplement (size : Nat) (i : Int) : Nat := (i % 256 ^ size).toNat

/-- **A number in as few groups of seven bits as it has digits to base 128**,
lowest group first. Every byte but the last one has its top bit set. -/
def leb128 (n : Nat) : List UInt8 :=
  (List.range (Nat.log 128 n + 1)).map fun i =>
    UInt8.ofNat (n / 128 ^ i % 128 + if i < Nat.log 128 n then 128 else 0)

/-- **The zigzag of a number**: twice the number, or one less than twice its
amount below zero. -/
def zigzag (i : Int) : Nat := if 0 ≤ i then (2 * i).toNat else (-2 * i - 1).toNat

/-! ## What keeps a number from being sent -/

/-- **The widths** that can be asked for. -/
def widths : List Nat := [1, 2, 4, 8]

/-- A number can be sent unsigned in `size` bytes, if that is less than a word. -/
def FitsUnsigned (size n : Nat) : Prop := size < 8 → n < 2 ^ (8 * size)

/-- A number can be sent signed in `size` bytes, if that is less than a word. -/
def FitsSigned (size : Nat) (i : Int) : Prop :=
  size < 8 → -2 ^ (8 * size - 1) ≤ i ∧ i < 2 ^ (8 * size - 1)

instance (size n : Nat) : Decidable (FitsUnsigned size n) :=
  inferInstanceAs (Decidable (_ → _))

instance (size : Nat) (i : Int) : Decidable (FitsSigned size i) :=
  inferInstanceAs (Decidable (_ → _))

/-- The fault of a number that is to take `size` bytes. The width is looked at
before the number. -/
def fault? (size : Nat) (fits : Prop) [Decidable fits] : Option Fault :=
  if size ∈ widths then (if fits then none else some (.numberOverflow size))
  else some (.invalidSize size)

/-- There is no fault if the width is one and holds the number. -/
theorem fault?_eq_none_iff {size : Nat} {fits : Prop} [Decidable fits] :
    fault? size fits = none ↔ size ∈ widths ∧ fits := by
  unfold fault?
  split
  · next hwidth =>
    split
    · next hfits => exact iff_of_true rfl ⟨hwidth, hfits⟩
    · next hfits => exact iff_of_false nofun fun h => hfits h.2
  · next hwidth => exact iff_of_false nofun fun h => hwidth h.1

end Format

/-! ## Fields -/

/-- **A payload in its frame**, part by part. -/
def Frame.parts (o : ByteOrder) (payload : List UInt8) : Frame → List (List UInt8)
  | bare => [payload]
  | sized size => [Format.fixed o size payload.length, payload]
  | counted => [Format.leb128 payload.length, payload]
  | delimited delimiter => [payload, delimiter]

namespace Field

/-- **The parts of a field** in the order that is in force. -/
def parts (o : ByteOrder) : Field → List (List UInt8)
  | skip count => [List.replicate count 0]
  | flag value => [[if value then 1 else 0]]
  | signed width value => [Format.fixed o width.bytes
      (Format.twosComplement width.bytes value.toInt)]
  | unsigned width value => [Format.fixed o width.bytes value.toNat]
  | signedIn size value => [Format.fixed o size (Format.twosComplement size value.toInt)]
  | unsignedIn size value => [Format.fixed o size value.toNat]
  | float32 value => [Format.fixed o 4 value.toNat]
  | float64 value => [Format.fixed o 8 value.toNat]
  | varSigned value => [Format.leb128 (Format.zigzag value.toInt)]
  | varUnsigned value => [Format.leb128 value.toNat]
  | blob frame payload => frame.parts o payload.toBytes
  | tail row => [row]

/-- **The wire image of a field.** -/
def image (o : ByteOrder) (field : Field) : List UInt8 := (field.parts o).flatten

/-- **A field that can be sent**: the width it asks for is one and holds its
number or the length of its payload, and its delimiter is not empty. -/
def Sendable : Field → Prop
  | signedIn size value => size ∈ Format.widths ∧ Format.FitsSigned size value.toInt
  | unsignedIn size value => size ∈ Format.widths ∧ Format.FitsUnsigned size value.toNat
  | blob (.sized size) payload =>
    size ∈ Format.widths ∧ Format.FitsUnsigned size payload.toBytes.length
  | blob (.delimited delimiter) _ => delimiter ≠ []
  | _ => True

/-- **The fault of a field that cannot be sent.** -/
def fault? : Field → Option Fault
  | signedIn size value => Format.fault? size (Format.FitsSigned size value.toInt)
  | unsignedIn size value => Format.fault? size (Format.FitsUnsigned size value.toNat)
  | blob (.sized size) payload =>
    Format.fault? size (Format.FitsUnsigned size payload.toBytes.length)
  | blob (.delimited delimiter) _ => if delimiter = [] then some .emptyDelimiter else none
  | _ => none

/-- A field has no fault just if it can be sent. -/
theorem fault?_eq_none_iff {field : Field} : field.fault? = none ↔ field.Sendable := by
  cases field with
  | signedIn size value => exact Format.fault?_eq_none_iff
  | unsignedIn size value => exact Format.fault?_eq_none_iff
  | blob frame payload =>
    cases frame with
    | sized size => exact Format.fault?_eq_none_iff
    | delimited delimiter =>
      rw [fault?, Sendable]
      split
      · next hempty => exact iff_of_false nofun fun h => h hempty
      · next hne => exact iff_of_true rfl hne
    | _ => exact iff_of_true rfl trivial
  | _ => exact iff_of_true rfl trivial

end Field

/-! ## The recursions produce these bytes -/

/-- Digits one after another are digits by place. -/
theorem Digits.ofNat_eq (count n : Nat) :
    Digits.ofNat count n = (List.range count).map fun i => UInt8.ofNat (n / 256 ^ i % 256) := by
  induction count generalizing n with
  | zero => rfl
  | succ count ih =>
    rw [Digits.ofNat, ih, List.range_succ_eq_map, List.map_cons, List.map_map]
    congr 1
    · rw [pow_zero, Nat.div_one]
      exact (UInt8.ofNat_mod_size).symm
    · refine List.map_congr_left fun i _ => ?_
      rw [Function.comp_apply, Nat.div_div_eq_div_mul, ← Nat.pow_succ']

namespace Format

/-- The order decides the direction of the row, and so the place of each byte. -/
theorem arrange_digits (o : ByteOrder) (size n : Nat) :
    o.arrange (Digits.ofNat size n) = fixed o size n := by
  rw [Digits.ofNat_eq]
  cases o with
  | littleEndian => rfl
  | bigEndian =>
    refine List.ext_getElem (by simp [ByteOrder.arrange, fixed]) fun i _ _ => ?_
    simp [ByteOrder.arrange, fixed, place]

/-- Only as much of a number is sent as its width holds. -/
theorem fixed_mod (o : ByteOrder) (size n : Nat) :
    fixed o size (n % 256 ^ size) = fixed o size n := by
  refine List.map_congr_left fun i hi => ?_
  have hplace : place o size i < size := by
    have := List.mem_range.mp hi
    cases o <;> simp only [place] <;> omega
  generalize place o size i = p at hplace
  obtain ⟨more, rfl⟩ := Nat.exists_eq_add_of_lt hplace
  rw [Nat.add_assoc, Nat.pow_add 256 p (more + 1), Nat.mod_mul_right_div_self, Nat.pow_succ',
    Nat.mod_mul_right_mod]

/-- A bit pattern of a width is sent by its digits. -/
theorem encode_eq (w : Width) (o : ByteOrder) (value : BitVec w.bits) :
    w.encode o value = fixed o w.bytes value.toNat := arrange_digits o w.bytes value.toNat

/-- As many values as a width has are as many as its bytes have. -/
theorem two_pow_bits (w : Width) : 2 ^ w.bits = 256 ^ w.bytes := by
  rw [Width.bits, Nat.pow_mul]

/-- A number that is cut to a width is sent by its digits. -/
theorem encode_ofNat (w : Width) (o : ByteOrder) (n : Nat) :
    w.encode o (BitVec.ofNat w.bits n) = fixed o w.bytes n := by
  rw [encode_eq, BitVec.toNat_ofNat, two_pow_bits, fixed_mod]

/-- A number with a sign is sent by its two's complement. -/
theorem encode_ofInt (w : Width) (o : ByteOrder) (i : Int) :
    w.encode o (BitVec.ofInt w.bits i) = fixed o w.bytes (twosComplement w.bytes i) := by
  have hspan : ((2 ^ w.bits : Nat) : Int) = 256 ^ w.bytes := by
    rw [two_pow_bits]
    exact Int.natCast_pow 256 w.bytes
  rw [encode_eq, BitVec.toNat_ofInt, hspan, twosComplement]

/-- A word with a sign is sent by its two's complement. -/
theorem encode_toInt (w : Width) (o : ByteOrder) (value : BitVec w.bits) :
    w.encode o value = fixed o w.bytes (twosComplement w.bytes value.toInt) := by
  rw [← encode_ofInt, BitVec.ofInt_toInt]

/-- A byte is sent the same way in both orders. -/
theorem fixed_one (o : ByteOrder) (n : Nat) : fixed o 1 n = [UInt8.ofNat (n % 256)] := by
  cases o <;> simp [fixed, place]

/-- A number below 128 is one group. -/
theorem leb128_of_lt {n : Nat} (h : n < 128) : leb128 n = [UInt8.ofNat n] := by
  rw [leb128, Nat.log_of_lt h]
  simp [Nat.mod_eq_of_lt h]

/-- A larger number is its lowest group and the groups of what is left. -/
theorem leb128_of_le {n : Nat} (h : 128 ≤ n) :
    leb128 n = UInt8.ofNat (n % 128 + 128) :: leb128 (n / 128) := by
  have hdigits : Nat.log 128 n = Nat.log 128 (n / 128) + 1 :=
    Nat.log_of_one_lt_of_le (by decide) h
  rw [leb128, hdigits, List.range_succ_eq_map, List.map_cons, List.map_map]
  congr 1
  · rw [pow_zero, Nat.div_one, if_pos (Nat.succ_pos _)]
  · refine List.map_congr_left fun i _ => ?_
    simp only [Function.comp_apply, Nat.succ_eq_add_one, Nat.add_lt_add_iff_right,
      Nat.div_div_eq_div_mul, ← Nat.pow_succ']

/-- The groups of a number are its digits to base 128. -/
theorem groups_eq (more n : Nat) (h : n.log2 ≤ more) : Varint.groups more n = leb128 n := by
  induction more generalizing n with
  | zero =>
    have hlog := Nat.lt_log2_self (n := n)
    rw [Nat.le_zero.mp h] at hlog
    rw [Varint.groups, leb128_of_lt (by omega)]
  | succ more ih =>
    unfold Varint.groups
    split
    · next hlt => rw [leb128_of_lt hlt]
    · next hge =>
      have hlog := Varint.log2_div_group (Nat.le_of_not_lt hge)
      rw [leb128_of_le (Nat.le_of_not_lt hge), ih _ (by omega)]

/-- A varint is a number in groups of seven bits. -/
theorem varint_eq (n : Nat) : Varint.encode n = leb128 n := groups_eq _ n (Nat.le_refl _)

/-- Folding is the zigzag. -/
theorem zigzag_eq (i : Int) : Varint.zigzag i = zigzag i := by
  cases i with
  | ofNat n =>
    rw [Varint.zigzag, zigzag, Int.ofNat_eq_natCast, if_pos (Int.natCast_nonneg n)]
    omega
  | negSucc n =>
    rw [Varint.zigzag, zigzag, if_neg (by omega)]
    omega

end Format

/-! ## The checks are these conditions -/

namespace Width

/-- Only the widths are widths. -/
theorem bytes_of_ofBytes? {size : Nat} {w : Width} (h : ofBytes? size = some w) :
    w.bytes = size ∧ size ∈ Format.widths := by
  unfold ofBytes? at h
  split at h <;> cases h <;> exact ⟨rfl, by decide⟩

theorem ofBytes?_eq_none_iff {size : Nat} : ofBytes? size = none ↔ size ∉ Format.widths := by
  unfold ofBytes?
  split <;> simp_all [Format.widths]

theorem holdsUnsigned_iff (w : Width) (n : Nat) :
    w.holdsUnsigned n ↔ Format.FitsUnsigned w.bytes n := by
  rw [holdsUnsigned, Format.FitsUnsigned, Bool.or_eq_true, decide_eq_true_eq, decide_eq_true_eq,
    span, Nat.shiftLeft_eq, Nat.one_mul]
  cases w <;> simp [bits, bytes]

theorem holdsSigned_iff (w : Width) (i : Int) :
    w.holdsSigned i ↔ Format.FitsSigned w.bytes i := by
  simp only [holdsSigned, Format.FitsSigned, Bool.or_eq_true, Bool.and_eq_true, decide_eq_true_eq,
    span, Nat.shiftLeft_eq, Nat.one_mul]
  cases w <;> simp [bits, bytes]

end Width

/-- **An unsigned number in `size` bytes** is sent by its digits, if it has no
fault. -/
theorem unsignedPiece_cases (o : ByteOrder) (size n : Nat) :
    match Format.fault? size (Format.FitsUnsigned size n) with
    | some fault => unsignedPiece o size n = .error fault
    | none => ∃ piece, unsignedPiece o size n = .ok piece ∧
        piece.bytes = Format.fixed o size n := by
  unfold unsignedPiece Format.fault?
  cases hw : Width.ofBytes? size with
  | none => rw [if_neg (Width.ofBytes?_eq_none_iff.mp hw)]
  | some w =>
    obtain ⟨hsize, hwidth⟩ := Width.bytes_of_ofBytes? hw
    have hfits := w.holdsUnsigned_iff n
    rw [hsize] at hfits
    rw [if_pos hwidth]
    by_cases h : Format.FitsUnsigned size n
    · rw [if_pos h]
      refine ⟨_, if_pos (hfits.mpr h), ?_⟩
      rw [← hsize]
      exact Format.encode_ofNat w o n
    · rw [if_neg h]
      exact if_neg fun hin => h (hfits.mp hin)

/-- **A signed number in `size` bytes** is sent by its two's complement, if it
has no fault. -/
theorem signedPiece_cases (o : ByteOrder) (size : Nat) (i : Int) :
    match Format.fault? size (Format.FitsSigned size i) with
    | some fault => signedPiece o size i = .error fault
    | none => ∃ piece, signedPiece o size i = .ok piece ∧
        piece.bytes = Format.fixed o size (Format.twosComplement size i) := by
  unfold signedPiece Format.fault?
  cases hw : Width.ofBytes? size with
  | none => rw [if_neg (Width.ofBytes?_eq_none_iff.mp hw)]
  | some w =>
    obtain ⟨hsize, hwidth⟩ := Width.bytes_of_ofBytes? hw
    have hfits := w.holdsSigned_iff i
    rw [hsize] at hfits
    rw [if_pos hwidth]
    by_cases h : Format.FitsSigned size i
    · rw [if_pos h]
      refine ⟨_, if_pos (hfits.mpr h), ?_⟩
      rw [← hsize]
      exact Format.encode_ofInt w o i
    · rw [if_neg h]
      exact if_neg fun hin => h (hfits.mp hin)

/-! ## Pieces are parts -/

/-- **The pieces of a payload in its frame** are its parts. -/
theorem Frame.pieces_cases (o : ByteOrder) (frame : Frame) (payload : Payload) :
    match (Field.blob frame payload).fault? with
    | some fault => frame.pieces o payload.toBytes = .error fault
    | none => ∃ pieces, frame.pieces o payload.toBytes = .ok pieces ∧
        pieces.map Piece.bytes = frame.parts o payload.toBytes := by
  cases frame with
  | bare => exact ⟨_, rfl, rfl⟩
  | sized size =>
    have hfront := unsignedPiece_cases o size payload.toBytes.length
    show match Format.fault? size (Format.FitsUnsigned size payload.toBytes.length) with
      | some fault => _
      | none => _
    split at hfront
    · rw [Frame.pieces, hfront]
    · obtain ⟨front, hpiece, hbytes⟩ := hfront
      rw [Frame.pieces, hpiece]
      refine ⟨_, rfl, ?_⟩
      rw [List.map_cons, hbytes]
      rfl
  | counted =>
    refine ⟨_, rfl, ?_⟩
    rw [List.map_cons, Piece.bytes, Format.varint_eq]
    rfl
  | delimited delimiter =>
    rw [Field.fault?, Frame.pieces]
    by_cases h : delimiter = []
    · rw [if_pos h, if_pos (List.isEmpty_iff.mpr h)]
    · rw [if_neg h, if_neg (mt List.isEmpty_iff.mp h)]
      exact ⟨_, rfl, rfl⟩

/-- **The pieces of a field are its parts**, unless a fault keeps it from being
sent. -/
theorem Field.pieces_cases (o : ByteOrder) (field : Field) :
    match field.fault? with
    | some fault => field.pieces o = .error fault
    | none => ∃ pieces, field.pieces o = .ok pieces ∧
        pieces.map Piece.bytes = field.parts o := by
  cases field with
  | skip count => exact ⟨_, rfl, rfl⟩
  | flag value =>
    refine ⟨_, rfl, ?_⟩
    rw [List.map_singleton, Piece.bytes, Format.encode_eq]
    cases value <;> exact congrArg (fun row => [row]) (Format.fixed_one o _)
  | signed width value =>
    refine ⟨_, rfl, ?_⟩
    rw [List.map_singleton, Piece.bytes, Format.encode_toInt]
    rfl
  | unsigned width value =>
    refine ⟨_, rfl, ?_⟩
    rw [List.map_singleton, Piece.bytes, Format.encode_eq]
    rfl
  | signedIn size value =>
    have hpiece := signedPiece_cases o size value.toInt
    rw [Field.fault?, Field.pieces]
    split at hpiece
    · rw [hpiece]
      rfl
    · obtain ⟨piece, hpiece, hbytes⟩ := hpiece
      rw [hpiece]
      exact ⟨_, rfl, congrArg (fun row => [row]) hbytes⟩
  | unsignedIn size value =>
    have hpiece := unsignedPiece_cases o size value.toNat
    rw [Field.fault?, Field.pieces]
    split at hpiece
    · rw [hpiece]
      rfl
    · obtain ⟨piece, hpiece, hbytes⟩ := hpiece
      rw [hpiece]
      exact ⟨_, rfl, congrArg (fun row => [row]) hbytes⟩
  | float32 value =>
    refine ⟨_, rfl, ?_⟩
    exact congrArg (fun row => [row]) (Format.encode_eq .four o value)
  | float64 value =>
    refine ⟨_, rfl, ?_⟩
    exact congrArg (fun row => [row]) (Format.encode_eq .eight o value)
  | varSigned value =>
    refine ⟨_, rfl, ?_⟩
    show [Varint.encode (Varint.zigzag value.toInt)] = _
    rw [Format.varint_eq, Format.zigzag_eq]
    rfl
  | varUnsigned value =>
    refine ⟨_, rfl, ?_⟩
    show [Varint.encode value.toNat] = _
    rw [Format.varint_eq]
    rfl
  | blob frame payload => exact Frame.pieces_cases o frame payload
  | tail row => exact ⟨_, rfl, rfl⟩

end Wirepool
