import Mathlib.Data.List.Basic
import Wirepool.Proofs.Wire.Delimiter
import Wirepool.Proofs.Wire.Varint
import Wirepool.Wire.Decoder

/-!
# Every field is taken back by its mirror

For each field there is one read that takes it back, its *mirror*. This module
shows that for a single field: in front of a decoder in the same byte order, the
pieces of the field give its value and leave exactly what follows them.

Three things could stand in the way, and each is a hypothesis of
`Decoder.read_mirror`. A length in front of a payload is a number of at most 64
bits, so the payload must be shorter than that. A delimiter must end its
payload. And the bytes that end a message are all that is left, so nothing may
follow them.
-/

namespace Wirepool

namespace Piece

/-- **The bytes of a row of pieces**, one behind another. -/
def image (pieces : List Piece) : List UInt8 := pieces.flatMap bytes

/-- The length of a piece is the number of its bytes. -/
@[simp] theorem length_bytes (piece : Piece) : piece.bytes.length = piece.length := by
  cases piece with
  | zeros count => exact List.length_replicate
  | fixed width order value => exact Width.length_encode width order value
  | varint value => exact Varint.length_encode value
  | raw row => rfl

@[simp] theorem image_nil : image [] = [] := rfl

@[simp] theorem image_cons (piece : Piece) (pieces : List Piece) :
    image (piece :: pieces) = piece.bytes ++ image pieces := rfl

end Piece

namespace Frame

/-- How a reader finds the end of a payload that stands in this frame. A payload
that stands alone is found by its length. -/
def extent (payload : List UInt8) : Frame → Extent
  | bare => .exactly payload.length
  | sized size => .sized size
  | counted => .counted
  | delimited delimiter => .delimited delimiter

end Frame

namespace Field

/-- **The read that takes a field back.** Payloads may be copied or borrowed. -/
def mirror (copy : Bool) : Field → Read
  | skip count => .skip count
  | flag _ => .flag
  | signed width _ => .signed width
  | unsigned width _ => .unsigned width
  | signedIn size _ => .signedIn size
  | unsignedIn size _ => .unsignedIn size
  | float32 _ => .float32
  | float64 _ => .float64
  | varSigned _ => .varSigned
  | varUnsigned _ => .varUnsigned
  | blob frame (.text s) => .text (frame.extent (utf8Bytes s)) copy
  | blob frame (.bytes row) => .bytes (frame.extent row) copy
  | tail _ => .bytes .rest copy

/-- **The value that a field stands for.** Zero bytes to be ignored stand for
none. -/
def value : Field → Value
  | skip _ => .nothing
  | flag value => .flag value
  | signed _ value => .number value.toInt
  | unsigned _ value => .number value.toNat
  | signedIn _ value => .number value.toInt
  | unsignedIn _ value => .number value.toNat
  | float32 value => .float32 value
  | float64 value => .float64 value
  | varSigned value => .number value.toInt
  | varUnsigned value => .number value.toNat
  | blob _ (.text s) => .text s
  | blob _ (.bytes row) => .bytes row
  | tail row => .bytes row

/-- Whether the field is one that ends a message. -/
def IsTail : Field → Prop
  | tail _ => True
  | _ => False

/-- **A field whose end can be found**: if it is delimited, its delimiter ends
its payload. -/
def Bounded : Field → Prop
  | blob (.delimited delimiter) payload => Delimiter.Ends delimiter payload.toBytes
  | _ => True

end Field

/-- A result that was made from another one comes from a success. -/
theorem exists_of_map_eq_ok {ε α β : Type} {x : Except ε α} {f : α → β} {b : β}
    (h : x.map f = .ok b) : ∃ a, x = .ok a ∧ f a = b := by
  cases x with
  | error e => cases h
  | ok a => exact ⟨a, rfl, Except.ok.inj h⟩

/-! ## Numbers that were checked to fit -/

/-- An unsigned number that fits is the number of its piece. -/
theorem Width.toNat_ofNat_of_holdsUnsigned {w : Width} {n : Nat} (h : w.holdsUnsigned n)
    (hword : n < wordLimit) : (BitVec.ofNat w.bits n).toNat = n := by
  rw [BitVec.toNat_ofNat]
  refine Nat.mod_eq_of_lt ?_
  rw [holdsUnsigned, Bool.or_eq_true, decide_eq_true_eq, decide_eq_true_eq, span,
    Nat.shiftLeft_eq, Nat.one_mul] at h
  rcases h with rfl | h
  · exact hword
  · exact h

/-- A signed number that fits is the number of its piece. -/
theorem Width.toInt_ofInt_of_holdsSigned {w : Width} {i : Int} (h : w.holdsSigned i)
    (hlow : -2 ^ 63 ≤ i) (hhigh : i < 2 ^ 63) : (BitVec.ofInt w.bits i).toInt = i := by
  rw [BitVec.toInt_ofInt]
  simp only [holdsSigned, Bool.or_eq_true, Bool.and_eq_true, decide_eq_true_eq, span,
    Nat.shiftLeft_eq, Nat.one_mul] at h
  refine Int.bmod_eq_of_le_mul_two ?_ ?_
  all_goals
    rcases h with rfl | ⟨h1, h2⟩
    · simp only [bits, bytes]
      omega
    · cases w <;> simp only [bits, bytes] at h1 h2 ⊢ <;> omega

namespace Decoder

variable {d : Decoder}

/-! ## Single steps of a decoder that has kept no fault -/

/-- Bytes that are there are taken. -/
theorem take_append (he : d.error = none) (following : List UInt8) {row : List UInt8}
    (hr : d.rest = row ++ following) :
    d.take row.length = (some row, { d with rest := following }) := by
  rw [take, he, hr]
  simp

/-- A number of fixed width is taken back. -/
theorem fixed_append (he : d.error = none) (following : List UInt8) {w : Width} {o : ByteOrder}
    (ho : d.order = o) {n : BitVec w.bits} (hr : d.rest = w.encode o n ++ following) :
    d.fixed w = (n, { d with rest := following }) := by
  have ht := take_append he following hr
  rw [Width.length_encode] at ht
  rw [fixed, ht]
  show (w.decode d.order (w.encode o n), _) = _
  rw [ho, Width.decode_encode]

/-- A number of fixed width whose width is given as a count of bytes is taken
back. -/
theorem sized_append (he : d.error = none) (following : List UInt8) {w : Width} {o : ByteOrder}
    (ho : d.order = o) {size : Nat} (hw : Width.ofBytes? size = some w) {n : BitVec w.bits}
    (hr : d.rest = w.encode o n ++ following) :
    d.sized size = (some ⟨w, n⟩, { d with rest := following }) := by
  simp only [sized, he, hw, fixed_append he following ho hr]

/-- An unsigned number that was sent in `size` bytes is taken back. -/
theorem unsignedIn_append (he : d.error = none) (following : List UInt8) {o : ByteOrder}
    (ho : d.order = o) {size n : Nat} {piece : Piece} (hp : unsignedPiece o size n = .ok piece)
    (hn : n < wordLimit) (hr : d.rest = piece.bytes ++ following) :
    d.unsignedIn size = (n, { d with rest := following }) := by
  unfold unsignedPiece at hp
  split at hp
  · cases hp
  · next w hw =>
    split at hp
    · next hfit =>
      cases hp
      rw [unsignedIn, sized_append he following ho hw hr]
      show ((BitVec.ofNat w.bits n).toNat, _) = _
      rw [Width.toNat_ofNat_of_holdsUnsigned hfit hn]
    · cases hp

/-- A signed number that was sent in `size` bytes is taken back. -/
theorem signedIn_append (he : d.error = none) (following : List UInt8) {o : ByteOrder}
    (ho : d.order = o) {size : Nat} {i : Int} {piece : Piece}
    (hp : signedPiece o size i = .ok piece) (hlow : -2 ^ 63 ≤ i) (hhigh : i < 2 ^ 63)
    (hr : d.rest = piece.bytes ++ following) :
    d.signedIn size = (i, { d with rest := following }) := by
  unfold signedPiece at hp
  split at hp
  · cases hp
  · next w hw =>
    split at hp
    · next hfit =>
      cases hp
      rw [signedIn, sized_append he following ho hw hr]
      show ((BitVec.ofInt w.bits i).toInt, _) = _
      rw [Width.toInt_ofInt_of_holdsSigned hfit hlow hhigh]
    · cases hp

/-- A number of variable length is taken back. -/
theorem varUnsigned_append (he : d.error = none) (following : List UInt8) {n : Nat}
    (hn : n < wordLimit) (hr : d.rest = Varint.encode n ++ following) :
    d.varUnsigned = (n, { d with rest := following }) := by
  rw [varUnsigned, he, hr]
  simp only [Varint.decode_encode_append hn]

/-- A payload that its delimiter ends is taken back. -/
theorem delimited_append (he : d.error = none) (following : List UInt8)
    {delimiter payload : List UInt8} (hd : delimiter ≠ [])
    (hends : Delimiter.Ends delimiter payload) (hr : d.rest = payload ++ delimiter ++ following) :
    d.delimited delimiter = (some payload, { d with rest := following }) := by
  have hfind := (Delimiter.find?_append_eq_some_iff following).2 hends
  rw [delimited, he, hr]
  simp only [List.isEmpty_iff, hd, if_false, hfind]
  rw [List.append_assoc, List.take_left, ← List.drop_drop, List.drop_left, List.drop_left]

/-! ## Whole fields -/

/-- **A payload in its frame is taken back** by the extent of the frame. -/
theorem payload_append (he : d.error = none) (following : List UInt8) {frame : Frame}
    {payload : List UInt8} {pieces : List Piece} (hp : frame.pieces d.order payload = .ok pieces)
    (hlen : payload.length < wordLimit)
    (hends : ∀ delimiter, frame = .delimited delimiter → Delimiter.Ends delimiter payload)
    (hr : d.rest = Piece.image pieces ++ following) :
    d.payload (frame.extent payload) = (some payload, { d with rest := following }) := by
  cases frame with
  | bare =>
    cases hp
    exact take_append he following (by simpa [Piece.bytes] using hr)
  | sized size =>
    simp only [Frame.pieces] at hp
    split at hp
    · next front hfront =>
      cases hp
      -- the count is read first, and then just as many bytes
      have hcount := unsignedIn_append he (payload ++ following) rfl hfront hlen
        (by simpa [Piece.bytes] using hr)
      show (d.unsignedIn size).2.take (d.unsignedIn size).1 = _
      rw [hcount]
      exact take_append (d := { d with rest := payload ++ following }) he following rfl
    · cases hp
  | counted =>
    cases hp
    have hcount := varUnsigned_append he (payload ++ following) hlen
      (by simpa [Piece.bytes] using hr)
    show d.varUnsigned.2.take d.varUnsigned.1 = _
    rw [hcount]
    exact take_append (d := { d with rest := payload ++ following }) he following rfl
  | delimited delimiter =>
    simp only [Frame.pieces] at hp
    split at hp
    · cases hp
    · next hd =>
      cases hp
      exact delimited_append he following (by simpa using hd) (hends delimiter rfl)
        (by simpa [Piece.bytes] using hr)

/-- The payload is among the pieces of its frame. -/
theorem length_le_image {o : ByteOrder} {frame : Frame} {payload : List UInt8}
    {pieces : List Piece} (hp : frame.pieces o payload = .ok pieces) :
    payload.length ≤ (Piece.image pieces).length := by
  cases frame with
  | bare => cases hp; simp [Piece.bytes]
  | sized size =>
    simp only [Frame.pieces] at hp
    split at hp
    · cases hp; simp [Piece.bytes]
    · cases hp
  | counted => cases hp; simp [Piece.bytes]
  | delimited delimiter =>
    simp only [Frame.pieces] at hp
    split at hp
    · cases hp
    · cases hp; simp [Piece.bytes]

/-- A payload of bytes is delivered as it is. -/
theorem read_bytes_of_payload {extent : Extent} {row : List UInt8} {d' : Decoder}
    (h : d.payload extent = (some row, d')) (copy : Bool) :
    d.read (.bytes extent copy) = (d'.deliver (.bytes row) row copy, d') := by
  rw [read, h]

/-- A payload that spells a text is delivered as that text. -/
theorem read_text_of_payload {extent : Extent} {row : List UInt8} {d' : Decoder}
    (h : d.payload extent = (some row, d')) (copy : Bool) {s : String} (hs : text? row = some s) :
    d.read (.text extent copy) = (d'.deliver (.text s) row copy, d') := by
  simp only [read, h, hs]

/-- **Taking a field back**: its mirror gives the field's value, leaves what follows and
keeps no fault. -/
structure TakesBack (d : Decoder) (copy : Bool) (field : Field) (following : List UInt8) :
    Prop where
  value_eq : (d.read (field.mirror copy)).1.value = field.value
  decoder_eq : (d.read (field.mirror copy)).2 = { d with rest := following }

/-! ## One kind of field after the other -/

section Kinds

variable (he : d.error = none) (copy : Bool) (following : List UInt8)

include he

/-- Zero bytes to be ignored are taken back. -/
theorem takesBack_skip {count : Nat} (hr : d.rest = Piece.image [.zeros count] ++ following) :
    d.TakesBack copy (.skip count) following := by
  have hrest : d.rest = List.replicate count 0 ++ following := by
    simpa [Piece.bytes] using hr
  have htake := take_append he following hrest
  rw [List.length_replicate] at htake
  exact ⟨rfl, congrArg Prod.snd htake⟩

/-- A field that is sent as one number of fixed width is taken back, if its mirror
reads such a number and gives the value of the field for it. -/
theorem takesBack_of_fixed {field : Field} {w : Width} {n : BitVec w.bits}
    (hr : d.rest = Piece.image [.fixed w d.order n] ++ following) (value : BitVec w.bits → Value)
    (hread : (d.read (field.mirror copy)).1.value = value (d.fixed w).1)
    (hvalue : value n = field.value)
    (hdecoder : (d.read (field.mirror copy)).2 = (d.fixed w).2) :
    d.TakesBack copy field following := by
  have hfixed : d.fixed w = (n, { d with rest := following }) :=
    fixed_append he following rfl (by simpa [Piece.bytes] using hr)
  constructor
  · rw [hread, hfixed, hvalue]
  · rw [hdecoder, hfixed]

/-- A signed number in `size` bytes is taken back. -/
theorem takesBack_signedIn {size : Nat} {value : BitVec 64} {pieces : List Piece}
    (hp : (Field.signedIn size value).pieces d.order = .ok pieces)
    (hr : d.rest = Piece.image pieces ++ following) :
    d.TakesBack copy (.signedIn size value) following := by
  obtain ⟨piece, hpiece, rfl⟩ := exists_of_map_eq_ok hp
  have hread := signedIn_append he following rfl hpiece value.le_toInt BitVec.toInt_lt
    (by simpa using hr)
  exact ⟨congrArg (fun r : Int × Decoder => Value.number r.1) hread, congrArg Prod.snd hread⟩

/-- An unsigned number in `size` bytes is taken back. -/
theorem takesBack_unsignedIn {size : Nat} {value : BitVec 64} {pieces : List Piece}
    (hp : (Field.unsignedIn size value).pieces d.order = .ok pieces)
    (hr : d.rest = Piece.image pieces ++ following) :
    d.TakesBack copy (.unsignedIn size value) following := by
  obtain ⟨piece, hpiece, rfl⟩ := exists_of_map_eq_ok hp
  have hread := unsignedIn_append he following rfl hpiece value.isLt (by simpa using hr)
  exact ⟨congrArg (fun r : Nat × Decoder => Value.number r.1) hread, congrArg Prod.snd hread⟩

/-- A signed number of variable length is taken back from the number it is folded to. -/
theorem takesBack_varSigned {value : BitVec 64}
    (hr : d.rest = Piece.image [.varint (Varint.zigzag value.toInt)] ++ following) :
    d.TakesBack copy (.varSigned value) following := by
  have hread := varUnsigned_append he following
    (Varint.zigzag_lt value.le_toInt BitVec.toInt_lt) (by simpa [Piece.bytes] using hr)
  refine ⟨?_, congrArg Prod.snd hread⟩
  show Value.number (Varint.unzigzag d.varUnsigned.1) = .number value.toInt
  rw [hread, Varint.unzigzag_zigzag]

/-- An unsigned number of variable length is taken back. -/
theorem takesBack_varUnsigned {value : BitVec 64}
    (hr : d.rest = Piece.image [.varint value.toNat] ++ following) :
    d.TakesBack copy (.varUnsigned value) following := by
  have hread := varUnsigned_append he following value.isLt (by simpa [Piece.bytes] using hr)
  exact ⟨congrArg (fun r : Nat × Decoder => Value.number r.1) hread, congrArg Prod.snd hread⟩

/-- **A payload in its frame is taken back.** The frame says how much is read, and
the payload what it is read as. -/
theorem takesBack_blob {frame : Frame} {payload : Payload} {pieces : List Piece}
    (hp : (Field.blob frame payload).pieces d.order = .ok pieces)
    (hlen : (Piece.image pieces).length < wordLimit) (hbounded : (Field.blob frame payload).Bounded)
    (hr : d.rest = Piece.image pieces ++ following) :
    d.TakesBack copy (.blob frame payload) following := by
  have hpayload := payload_append he following hp (Nat.lt_of_le_of_lt (length_le_image hp) hlen)
    (fun delimiter hf => by subst hf; exact hbounded) hr
  cases payload with
  | text s =>
    have hread := read_text_of_payload hpayload copy (text?_utf8Bytes s)
    exact ⟨congrArg (fun r => r.1.value) hread, congrArg Prod.snd hread⟩
  | bytes row =>
    have hread := read_bytes_of_payload hpayload copy
    exact ⟨congrArg (fun r => r.1.value) hread, congrArg Prod.snd hread⟩

/-- The bytes that end a message are taken back, since nothing follows them. -/
theorem takesBack_tail {row : List UInt8} (hr : d.rest = row) :
    d.TakesBack copy (.tail row) [] := by
  have hpayload : d.payload .rest = (some row, { d with rest := [] }) := by
    show d.take d.rest.length = _
    rw [hr]
    exact take_append he [] (hr.trans (List.append_nil row).symm)
  have hread := read_bytes_of_payload hpayload copy
  exact ⟨congrArg (fun r => r.1.value) hread, congrArg Prod.snd hread⟩

end Kinds

/-- **The mirror of a field takes it back**, in front of the field's pieces and in
the order that was in force when they were made. -/
theorem read_mirror (he : d.error = none) (copy : Bool) (following : List UInt8) {field : Field}
    {pieces : List Piece} (hp : field.pieces d.order = .ok pieces)
    (hlen : (Piece.image pieces).length < wordLimit) (hbounded : field.Bounded)
    (htail : field.IsTail → following = []) (hr : d.rest = Piece.image pieces ++ following) :
    d.TakesBack copy field following := by
  cases field with
  | skip count => cases hp; exact takesBack_skip he copy following hr
  | flag value =>
    cases hp
    exact takesBack_of_fixed (w := .one) he copy following hr (fun n => .flag (n == 1)) rfl
      (by cases value <;> rfl) rfl
  | signed width value =>
    cases hp
    exact takesBack_of_fixed he copy following hr (fun n => .number n.toInt) rfl rfl rfl
  | unsigned width value =>
    cases hp
    exact takesBack_of_fixed he copy following hr (fun n => .number n.toNat) rfl rfl rfl
  | signedIn size value => exact takesBack_signedIn he copy following hp hr
  | unsignedIn size value => exact takesBack_unsignedIn he copy following hp hr
  | float32 value =>
    cases hp
    exact takesBack_of_fixed (w := .four) he copy following hr .float32 rfl rfl rfl
  | float64 value =>
    cases hp
    exact takesBack_of_fixed (w := .eight) he copy following hr .float64 rfl rfl rfl
  | varSigned value => cases hp; exact takesBack_varSigned he copy following hr
  | varUnsigned value => cases hp; exact takesBack_varUnsigned he copy following hr
  | blob frame payload => exact takesBack_blob he copy following hp hlen hbounded hr
  | tail row =>
    cases hp
    obtain rfl := htail trivial
    exact takesBack_tail he copy (by simpa [Piece.bytes] using hr)

/-- A payload that its delimiter ends is read back, and the delimiter with it. -/
theorem read_delimited_append (he : d.error = none) (following : List UInt8)
    {delimiter payload : List UInt8} (hd : delimiter ≠ [])
    (hends : Delimiter.Ends delimiter payload) (hr : d.rest = payload ++ delimiter ++ following)
    (copy : Bool) :
    d.read (.bytes (.delimited delimiter) copy) =
      (deliver { d with rest := following } (.bytes payload) payload copy,
        { d with rest := following }) := by
  have hpayload : d.payload (.delimited delimiter) =
      (some payload, { d with rest := following }) := delimited_append he following hd hends hr
  exact read_bytes_of_payload hpayload copy

/-- **A delimited payload is read back only if its delimiter ends it.** Otherwise
an earlier occurrence is found, and a shorter payload is read. -/
theorem ends_of_read_delimited (he : d.error = none) {delimiter payload following : List UInt8}
    (hd : delimiter ≠ []) (hr : d.rest = payload ++ delimiter ++ following) (copy : Bool)
    (hvalue : (d.read (.bytes (.delimited delimiter) copy)).1.value = .bytes payload) :
    Delimiter.Ends delimiter payload := by
  obtain ⟨position, hle, hfind⟩ := Delimiter.exists_find?_append delimiter payload following
  have hpayload : d.payload (.delimited delimiter) =
      (some (d.rest.take position),
        { d with rest := d.rest.drop (position + delimiter.length) }) := by
    show d.delimited delimiter = _
    simp only [delimited, he, List.isEmpty_iff, hd, if_false, hr, hfind]
  rw [read_bytes_of_payload hpayload copy] at hvalue
  have hrow : d.rest.take position = payload := Value.bytes.inj hvalue
  have hlength : position = payload.length := by
    have hrest : payload.length ≤ d.rest.length := by
      rw [hr, List.length_append, List.length_append]
      omega
    rw [← List.length_take_of_le (Nat.le_trans hle hrest), hrow]
  rw [hlength] at hfind
  exact (Delimiter.find?_append_eq_some_iff following).1 hfind

end Decoder

end Wirepool
