import Wirepool.Fault
import Wirepool.Text.Utf8
import Wirepool.Wire.ByteOrder
import Wirepool.Wire.Varint

/-!
# Fields and their pieces

A message is a row of fields without padding, tags or a header. Each field is
sent as a few *pieces*, and a piece is what a destination accepts or refuses as
a whole: a length and the payload behind it are two pieces, so a destination
that ends between them keeps the length.

A field may be impossible to send, because its value does not fit or because
its delimiter is empty. That is known before any piece is, so `Field.pieces`
gives either a fault or all pieces.

The length of a piece is a formula. Measuring a message therefore never builds
its bytes, and a field of 2⁶⁰ zero bytes is measured as fast as one of three.
-/

namespace Wirepool

/-- **What a destination accepts or refuses as a whole.** -/
inductive Piece where
  /-- Zero bytes. -/
  | zeros (count : Nat)
  /-- A number of fixed width. -/
  | fixed (width : Width) (order : ByteOrder) (value : BitVec width.bits)
  /-- A number of variable length. -/
  | varint (value : Nat)
  /-- Bytes as they are. -/
  | raw (row : List UInt8)
  deriving DecidableEq

namespace Piece

/-- The number of bytes, without building them. -/
def length : Piece → Nat
  | zeros count => count
  | fixed width _ _ => width.bytes
  | varint value => Varint.size value
  | raw row => row.length

/-- The bytes as sent. -/
def bytes : Piece → List UInt8
  | zeros count => List.replicate count 0
  | fixed width order value => width.encode order value
  | varint value => Varint.encode value
  | raw row => row

end Piece

/-- **The payload of a field of bytes**, which may be known to be text. -/
inductive Payload where
  | text (s : String)
  | bytes (row : List UInt8)
  deriving DecidableEq

/-- The bytes that are sent for a payload. -/
def Payload.toBytes : Payload → List UInt8
  | .text s => utf8Bytes s
  | .bytes row => row

/-- **How a reader learns where a payload ends.** -/
inductive Frame where
  /-- It does not: the payload stands alone and the reader knows its length. -/
  | bare
  /-- By the length in front, a number of the given count of bytes. -/
  | sized (size : Nat)
  /-- By the length in front, a number of variable length. -/
  | counted
  /-- By the delimiter behind. The payload is not searched for it. -/
  | delimited (delimiter : List UInt8)
  deriving DecidableEq

/-- **One field of a message.** Numbers are bit patterns of their width, which
makes every value of the type a value that can be meant. -/
inductive Field where
  /-- Zero bytes to be ignored. -/
  | skip (count : Nat)
  /-- A truth value: one byte, 1 or 0. -/
  | flag (value : Bool)
  /-- A signed number that fills its width. -/
  | signed (width : Width) (value : BitVec width.bits)
  /-- An unsigned number that fills its width. -/
  | unsigned (width : Width) (value : BitVec width.bits)
  /-- A signed number to be sent in a given number of bytes. -/
  | signedIn (size : Nat) (value : BitVec 64)
  /-- An unsigned number to be sent in a given number of bytes. -/
  | unsignedIn (size : Nat) (value : BitVec 64)
  /-- A floating-point number of 32 bits, by its bit pattern. -/
  | float32 (value : BitVec 32)
  /-- A floating-point number of 64 bits, by its bit pattern. -/
  | float64 (value : BitVec 64)
  /-- A signed number of variable length. -/
  | varSigned (value : BitVec 64)
  /-- An unsigned number of variable length. -/
  | varUnsigned (value : BitVec 64)
  /-- A payload in a frame. -/
  | blob (frame : Frame) (payload : Payload)
  /-- The bytes that end a message. -/
  | tail (row : List UInt8)
  deriving DecidableEq

namespace Width

/-- Whether a number can be sent unsigned in this width. A word of eight bytes
is never checked, since a number is at most that wide. -/
def holdsUnsigned (w : Width) (n : Nat) : Bool :=
  w = eight || n < w.span

/-- Whether a number can be sent in two's complement in this width. -/
def holdsSigned (w : Width) (i : Int) : Bool :=
  w = eight || (-(w.span / 2 : Nat) ≤ i && i < (w.span / 2 : Nat))

end Width

/-- The piece of an unsigned number that is to take `size` bytes. The size is
looked at before the value. -/
def unsignedPiece (order : ByteOrder) (size n : Nat) : Except Fault Piece :=
  match Width.ofBytes? size with
  | none => .error (.invalidSize size)
  | some w =>
    if w.holdsUnsigned n then .ok (.fixed w order (BitVec.ofNat w.bits n))
    else .error (.numberOverflow size)

/-- The piece of a signed number that is to take `size` bytes. The size is
looked at before the value. -/
def signedPiece (order : ByteOrder) (size : Nat) (i : Int) : Except Fault Piece :=
  match Width.ofBytes? size with
  | none => .error (.invalidSize size)
  | some w =>
    if w.holdsSigned i then .ok (.fixed w order (BitVec.ofInt w.bits i))
    else .error (.numberOverflow size)

/-- The pieces of a payload in its frame. -/
def Frame.pieces (order : ByteOrder) (frame : Frame) (payload : List UInt8) :
    Except Fault (List Piece) :=
  match frame with
  | .bare => .ok [.raw payload]
  | .sized size =>
    match unsignedPiece order size payload.length with
    | .ok front => .ok [front, .raw payload]
    | .error fault => .error fault
  | .counted => .ok [.varint payload.length, .raw payload]
  | .delimited delimiter =>
    if delimiter.isEmpty then .error .emptyDelimiter
    else .ok [.raw payload, .raw delimiter]

/-- **The pieces of a field** when the given order is in force, or why the
field cannot be sent at all. -/
def Field.pieces (order : ByteOrder) : Field → Except Fault (List Piece)
  | .skip count => .ok [.zeros count]
  | .flag value => .ok [.fixed .one order (if value then 1 else 0)]
  | .signed width value | .unsigned width value => .ok [.fixed width order value]
  | .signedIn size value => (signedPiece order size value.toInt).map ([·])
  | .unsignedIn size value => (unsignedPiece order size value.toNat).map ([·])
  | .float32 value => .ok [.fixed .four order value]
  | .float64 value => .ok [.fixed .eight order value]
  | .varSigned value => .ok [.varint (Varint.zigzag value.toInt)]
  | .varUnsigned value => .ok [.varint value.toNat]
  | .blob frame payload => frame.pieces order payload.toBytes
  | .tail row => .ok [.raw row]

end Wirepool
