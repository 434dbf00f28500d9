import Wirepool.Wire.Delimiter
import Wirepool.Wire.Field

/-!
# The decoder

A decoder takes values from the front of its input, one read for each kind of
field. It holds the unread bytes and nothing of those it has read, so a read
cannot depend on what came before it, the byte order and the kept fault apart.

The first fault is kept. From then on every read gives zero, false or nothing
and moves nothing, while a change of the byte order still takes effect; `reset`
starts afresh on a new input.

**Payloads are borrowed or copied.** A read of a payload says whether its
result must outlive the input. If so, the bytes are copied to the heap, or, once
an arena is attached, into the arena; the decoder asks for such a copy and its
caller makes it, because what is copied where changes nothing in what is read.
-/

namespace Wirepool

/-- **A decoder in the middle of its input.** -/
structure Decoder where
  /-- The unread bytes. -/
  rest : List UInt8
  /-- The byte order in force. -/
  order : ByteOrder
  /-- The byte order at the start of an input. -/
  initialOrder : ByteOrder
  /-- The first fault. -/
  error : Option Fault
  /-- Whether an arena takes the copies. -/
  attached : Bool
  deriving DecidableEq

/-- **How a decoder finds the end of a payload.** -/
inductive Extent where
  /-- The caller knows the length. -/
  | exactly (count : Nat)
  /-- By the length in front, a number of the given count of bytes. -/
  | sized (size : Nat)
  /-- By the length in front, a number of variable length. -/
  | counted
  /-- By the first occurrence of the delimiter, which is read too. -/
  | delimited (delimiter : List UInt8)
  /-- The payload is all that is left. -/
  | rest
  deriving DecidableEq

/-- **One read.** Those of payloads say whether the result is to be a copy. -/
inductive Read where
  | skip (count : Nat)
  | flag
  | signed (width : Width)
  | unsigned (width : Width)
  | signedIn (size : Nat)
  | unsignedIn (size : Nat)
  | float32
  | float64
  | varSigned
  | varUnsigned
  | text (extent : Extent) (copy : Bool)
  | bytes (extent : Extent) (copy : Bool)
  deriving DecidableEq

/-- **What a read or a question gives.** -/
inductive Value where
  | nothing
  | flag (value : Bool)
  | number (value : Int)
  | float32 (value : BitVec 32)
  | float64 (value : BitVec 64)
  | text (s : String)
  | bytes (row : List UInt8)
  | order (value : ByteOrder)
  deriving DecidableEq

/-- **What a read gives**, and what became of a payload. -/
structure Reply where
  value : Value
  /-- For a payload: whether it is a copy on the heap. -/
  owned : Option Bool := none
  /-- The bytes to be copied into the attached arena. -/
  toArena : Option (List UInt8) := none
  deriving DecidableEq

namespace Decoder

/-- A decoder at the start of an input. -/
def start (order : ByteOrder) (input : List UInt8) : Decoder :=
  { rest := input, order, initialOrder := order, error := none, attached := false }

/-- Starts afresh on a new input, in the order of the start. An attached arena
stays attached. -/
def reset (d : Decoder) (input : List UInt8) : Decoder :=
  { start d.initialOrder input with attached := d.attached }

/-- Puts another byte order in force. -/
def setOrder (d : Decoder) (order : ByteOrder) : Decoder :=
  { d with order }

/-- Keeps a fault, unless one is kept already. -/
def fail (d : Decoder) (fault : Fault) : Decoder :=
  match d.error with
  | some _ => d
  | none => { d with error := some fault }

/-- The next `count` bytes. If there are fewer, none is read. -/
def take (d : Decoder) (count : Nat) : Option (List UInt8) × Decoder :=
  match d.error with
  | some _ => (none, d)
  | none =>
    if d.rest.length < count then (none, d.fail .bufferTooShort)
    else (some (d.rest.take count), { d with rest := d.rest.drop count })

/-- The next number of fixed width, zero if there is none. -/
def fixed (d : Decoder) (w : Width) : BitVec w.bits × Decoder :=
  match d.take w.bytes with
  | (some row, d) => (w.decode d.order row, d)
  | (none, d) => (0, d)

/-- The next number of a width that the caller gives as a count of bytes. A
count that is no width is found before anything is read. -/
def sized (d : Decoder) (size : Nat) : Option ((w : Width) × BitVec w.bits) × Decoder :=
  match d.error with
  | some _ => (none, d)
  | none =>
    match Width.ofBytes? size with
    | none => (none, d.fail (.invalidSize size))
    | some w =>
      let (value, d) := d.fixed w
      (some ⟨w, value⟩, d)

/-- The next signed number of `size` bytes. -/
def signedIn (d : Decoder) (size : Nat) : Int × Decoder :=
  match d.sized size with
  | (some ⟨_, value⟩, d) => (value.toInt, d)
  | (none, d) => (0, d)

/-- The next unsigned number of `size` bytes. -/
def unsignedIn (d : Decoder) (size : Nat) : Nat × Decoder :=
  match d.sized size with
  | (some ⟨_, value⟩, d) => (value.toNat, d)
  | (none, d) => (0, d)

/-- The next number of variable length. One that does not end in the input is
cut short, one of more than 64 bits is too large. -/
def varUnsigned (d : Decoder) : Nat × Decoder :=
  match d.error with
  | some _ => (0, d)
  | none =>
    match Varint.decode d.rest with
    | .ok (n, rest) => (n, { d with rest })
    | .error .truncated => (0, d.fail .bufferTooShort)
    | .error .overflow => (0, d.fail (.numberOverflow 8))

/-- The bytes up to the first occurrence of the delimiter, which is read too.
If it does not occur, nothing is read. -/
def delimited (d : Decoder) (delimiter : List UInt8) : Option (List UInt8) × Decoder :=
  match d.error with
  | some _ => (none, d)
  | none =>
    if delimiter.isEmpty then (none, d.fail .emptyDelimiter)
    else
      match Delimiter.find? delimiter d.rest with
      | some position =>
        (some (d.rest.take position),
          { d with rest := d.rest.drop (position + delimiter.length) })
      | none => (none, d.fail .bufferTooShort)

/-- **The next payload**, found by its extent. A length in front of it stays
read if the payload is too short for it. -/
def payload (d : Decoder) : Extent → Option (List UInt8) × Decoder
  | .exactly count => d.take count
  | .sized size =>
    let (count, d) := d.unsignedIn size
    d.take count
  | .counted =>
    let (count, d) := d.varUnsigned
    d.take count
  | .delimited delimiter => d.delimited delimiter
  | .rest => d.take d.rest.length

/-- The reply to a read of a payload that succeeded. -/
def deliver (d : Decoder) (value : Value) (row : List UInt8) (copy : Bool) : Reply :=
  { value
    owned := some (copy && !d.attached)
    toArena := if copy && d.attached then some row else none }

/-- **Carries out one read.** Text that is not well-formed is a fault that is
found when its bytes are read already. -/
def read (d : Decoder) : Read → Reply × Decoder
  | .skip count => ({ value := .nothing }, (d.take count).2)
  | .flag =>
    let (value, d) := d.fixed .one
    ({ value := .flag (value == 1) }, d)
  | .signed width =>
    let (value, d) := d.fixed width
    ({ value := .number value.toInt }, d)
  | .unsigned width =>
    let (value, d) := d.fixed width
    ({ value := .number value.toNat }, d)
  | .signedIn size =>
    let (value, d) := d.signedIn size
    ({ value := .number value }, d)
  | .unsignedIn size =>
    let (value, d) := d.unsignedIn size
    ({ value := .number value }, d)
  | .float32 =>
    let (value, d) := d.fixed .four
    ({ value := .float32 value }, d)
  | .float64 =>
    let (value, d) := d.fixed .eight
    ({ value := .float64 value }, d)
  | .varSigned =>
    let (value, d) := d.varUnsigned
    ({ value := .number (Varint.unzigzag value) }, d)
  | .varUnsigned =>
    let (value, d) := d.varUnsigned
    ({ value := .number value }, d)
  | .text extent copy =>
    match d.payload extent with
    | (some row, d) =>
      match text? row with
      | some s => (d.deliver (.text s) row copy, d)
      | none => ({ value := .text "", owned := some false }, d.fail .invalidText)
    | (none, d) => ({ value := .text "", owned := some false }, d)
  | .bytes extent copy =>
    match d.payload extent with
    | (some row, d) => (d.deliver (.bytes row) row copy, d)
    | (none, d) => ({ value := .bytes [], owned := some false }, d)

/-- The fault at the end of an input that is to be read to its end. -/
def finish (d : Decoder) : Except Fault Unit :=
  match d.error with
  | some fault => .error fault
  | none => if d.rest.isEmpty then .ok () else .error .remainingBytes

end Decoder

end Wirepool
