import Wirepool.Memory.Limits
import Wirepool.Wire.Reading

/-!
# The decoder with its arithmetic

A `Decoder` holds the unread bytes and takes them from the front, so no step of it can go
astray. The machine has all of the input and a position in it, and goes from one position
to the next by arithmetic of words: sums and differences of lengths, shifts, pieces of a
row and single bytes of it, and a choice by width that knows four widths and no other.
Each of these can be asked for something that is not there, and then the program is
stopped in the middle of a read.

Here is the decoder in that form, with every such place spelled out. A `Cursor` stands for
a decoder; `Cursor.decoder` is what it stands for.
-/

namespace Wirepool

/-- **What stops a program whose arithmetic goes wrong.** -/
inductive Trap where
  /-- A difference is negative. -/
  | underflow
  /-- A result has no room in its type. -/
  | overflow
  /-- A shift is by all the bits of a number or more. -/
  | shiftTooFar
  /-- A byte or a piece is not inside its row. -/
  | outOfBounds
  /-- A row is copied to a place of another length. -/
  | lengthMismatch
  /-- A row is looked at in windows of no bytes. -/
  | emptyWindow
  /-- A number is to be read from a count of bytes that is no width. -/
  | unknownWidth (size : Nat)
  deriving DecidableEq

/-! ## Checked operations -/

namespace Checked

/-- A sum that has to stay below `limit`. -/
def add (limit a b : Nat) : Except Trap Nat :=
  if a + b < limit then .ok (a + b) else .error .overflow

/-- A difference that must not be negative. -/
def sub (a b : Nat) : Except Trap Nat :=
  if b ≤ a then .ok (a - b) else .error .underflow

/-- A word shifted to the left. Bits that leave it are lost, but the shift must be by
fewer than 64. -/
def shiftLeft (word : BitVec 64) (count : Nat) : Except Trap (BitVec 64) :=
  if count < 64 then .ok (word <<< count) else .error .shiftTooFar

/-- A signed word with the other sign. The lowest has none. -/
def neg (word : BitVec 64) : Except Trap (BitVec 64) :=
  if word = BitVec.intMin 64 then .error .overflow else .ok (-word)

/-- One byte of a row. -/
def byte (row : List UInt8) (index : Nat) : Except Trap UInt8 :=
  match row[index]? with
  | some b => .ok b
  | none => .error .outOfBounds

/-- The bytes of a row from `first` on, up to `stop`. -/
def slice (row : List UInt8) (first stop : Nat) : Except Trap (List UInt8) :=
  if first ≤ stop ∧ stop ≤ row.length then .ok ((row.take stop).drop first)
  else .error .outOfBounds

/-- A row copied to a place of `size` bytes. -/
def copy (size : Nat) (row : List UInt8) : Except Trap (List UInt8) :=
  if row.length = size then .ok row else .error .lengthMismatch

/-- The pieces of `size` bytes that a row has, from the left. -/
def windows (size : Nat) (row : List UInt8) : Except Trap (List (List UInt8)) :=
  if size = 0 then .error .emptyWindow
  else .ok ((List.range (row.length + 1 - size)).map fun i => (row.drop i).take size)

end Checked

/-! ## Numbers -/

/-- **The number that a row of bytes spells**, by the length of the row. -/
def ByteOrder.get (order : ByteOrder) (row : List UInt8) : Except Trap (BitVec 64) :=
  match row.length, order with
  | 1, _ => do
    let a ← Checked.byte row 0
    return .ofNat 64 a.toNat
  | 2, .bigEndian => do
    let a ← Checked.byte row 0
    let b ← Checked.byte row 1
    return .ofNat 64 (Digits.toNat [b, a])
  | 2, .littleEndian => do
    let a ← Checked.byte row 0
    let b ← Checked.byte row 1
    return .ofNat 64 (Digits.toNat [a, b])
  | 4, order => do
    let a ← Checked.byte row 0
    let b ← Checked.byte row 1
    let c ← Checked.byte row 2
    let d ← Checked.byte row 3
    return .ofNat 64 (Digits.toNat (order.arrange [a, b, c, d]))
  | 8, order => do
    let bytes ← Checked.copy 8 row
    return .ofNat 64 (Digits.toNat (order.arrange bytes))
  | size, _ => .error (.unknownWidth size)

namespace Varint

/-- Reads on in a number of variable length, of which `value` are the lower `shift` bits
and `index` bytes are read. Gives the number and how many bytes it has. -/
def getFrom (value : BitVec 64) (shift index : Nat) :
    List UInt8 → Except Trap (Except Failure (BitVec 64 × Nat))
  | [] => .ok (.error .truncated)
  | b :: rest => do
    let next ← Checked.add wordLimit index 1
    if index = maxLength - 1 ∧ 1 < b then
      return .error .overflow
    if b < 128 then
      let group ← Checked.shiftLeft (.ofNat 64 b.toNat) shift
      return .ok (value ||| group, next)
    let group ← Checked.shiftLeft (.ofNat 64 (b &&& 127).toNat) shift
    getFrom (value ||| group) (← Checked.add (1 <<< 32) shift 7) next rest

/-- **Reads one number of variable length** from the front of a row. -/
def get (row : List UInt8) : Except Trap (Except Failure (BitVec 64 × Nat)) :=
  getFrom 0 0 0 row

/-- Unfolds a number that was folded to keep numbers near zero short. -/
def unfold (word : BitVec 64) : Except Trap Int := do
  let sign ← Checked.neg (word &&& 1)
  return ((word >>> 1) ^^^ sign).toInt

end Varint

/-! ## The cursor -/

/-- **A decoder as the machine has it.** -/
structure Cursor where
  /-- All of the input. -/
  buf : List UInt8
  /-- The number of bytes that have been read. -/
  pos : Nat
  /-- The byte order in force. -/
  order : ByteOrder
  /-- The byte order at the start of an input. -/
  initialOrder : ByteOrder
  /-- The first fault. -/
  error : Option Fault
  /-- Whether an arena takes the copies. -/
  attached : Bool
  deriving DecidableEq

namespace Cursor

/-- The decoder that a cursor stands for. -/
def decoder (c : Cursor) : Decoder where
  rest := c.buf.drop c.pos
  order := c.order
  initialOrder := c.initialOrder
  error := c.error
  attached := c.attached

/-- A cursor at the start of an input. -/
def start (order : ByteOrder) (input : List UInt8) : Cursor :=
  { buf := input, pos := 0, order, initialOrder := order, error := none, attached := false }

/-- Goes on with another input. An attached arena stays attached. -/
def reset (c : Cursor) (input : List UInt8) : Cursor :=
  { c with buf := input, pos := 0, order := c.initialOrder, error := none }

/-- Keeps a fault, unless one is kept already. -/
def fail (c : Cursor) (fault : Fault) : Cursor :=
  match c.error with
  | some _ => c
  | none => { c with error := some fault }

/-- Whether there are unread bytes. -/
def remaining (c : Cursor) : Bool :=
  decide (c.pos < c.buf.length)

/-- The number of unread bytes. -/
def length (c : Cursor) : Except Trap Nat :=
  Checked.sub c.buf.length c.pos

/-- The next `count` bytes. -/
def take (c : Cursor) (count : Nat) : Except Trap (Option (List UInt8) × Cursor) :=
  match c.error with
  | some _ => .ok (none, c)
  | none => do
    let left ← c.length
    if left < count then
      return (none, c.fail .bufferTooShort)
    let stop ← Checked.add wordLimit c.pos count
    let row ← Checked.slice c.buf c.pos stop
    return (some row, { c with pos := stop })

/-- The number in the next `size` bytes, zero if there are fewer. -/
def fixed (c : Cursor) (size : Nat) : Except Trap (BitVec 64 × Cursor) := do
  match ← c.take size with
  | (some row, next) => return (← c.order.get row, next)
  | (none, next) => return (0, next)

/-- The next unsigned number of a width. -/
def unsigned (c : Cursor) (w : Width) : Except Trap (BitVec w.bits × Cursor) := do
  let (word, next) ← c.fixed w.bytes
  return (word.setWidth w.bits, next)

/-- Whether a count of bytes is a width. -/
def isWidth : Nat → Bool
  | 1 | 2 | 4 | 8 => true
  | _ => false

/-- The next signed number of `size` bytes. -/
def signedIn (c : Cursor) (size : Nat) : Except Trap (Int × Cursor) :=
  match c.error with
  | some _ => .ok (0, c)
  | none =>
    if isWidth size then
      match size with
      | 1 => return (← c.unsigned .one).map BitVec.toInt id
      | 2 => return (← c.unsigned .two).map BitVec.toInt id
      | 4 => return (← c.unsigned .four).map BitVec.toInt id
      | _ => return (← c.unsigned .eight).map BitVec.toInt id
    else .ok (0, c.fail (.invalidSize size))

/-- The next unsigned number of `size` bytes. -/
def unsignedIn (c : Cursor) (size : Nat) : Except Trap (BitVec 64 × Cursor) :=
  match c.error with
  | some _ => .ok (0, c)
  | none => if isWidth size then c.fixed size else .ok (0, c.fail (.invalidSize size))

/-- The next number of variable length. -/
def varUnsigned (c : Cursor) : Except Trap (BitVec 64 × Cursor) :=
  match c.error with
  | some _ => .ok (0, c)
  | none => do
    let rest ← Checked.slice c.buf c.pos c.buf.length
    match ← Varint.get rest with
    | .ok (word, count) => return (word, { c with pos := ← Checked.add wordLimit c.pos count })
    | .error .truncated => return (0, c.fail .bufferTooShort)
    | .error .overflow => return (0, c.fail (.numberOverflow 8))

/-- The payload behind a length that has been read. -/
def prefixed (c : Cursor) (count : BitVec 64) : Except Trap (Option (List UInt8) × Cursor) :=
  match c.error with
  | some _ => .ok (none, c)
  | none =>
    if count.toNat < wordLimit then c.take count.toNat
    else .ok (none, c.fail .bufferTooShort)

/-- The bytes up to the first occurrence of the delimiter, which is read too. -/
def delimited (c : Cursor) (delimiter : List UInt8) : Except Trap (Option (List UInt8) × Cursor) :=
  match c.error with
  | some _ => .ok (none, c)
  | none =>
    if delimiter.isEmpty then .ok (none, c.fail .emptyDelimiter)
    else do
      let rest ← Checked.slice c.buf c.pos c.buf.length
      match (← Checked.windows delimiter.length rest).findIdx? (· == delimiter) with
      | none => return (none, c.fail .bufferTooShort)
      | some index =>
        let step ← Checked.add wordLimit index delimiter.length
        let stop ← Checked.add wordLimit c.pos step
        return (some (← Checked.slice rest 0 index), { c with pos := stop })

/-- The next payload, found by its extent. -/
def payload (c : Cursor) : Extent → Except Trap (Option (List UInt8) × Cursor)
  | .exactly count => c.take count
  | .sized size => do
    let (count, c) ← c.unsignedIn size
    c.prefixed count
  | .counted => do
    let (count, c) ← c.varUnsigned
    c.prefixed count
  | .delimited delimiter => c.delimited delimiter
  | .rest => do c.take (← c.length)

/-- Carries out one read. -/
def read (c : Cursor) : Read → Except Trap (Reply × Cursor)
  | .skip count => do
    let (_, c) ← c.take count
    return ({ value := .nothing }, c)
  | .flag => do
    let (value, c) ← c.unsigned .one
    return ({ value := .flag (value == 1) }, c)
  | .signed width => do
    let (value, c) ← c.unsigned width
    return ({ value := .number value.toInt }, c)
  | .unsigned width => do
    let (value, c) ← c.unsigned width
    return ({ value := .number value.toNat }, c)
  | .signedIn size => do
    let (value, c) ← c.signedIn size
    return ({ value := .number value }, c)
  | .unsignedIn size => do
    let (value, c) ← c.unsignedIn size
    return ({ value := .number value.toNat }, c)
  | .float32 => do
    let (value, c) ← c.unsigned .four
    return ({ value := .float32 value }, c)
  | .float64 => do
    let (value, c) ← c.unsigned .eight
    return ({ value := .float64 value }, c)
  | .varSigned => do
    let (value, c) ← c.varUnsigned
    return ({ value := .number (← Varint.unfold value) }, c)
  | .varUnsigned => do
    let (value, c) ← c.varUnsigned
    return ({ value := .number value.toNat }, c)
  | .text extent copy => do
    match ← c.payload extent with
    | (some row, c) =>
      match text? row with
      | some s => return (c.decoder.deliver (.text s) row copy, c)
      | none => return ({ value := .text "", owned := some false }, c.fail .invalidText)
    | (none, c) => return ({ value := .text "", owned := some false }, c)
  | .bytes extent copy => do
    match ← c.payload extent with
    | (some row, c) => return (c.decoder.deliver (.bytes row) row copy, c)
    | (none, c) => return ({ value := .bytes [], owned := some false }, c)

/-- Carries out one call that does not leave, or gives the outcome of one that does. -/
def call (c : Cursor) : ReadCall → Except Trap (Except (Except Failure Unit) (Reply × Cursor))
  | .read read => do return .ok (← c.read read)
  | .setOrder order => return .ok ({ value := .order order }, { c with order })
  | .askOrder => return .ok ({ value := .order c.order }, c)
  | .askRemaining => return .ok ({ value := .flag c.remaining }, c)
  | .reset input => return .ok ({ value := .nothing }, c.reset input)
  | .attach => return .ok ({ value := .nothing }, { c with attached := true })
  | .fail text => return .error (.error (.own text))
  | .check =>
    match c.error with
    | some fault => return .error (.error (.fault fault))
    | none => return .ok ({ value := .nothing }, c)
  | .stop => return .error (.ok ())

end Cursor

/-- **One completed call**, with the cursor in front of it and behind it. -/
structure Step where
  call : ReadCall
  before : Cursor
  reply : Reply
  after : Cursor
  /-- The number of unread bytes, which the caller asks for. -/
  left : Nat

/-- What is seen of a step. -/
def Step.sight (step : Step) : Sight :=
  ⟨step.reply, step.left, step.after.error⟩

/-- The bytes of the input that a step goes past. -/
def Step.consumed (step : Step) : List UInt8 :=
  (step.before.buf.drop step.before.pos).take (step.after.pos - step.before.pos)

/-- **A row of calls that has been carried out.** -/
structure Trail where
  steps : List Step
  /-- The cursor at the end. -/
  cursor : Cursor
  /-- The outcome that the caller hands on. -/
  outcome : Except Failure Unit

/-- The reading that a trail stands for. -/
def Trail.reading (trail : Trail) : Reading :=
  ⟨trail.steps.map Step.sight, trail.cursor.decoder, trail.outcome⟩

/-- Makes calls in turn until one leaves. -/
def Cursor.calls (c : Cursor) : List ReadCall → Except Trap Trail
  | [] => return ⟨[], c, .ok ()⟩
  | call :: calls => do
    match ← c.call call with
    | .error outcome => return ⟨[], c, outcome⟩
    | .ok (reply, next) =>
      let left ← next.length
      let trail ← next.calls calls
      return { trail with steps := ⟨call, c, reply, next, left⟩ :: trail.steps }

end Wirepool
