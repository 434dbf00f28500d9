import Wirepool.Memory.Limits
import Wirepool.Wire.Field

/-!
# The encoder

An encoder takes fields one by one. It runs in one of two modes: a *counting*
encoder only adds up lengths, and a *writing* encoder fills a destination of
fixed length from the front. Both take the same steps and find the same
faults, so the length that the first one finds is the length that the second
one needs.

The first fault is kept. From then on fields are ignored, while a change of the
byte order still takes effect; `rewind` starts afresh.
-/

namespace Wirepool

/-- **Where an encoder's bytes go.** -/
inductive Sink where
  /-- Nowhere: only their number matters. -/
  | counting
  /-- Into a destination. `done` is the part that is written and `rest` the
  part behind it, which still holds what it held before. -/
  | writing (done rest : List UInt8)
  deriving DecidableEq

/-- **An encoder in the middle of a message.** -/
structure Encoder where
  /-- Where the bytes go. -/
  sink : Sink
  /-- The number of bytes of the message so far. -/
  length : Nat
  /-- The byte order in force. -/
  order : ByteOrder
  /-- The byte order at the start of a message. -/
  initialOrder : ByteOrder
  /-- The first fault. -/
  error : Option Fault
  deriving DecidableEq

namespace Encoder

/-- A counting encoder. -/
def counter (order : ByteOrder) : Encoder :=
  { sink := .counting, length := 0, order, initialOrder := order, error := none }

/-- An encoder that writes into the given destination. -/
def writer (order : ByteOrder) (destination : List UInt8) : Encoder :=
  { sink := .writing [] destination, length := 0, order, initialOrder := order, error := none }

/-- Starts afresh on a new destination, in the order of the start. -/
def rewind (e : Encoder) (destination : List UInt8) : Encoder :=
  writer e.initialOrder destination

/-- Whether the bytes are only counted. -/
def isCounting (e : Encoder) : Bool :=
  match e.sink with
  | .counting => true
  | .writing _ _ => false

/-- The destination as it is now, empty for a counting encoder. -/
def destination (e : Encoder) : List UInt8 :=
  match e.sink with
  | .counting => []
  | .writing done rest => done ++ rest

/-- Keeps a fault, unless one is kept already. -/
def fail (e : Encoder) (fault : Fault) : Encoder :=
  match e.error with
  | some _ => e
  | none => { e with error := some fault }

/-- **Takes one piece.** A piece is refused as a whole, either because the
message would get longer than any destination can be or because what is left of
this destination is shorter than the piece. -/
def take (e : Encoder) (piece : Piece) : Encoder :=
  match e.error with
  | some _ => e
  | none =>
    if wordLimit ≤ e.length + piece.length then e.fail .bufferTooShort
    else
      match e.sink with
      | .counting => { e with length := e.length + piece.length }
      | .writing done rest =>
        if rest.length < piece.length then e.fail .bufferTooShort
        else
          { e with
            length := e.length + piece.length
            sink := .writing (done ++ piece.bytes) (rest.drop piece.length) }

/-- **Takes one field**: all its pieces in turn, or its fault. -/
def put (e : Encoder) (field : Field) : Encoder :=
  match e.error with
  | some _ => e
  | none =>
    match field.pieces e.order with
    | .ok pieces => pieces.foldl take e
    | .error fault => e.fail fault

/-- Puts another byte order in force for the fields that follow. -/
def setOrder (e : Encoder) (order : ByteOrder) : Encoder :=
  { e with order }

/-- The fault at the end of a message that is to have `expected` bytes: the
kept one, or that the message is shorter or longer than that. -/
def finish (e : Encoder) (expected : Nat) : Except Fault Unit :=
  match e.error with
  | some fault => .error fault
  | none => if e.length = expected then .ok () else .error .remainingBytes

end Encoder

end Wirepool
