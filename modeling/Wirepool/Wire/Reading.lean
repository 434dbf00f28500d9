import Wirepool.Wire.Decoder
import Wirepool.Wire.Script

/-!
# Readings: what a caller does with a decoder

A caller reads a message by a row of calls on a decoder. Besides reads there
are questions about the decoder, changes of its state, and the same ways of
leaving as for scripts.
-/

namespace Wirepool

/-- **One call of a caller on a decoder.** -/
inductive ReadCall where
  /-- Takes a value. -/
  | read (read : Read)
  /-- Puts another byte order in force. -/
  | setOrder (order : ByteOrder)
  /-- Asks for the byte order in force. -/
  | askOrder
  /-- Asks whether there are unread bytes. -/
  | askRemaining
  /-- Goes on with another input. -/
  | reset (input : List UInt8)
  /-- Lets an arena take the copies from now on. -/
  | attach
  /-- Leaves with a failure of the caller's own. -/
  | fail (text : String)
  /-- Leaves with the kept fault, if there is one. -/
  | check
  /-- Leaves without a failure. -/
  | stop
  deriving DecidableEq

/-- Carries out one call that does not leave, or gives the outcome of one that
does. -/
def Decoder.call (d : Decoder) : ReadCall → Except (Except Failure Unit) (Reply × Decoder)
  | .read read => .ok (d.read read)
  | .setOrder order => .ok ({ value := .order order }, d.setOrder order)
  | .askOrder => .ok ({ value := .order d.order }, d)
  | .askRemaining => .ok ({ value := .flag !d.rest.isEmpty }, d)
  | .reset input => .ok ({ value := .nothing }, d.reset input)
  | .attach => .ok ({ value := .nothing }, { d with attached := true })
  | .fail text => .error (.error (.own text))
  | .check =>
    match d.error with
    | some fault => .error (.error (.fault fault))
    | none => .ok ({ value := .nothing }, d)
  | .stop => .error (.ok ())

/-- **What is seen of one completed call.** -/
structure Sight where
  reply : Reply
  /-- The number of unread bytes after it. -/
  left : Nat
  /-- The kept fault after it. -/
  error : Option Fault
  deriving DecidableEq

/-- **A row of calls that has been carried out.** -/
structure Reading where
  sights : List Sight
  /-- The decoder at the end. -/
  decoder : Decoder
  /-- The outcome that the caller hands on. -/
  outcome : Except Failure Unit

/-- Makes calls in turn until one leaves. -/
def Decoder.calls (d : Decoder) : List ReadCall → Reading
  | [] => ⟨[], d, .ok ()⟩
  | call :: calls =>
    match d.call call with
    | .error outcome => ⟨[], d, outcome⟩
    | .ok (reply, d) =>
      let reading := d.calls calls
      { reading with sights := ⟨reply, d.rest.length, d.error⟩ :: reading.sights }

/-- The bytes that a reading asks an arena to copy, in turn. -/
def Reading.toArena (reading : Reading) : List (List UInt8) :=
  reading.sights.filterMap fun sight => sight.reply.toArena

/-- **Decodes an input to its end.** The caller's own outcome counts first,
unless the caller keeps it to itself; then the kept fault; then whether all of
the input was read. -/
def decode (order : ByteOrder) (input : List UInt8) (calls : List ReadCall)
    (fallible : Bool := true) : Reading × Except Failure Unit :=
  let reading := (Decoder.start order input).calls calls
  match reading.outcome, fallible with
  | .error failure, true => (reading, .error failure)
  | _, _ => (reading, reading.decoder.finish.mapError .fault)

end Wirepool
