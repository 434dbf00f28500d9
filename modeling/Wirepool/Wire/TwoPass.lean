import Wirepool.Wire.Script

/-!
# Two passes over one script

A message is made by running its script twice. The counting pass finds the
length, and whatever is wrong with the message before any memory is asked for.
The writing pass fills a destination of just that length. It starts again from
the initial byte order and may still fail, since nothing forces a script to do
the same twice: what it writes is accepted only if it fills the destination.
-/

namespace Wirepool

/-- **What the counting pass finds.** -/
structure Measurement where
  marks : List Mark
  /-- The length of the message, or why there is none. -/
  length : Except Failure Nat

/-- **The counting pass.** The caller's own outcome counts before the kept
fault. -/
def Script.measure (script : Script) (order : ByteOrder) : Measurement :=
  let pass := script.run (.counter order)
  let length := match pass.outcome, pass.encoder.error with
    | .error failure, _ => .error failure
    | .ok (), some fault => .error (.fault fault)
    | .ok (), none => .ok pass.encoder.length
  ⟨pass.marks, length⟩

/-- **What the writing pass leaves behind.** -/
structure Filling where
  marks : List Mark
  /-- The destination, also when the pass has failed. -/
  destination : List UInt8
  /-- Whether the message stands in the destination. -/
  outcome : Except Failure Unit

/-- **The writing pass** over a destination that is to be filled. -/
def Script.fill (script : Script) (order : ByteOrder) (destination : List UInt8) : Filling :=
  let pass := script.run (.writer order destination)
  let outcome := match pass.outcome with
    | .error failure => .error failure
    | .ok () => (pass.encoder.finish destination.length).mapError .fault
  ⟨pass.marks, pass.encoder.destination, outcome⟩

/-- **The answer of a two-pass driver**, with the marks of both passes. The
second pass has none if it never started. -/
structure Encoded (α : Type) where
  counting : List Mark
  writing : Option (List Mark)
  result : Except Failure α

/-- **Encodes into memory of the caller**, which stays as it is behind the
message. Memory that is too short is not written to at all. Gives the length of
the message and the memory afterwards. -/
def Script.encodeInto (script : Script) (order : ByteOrder) (memory : List UInt8) :
    Encoded Nat × List UInt8 :=
  let measured := script.measure order
  match measured.length with
  | .error failure => (⟨measured.marks, none, .error failure⟩, memory)
  | .ok length =>
    if memory.length < length then
      (⟨measured.marks, none, .error (.fault .bufferTooShort)⟩, memory)
    else
      let filled := script.fill order (memory.take length)
      (⟨measured.marks, some filled.marks, filled.outcome.map fun () => length⟩,
        filled.destination ++ memory.drop length)

end Wirepool
