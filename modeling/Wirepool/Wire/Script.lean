import Wirepool.Wire.Encoder

/-!
# Scripts: what a caller does with an encoder

A caller describes a message by a row of calls on an encoder. The row is data
here, because the two-pass drivers run it twice, first counting and then
writing. A call may be restricted to one of the passes, a caller may look at
the kept fault and leave, and it may leave with a failure of its own; so the
two passes need not agree on anything.
-/

namespace Wirepool

/-- **How a caller's part in a message fails**: by its own decision or by a
fault. -/
inductive Failure where
  /-- The caller's own failure, with its text. -/
  | own (text : String)
  /-- A fault of the message. -/
  | fault (fault : Fault)
  deriving DecidableEq, Repr

/-- **One call of a caller on an encoder.** -/
inductive Call where
  /-- Adds a field. -/
  | put (field : Field)
  /-- Puts another byte order in force. -/
  | setOrder (order : ByteOrder)
  /-- Makes a call in the counting pass only. -/
  | whenCounting (call : Call)
  /-- Makes a call in the writing pass only. -/
  | whenWriting (call : Call)
  /-- Leaves with a failure of the caller's own. -/
  | fail (text : String)
  /-- Leaves with a fault of the caller's choice, kept by the encoder or not. -/
  | raise (fault : Fault)
  /-- Leaves with the kept fault, if there is one. -/
  | check
  /-- Leaves without a failure. -/
  | stop
  deriving DecidableEq

instance : Inhabited Call := ⟨.stop⟩

/-- **What a call does to the row it stands in.** -/
inductive Verdict where
  /-- The next call follows. -/
  | next
  /-- The row ends with this outcome. -/
  | leave (outcome : Except Failure Unit)

/-- Makes one call. -/
def Call.run : Call → Encoder → Encoder × Verdict
  | .put field, e => (e.put field, .next)
  | .setOrder order, e => (e.setOrder order, .next)
  | .whenCounting call, e => if e.isCounting then call.run e else (e, .next)
  | .whenWriting call, e => if e.isCounting then (e, .next) else call.run e
  | .fail text, e => (e, .leave (.error (.own text)))
  | .raise fault, e => (e, .leave (.error (.fault fault)))
  | .check, e =>
    match e.error with
    | some fault => (e, .leave (.error (.fault fault)))
    | none => (e, .next)
  | .stop, e => (e, .leave (.ok ()))

/-- What can be seen of an encoder after a call. -/
structure Mark where
  length : Nat
  error : Option Fault
  deriving DecidableEq, Repr

/-- The mark of an encoder. -/
def Encoder.mark (e : Encoder) : Mark := ⟨e.length, e.error⟩

/-- **A caller's row of calls.** -/
structure Script where
  calls : List Call
  /-- Whether the caller hands its failure on. If not, leaving only ends the
  row. -/
  fallible : Bool := true

/-- **One pass of a script.** -/
structure Pass where
  /-- The mark after each completed call. -/
  marks : List Mark
  /-- The encoder at the end. -/
  encoder : Encoder
  /-- The outcome that the caller hands on. -/
  outcome : Except Failure Unit

/-- Makes calls in turn until one leaves. -/
def runCalls : List Call → Encoder → Pass
  | [], e => ⟨[], e, .ok ()⟩
  | call :: calls, e =>
    match call.run e with
    | (e, .leave outcome) => ⟨[], e, outcome⟩
    | (e, .next) =>
      let pass := runCalls calls e
      { pass with marks := e.mark :: pass.marks }

/-- **Runs a script** on an encoder. -/
def Script.run (script : Script) (e : Encoder) : Pass :=
  let pass := runCalls script.calls e
  if script.fallible then pass else { pass with outcome := .ok () }

end Wirepool
