import Wirepool.Wire.Script

/-!
# An encoder driven by hand

Without a driver nobody stops at a failure: a call that would leave a script is
noted, and the next one is made all the same. An encoder that is driven by hand
can also be moved to another destination at any time.
-/

namespace Wirepool

/-- **One action on an encoder.** -/
inductive Action where
  /-- Makes a call. -/
  | call (call : Call)
  /-- Moves on to a new destination. -/
  | rewind (destination : List UInt8)

/-- **What is seen of an encoder after an action.** -/
structure Look where
  mark : Mark
  order : ByteOrder
  counting : Bool
  /-- The failure with which the call would have left a script. -/
  returned : Option Failure

/-- The look of an encoder. -/
def Encoder.look (e : Encoder) (returned : Option Failure) : Look :=
  ⟨e.mark, e.order, e.isCounting, returned⟩

/-- The destination of an encoder, if it has one. -/
def Encoder.destination? (e : Encoder) : List (List UInt8) :=
  if e.isCounting then [] else [e.destination]

/-- **Carries out actions in turn**, and gives the look after each with the
final content of every destination, oldest first. -/
def Encoder.drive (e : Encoder) : List Action → List Look × List (List UInt8)
  | [] => ([], e.destination?)
  | .rewind destination :: actions =>
    let next := e.rewind destination
    let (looks, destinations) := next.drive actions
    (next.look none :: looks, e.destination? ++ destinations)
  | .call call :: actions =>
    let (next, verdict) := call.run e
    let returned := match verdict with
      | .leave (.error failure) => some failure
      | _ => none
    let (looks, destinations) := next.drive actions
    (next.look returned :: looks, destinations)

end Wirepool
