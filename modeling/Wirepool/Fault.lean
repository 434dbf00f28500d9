/-!
# Faults and aborts

Two kinds of failure are told apart. A **fault** is a value: the operation
hands it back and the caller decides what to do with it. Encoders and decoders
even keep their first fault and go on in silence, so that a row of calls needs
one check at its end. An **abort** ends the operation on the spot, because
going on would let two holders share one piece of memory or would ask the
system for more memory than an address can reach.

The wording of both is fixed here and nowhere else.
-/

namespace Wirepool

/-- **What can go wrong and be handed back.** -/
inductive Fault where
  /-- The destination or the input ended before the operation did. -/
  | bufferTooShort
  /-- The operation ended before the destination or the input did. -/
  | remainingBytes
  /-- An integer was asked for in a number of bytes that is not 1, 2, 4 or 8. -/
  | invalidSize (size : Nat)
  /-- A value does not fit into the given number of bytes. -/
  | numberOverflow (size : Nat)
  /-- A delimited field was asked for with a delimiter of no bytes. -/
  | emptyDelimiter
  /-- A position is negative or too large to be one. -/
  | invalidOffset
  /-- A read started at the end of the data or behind it. -/
  | endOfData
  /-- The bytes of a text field are not well-formed UTF-8. -/
  | invalidText
  /-- A setting has a value that nothing can be built from. -/
  | invalidSetting (field reason : String)
  deriving DecidableEq, Repr, Inhabited

/-- The text shown to people. -/
def Fault.message : Fault → String
  | .bufferTooShort => "buffer too short"
  | .remainingBytes => "remaining bytes"
  | .invalidSize size => "invalid size: " ++ Nat.repr size
  | .numberOverflow size =>
    "number overflow: value does not fit into " ++ Nat.repr size ++ " byte(s)"
  | .emptyDelimiter => "empty delimiter"
  | .invalidOffset => "invalid offset"
  | .endOfData => "end of data"
  | .invalidText => "invalid utf-8"
  | .invalidSetting field reason => "invalid config `" ++ field ++ "`: " ++ reason

/-- **How a byte stream classes its failures**: the reader asked for something
that cannot be, the data ended early, or the data is wrong. -/
inductive StreamFailure where
  | invalidInput
  | unexpectedEnd
  | invalidData
  deriving DecidableEq, Repr

/-- The class of a fault that surfaces through a byte stream. -/
def Fault.streamFailure : Fault → StreamFailure
  | .endOfData | .bufferTooShort => .unexpectedEnd
  | .invalidOffset | .invalidSize _ | .invalidSetting _ _ => .invalidInput
  | .remainingBytes | .numberOverflow _ | .emptyDelimiter | .invalidText => .invalidData

/-- **What ends an operation on the spot.** -/
inductive Abort where
  /-- A loan was given back that had been given back before. -/
  | generationMismatch
  /-- A chunked buffer was asked for with chunks of no bytes. -/
  | emptyChunk
  /-- More memory was asked for than an address can reach. -/
  | capacityOverflow
  /-- A count of bytes would have left the numbers of the machine. -/
  | lengthOverflow
  deriving DecidableEq, Repr

/-- The text shown to people. -/
def Abort.message : Abort → String
  | .generationMismatch => "fpack: generation mismatch"
  | .emptyChunk => "buffer chunk size must be non-zero"
  | .capacityOverflow => "capacity overflow"
  | .lengthOverflow => "attempt to add with overflow"

end Wirepool
