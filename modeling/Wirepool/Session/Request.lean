import Wirepool.Buffer.Stream
import Wirepool.Session.Answer

/-!
# Requests to a buffer

What is asked of one buffer is an action on that buffer and the store behind it.
A request through the interface of byte streams differs in two things: nothing
to read is no fault, and other faults come under the classes of streams.

A reader brings memory of its own. To tell whether a read has left the rest of
that memory alone, all of it holds one mark beforehand.
-/

namespace Wirepool

namespace BufferRequest

/-- What the memory of a reader holds before it reads. -/
def readerMark : UInt8 := 0xA5

/-- The memory of a reader. -/
def readerMemory (limit : Nat) : List UInt8 := List.replicate limit readerMark

/-- The reply to a read into the memory of a reader. -/
def readReply (count : Nat) (memory : List UInt8) : BufferReply :=
  .data (memory.take count) ((memory.drop count).all fun value => value = readerMark)

/-- A fault as the asker sees it. -/
def failed (stream : Bool) (fault : Fault) : BufferOutcome :=
  if stream then .streamFault fault else .fault fault

/-- The outcome of a write. -/
def wrote (stream : Bool) : Except Fault Nat → BufferOutcome
  | .ok count => .reply (.count count)
  | .error fault => failed stream fault

/-- The outcome of a read. -/
def haveRead (stream : Bool) : Except Fault (Nat × List UInt8) → BufferOutcome
  | .ok (count, memory) => .reply (readReply count memory)
  | .error fault => failed stream fault

/-- The outcome of a read to the end. -/
def haveReadAll : Except Fault (List UInt8) → BufferOutcome
  | .ok row => .reply (.all row)
  | .error fault => .streamFault fault

/-- The outcome of a seek. -/
def sought (stream : Bool) : Except Fault Nat → BufferOutcome
  | .ok position => .reply (.position position)
  | .error fault => failed stream fault

/-- **Carries out a request.** -/
def run : BufferRequest → HolderM Buffer BufferOutcome
  | .write row stream => wrote stream <$> Buffer.write row
  | .writeAt row offset => wrote false <$> Buffer.writeAt row offset
  | .read limit false =>
    haveRead false <$> HolderM.update fun b => b.read (readerMemory limit)
  | .read limit true =>
    haveRead true <$> HolderM.update fun b => b.streamRead (readerMemory limit)
  | .readAt limit offset =>
    HolderM.update fun b => (haveRead false (b.readInto offset (readerMemory limit)), b)
  | .readAll => haveReadAll <$> HolderM.update Buffer.streamReadAll
  | .seek origin delta stream => sought stream <$> HolderM.update fun b => b.seek origin delta
  | .flush => return .reply (.count 0)
  | .range offset count =>
    HolderM.update fun b => (.reply (.parts (Chunks.locate 0 (b.range offset count))), b)

end BufferRequest

end Wirepool
