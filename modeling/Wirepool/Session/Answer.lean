import Wirepool.Session.Command

/-!
# Answers

What a session answers, as data. How an answer is written down is up to whoever
asked.
-/

namespace Wirepool

/-- **What is told of a loan.** -/
structure LoanInfo where
  len : Nat
  capacity : Nat
  generation : Nat
  pooled : Bool
  deriving DecidableEq, Repr

/-- What is told of a loan. -/
def Loan.info (loan : Loan) : LoanInfo :=
  ⟨loan.len, loan.capacity, loan.generation, loan.isPooled⟩

/-- **What is told of a ticket.** -/
structure TicketInfo where
  idle : Bool
  generation : Nat
  deriving DecidableEq, Repr

/-- What is told of a ticket. -/
def Ticket.info : Ticket → TicketInfo
  | idle => ⟨true, 0⟩
  | page _ _ generation => ⟨false, generation⟩

/-- **What is told of an arena.** -/
structure ArenaInfo where
  size : Nat
  length : Nat
  chunks : Nat
  deriving DecidableEq, Repr

/-- What is told of an arena. -/
def Arena.info (a : Arena) : ArenaInfo := ⟨a.size, a.length, a.chunks.length⟩

/-- **What is told of a buffer.** -/
structure BufferInfo where
  chunkSize : Nat
  length : Nat
  chunks : Nat
  position : Nat
  deriving DecidableEq, Repr

/-- What is told of a buffer. -/
def Buffer.info (b : Buffer) : BufferInfo := ⟨b.chunkSize, b.length, b.chunks.length, b.offset⟩

/-- **What a buffer gives.** -/
inductive BufferReply where
  /-- A number of bytes written. -/
  | count (n : Nat)
  /-- Bytes read, and whether the rest of the reader's memory is as it was. -/
  | data (row : List UInt8) (untouched : Bool)
  /-- All bytes read. -/
  | all (row : List UInt8)
  /-- A position. -/
  | position (offset : Nat)
  /-- The parts of a window, with their places in it. -/
  | parts (parts : List (Nat × Chunks.Part))

/-- **How a request to a buffer ends.** -/
inductive BufferOutcome where
  | reply (reply : BufferReply)
  | fault (fault : Fault)
  /-- A fault that surfaces through a byte stream. -/
  | streamFault (fault : Fault)
  | aborted (abort : Abort)

/-- **What a session answers.** -/
inductive Answer where
  | done
  | flag (value : Bool)
  | loan (info : LoanInfo)
  | figures (pool : Pool)
  | classFigures (figures : Option Pool.ClassFigures)
  | bytes (row : List UInt8)
  | runs (runs : List (UInt8 × Nat))
  | ticket (info : TicketInfo)
  | arena (info : ArenaInfo)
  | slice (length : Nat) (arena : ArenaInfo)
  | encoded (encoded : Encoded (LoanInfo × List UInt8))
  | encodedInArena (encoded : Encoded (List UInt8)) (arena : ArenaInfo)
  | decoded (sights : List Sight) (result : Except Failure Unit) (arena : Option ArenaInfo)
  | buffer (info : BufferInfo)
  | request (outcome : BufferOutcome) (buffer : BufferInfo)
  | line (text : String)
  | fault (fault : Fault)
  | aborted (abort : Abort)
  /-- The command names something that is not there. -/
  | misuse

end Wirepool
