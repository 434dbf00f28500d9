import Wirepool.Message
import Wirepool.Settings

/-!
# Commands

What can be asked of a session, by the kind of thing that is asked. Things have
names, and each kind of thing has names of its own. A command that makes a
thing says under which name it is to stand.
-/

namespace Wirepool

/-- **A stretch of visible memory**, from one position up to another. Without
the first it starts in front, without the second it goes to the end, and both
are cut off at the end. -/
structure Stretch where
  start : Option Nat := none
  stop : Option Nat := none

namespace Stretch

/-- Where the stretch starts in memory of a given length. -/
def offset (s : Stretch) (len : Nat) : Nat := min (s.start.getD 0) len

/-- How long it is in memory of a given length. -/
def count (s : Stretch) (len : Nat) : Nat := min (s.stop.getD len) len - s.offset len

end Stretch

/-- What can be asked of pools. -/
inductive PoolCommand where
  /-- Makes a pool. -/
  | make (name : String)
  /-- Names the pool that everybody shares. -/
  | shared (name : String)
  /-- Gives a pool another name. -/
  | clone (pool name : String)
  /-- Forgets a name. -/
  | forget (pool : String)
  /-- Asks whether two names are of one pool. -/
  | same (first second : String)
  /-- Asks for all figures. -/
  | figures (pool : String)
  /-- Asks for the figures of the class with pages of the given size. -/
  | classFigures (pool : String) (capacity : Nat)
  /-- Borrows memory. -/
  | borrow (pool : String) (len : Nat) (zero : Bool) (name : String)
  /-- Borrows memory for the given parts, one behind another. -/
  | concat (pool : String) (parts : List (List UInt8)) (name : String)

/-- What can be asked of loans. -/
inductive LoanCommand where
  /-- Makes a loan of nothing. -/
  | idle (name : String)
  | info (loan : String)
  | fill (loan : String) (value : UInt8) (stretch : Stretch)
  | dump (loan : String) (stretch : Stretch)
  | runs (loan : String) (stretch : Stretch)
  /-- Gives the memory back. -/
  | release (loan : String)
  /-- Loses the memory. -/
  | drop (loan : String)
  /-- Keeps a ticket only. -/
  | detach (loan name : String)

/-- What can be asked of tickets. -/
inductive TicketCommand where
  /-- Makes a ticket for nothing. -/
  | idle (name : String)
  | info (ticket : String)
  | clone (ticket name : String)
  /-- Hands the ticket in. -/
  | redeem (ticket : String)
  /-- Throws the ticket away. -/
  | discard (ticket : String)

/-- What can be asked of arenas and their slices. -/
inductive ArenaCommand where
  /-- Makes an arena, through checked settings or as it is. -/
  | make (pool : String) (size : Nat) (checked : Bool) (name : String)
  | info (arena : String)
  | get (arena : String) (len : Nat) (zero : Bool) (name : Option String)
  | copy (arena : String) (row : List UInt8) (name : Option String)
  | fill (slice : String) (value : UInt8)
  | dump (slice : String) (stretch : Stretch)
  | runs (slice : String) (stretch : Stretch)
  | reset (arena : String)
  | release (arena : String)
  | drop (arena : String)

/-- Where the bytes to be decoded are. -/
inductive Source where
  | loan (name : String)
  | slice (name : String)
  | bytes (row : List UInt8)

/-- What can be asked of encoders and decoders. -/
inductive MessageCommand where
  /-- Encodes into memory of its own. -/
  | encode (pool : Option String) (order : ByteOrder) (script : Script) (name : String)
  /-- Encodes into a slice. -/
  | encodeInArena (arena : String) (order : ByteOrder) (script : Script) (name : Option String)
  /-- Decodes, with an arena that can be attached. -/
  | decode (source : Source) (arena : Option String) (order : ByteOrder)
    (calls : List ReadCall) (fallible : Bool)

/-- What can be asked of one buffer. `stream` is whether it is asked through the
interface of byte streams. -/
inductive BufferRequest where
  | write (row : List UInt8) (stream : Bool)
  | writeAt (row : List UInt8) (offset : Nat)
  | read (limit : Nat) (stream : Bool)
  | readAt (limit offset : Nat)
  /-- Reads everything from the cursor on. -/
  | readAll
  | seek (origin : Origin) (delta : Int) (stream : Bool)
  /-- Sees to it that nothing is held back, which nothing ever is. -/
  | flush
  | range (offset count : Nat)

/-- What can be asked of buffers. -/
inductive BufferCommand where
  /-- Makes a buffer, through checked settings or as it is. -/
  | make (pool : String) (chunkSize : Nat) (checked : Bool) (name : String)
  | info (buffer : String)
  | release (buffer : String)
  | drop (buffer : String)
  | request (buffer : String) (request : BufferRequest)

/-- What can be asked of the watch. -/
inductive WatchCommand where
  /-- Installs a tracker in place of the one before, or removes that. -/
  | install (tracker : Option Tracker)
  /-- Switches tracing. -/
  | trace (on : Bool)
  /-- Asks for a line about the thing with the name, of whatever kind. -/
  | describe (name : String)

/-- Installs or removes a tracker where there is only one. -/
def WatchCommand.track (on : Bool) : WatchCommand := .install (if on then some {} else none)

/-- **What can be asked of a session.** -/
inductive Command where
  | pool (command : PoolCommand)
  | loan (command : LoanCommand)
  | ticket (command : TicketCommand)
  | arena (command : ArenaCommand)
  | message (command : MessageCommand)
  | buffer (command : BufferCommand)
  | watch (command : WatchCommand)

end Wirepool
