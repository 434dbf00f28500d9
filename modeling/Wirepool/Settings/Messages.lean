import Wirepool.Message
import Wirepool.Settings

/-!
# Messages by settings

An application that has chosen a byte order encodes and decodes by its settings. The
drivers are the ones that everybody uses; only the order in which each pass starts is the
chosen one, where it is big-endian without settings.
-/

namespace Wirepool

namespace Settings

/-- Encodes into memory of its own, from the pool if there is one. -/
def encode (s : Settings) (script : Script) (home : Option Nat) : StoreM (Encoded Loan) :=
  script.encode s.byteOrder home

/-- Encodes into memory of the caller. -/
def encodeInto (s : Settings) (script : Script) (memory : List UInt8) :
    Encoded Nat × List UInt8 :=
  script.encodeInto s.byteOrder memory

/-- Encodes into a slice of an arena. -/
def encodeInArena (s : Settings) (script : Script) : HolderM Arena (Encoded Slice) :=
  script.encodeInArena s.byteOrder

/-- Decodes an input to its end. -/
def decode (s : Settings) (input : List UInt8) (calls : List ReadCall) (fallible : Bool := true) :
    Reading × Except Failure Unit :=
  Wirepool.decode s.byteOrder input calls fallible

end Settings

end Wirepool
