import Wirepool.Arena
import Wirepool.Buffer
import Wirepool.Json.Document
import Wirepool.Wire.Decoder

/-!
# Settings

The sizes, the byte order and the diagnostics switch that an application
chooses once. Settings own nothing: they are checked, and arenas and buffers
are made from them.

Settings are read from a JSON document: an object with some of the four names
below, or an array with some of the four values from the first one on. What is
missing has its default, and a name that is not one of the four is passed over.
A name that comes twice is refused, as is any value of the wrong kind.
-/

namespace Wirepool

/-- **The choices of an application.** -/
structure Settings where
  byteOrder : ByteOrder := .bigEndian
  /-- The length of an arena's fragments. -/
  arenaFragmentSize : Nat := 65536
  /-- The length of a buffer's chunks. -/
  bufferChunkSize : Nat := 4096
  /-- Whether it is to be known where lost loans were made. -/
  captureLeakBacktraces : Bool := false
  deriving DecidableEq, Repr

namespace Settings

/-! ## Checks -/

/-- The fault of a size that is zero. -/
def zeroSize (field : String) : Fault := .invalidSetting field "must be greater than zero"

/-- **Finds the first size from which nothing can be built.** -/
def validate (s : Settings) : Except Fault Unit :=
  if s.arenaFragmentSize = 0 then .error (zeroSize "arena-fragment-size")
  else if s.bufferChunkSize = 0 then .error (zeroSize "buffer-chunk-size")
  else .ok ()

/-- An arena of the chosen fragment size. All settings have to be right. -/
def arena (s : Settings) (home : Nat) : Except Fault Arena :=
  s.validate.map fun () => .new home s.arenaFragmentSize

/-- A buffer of the chosen chunk size. All settings have to be right. -/
def buffer (s : Settings) (home : Nat) : Except Fault Buffer :=
  s.validate.bind fun () =>
    (Buffer.new home s.bufferChunkSize).mapError fun _ => zeroSize "buffer-chunk-size"

/-- A decoder that starts in the chosen byte order. -/
def decoder (s : Settings) (input : List UInt8) : Decoder := .start s.byteOrder input

/-! ## Reading settings -/

/-- The byte order of a name. -/
def orderOfName? (name : String) : Option ByteOrder :=
  if name = "big-endian" then some .bigEndian
  else if name = "little-endian" then some .littleEndian
  else none

/-- A byte order: its name, or an object with its name alone and nothing
behind it. -/
def order? : Json → Option ByteOrder
  | .string text => text.bind orderOfName?
  | .object [(some name, .null)] => orderOfName? name
  | _ => none

/-- A size: an unsigned number of 64 bits, written without sign, fraction or
exponent. -/
def size? : Json → Option Nat
  | .number literal =>
    if literal.all Char.isDigit then
      let n := literal.foldl (fun n c => 10 * n + (c.toNat - '0'.toNat)) 0
      if n < wordLimit then some n else none
    else none
  | _ => none

/-- A truth value. -/
def switch? : Json → Option Bool
  | .boolean value => some value
  | _ => none

/-- **The four settings**, in the order in which an array gives them. -/
inductive Name where
  | byteOrder
  | arenaFragmentSize
  | bufferChunkSize
  | captureLeakBacktraces
  deriving DecidableEq, Repr

/-- All names in order. -/
def names : List Name :=
  [.byteOrder, .arenaFragmentSize, .bufferChunkSize, .captureLeakBacktraces]

/-- The name as it is written. -/
def Name.text : Name → String
  | .byteOrder => "byte-order"
  | .arenaFragmentSize => "arena-fragment-size"
  | .bufferChunkSize => "buffer-chunk-size"
  | .captureLeakBacktraces => "capture-leak-backtraces"

/-- The settings with one of them read from its value. -/
def set? (s : Settings) (value : Json) : Name → Option Settings
  | .byteOrder => (order? value).map fun byteOrder => { s with byteOrder }
  | .arenaFragmentSize => (size? value).map fun arenaFragmentSize => { s with arenaFragmentSize }
  | .bufferChunkSize => (size? value).map fun bufferChunkSize => { s with bufferChunkSize }
  | .captureLeakBacktraces =>
    (switch? value).map fun captureLeakBacktraces => { s with captureLeakBacktraces }

/-- Reads the members of an object in turn. `missing` are the names that have
not come yet. -/
def ofMembers? : (missing : List Name) → Settings → List (Option String × Json) → Option Settings
  | _, s, [] => some s
  | _, _, (none, _) :: _ => none
  | missing, s, (some key, value) :: members =>
    match names.find? fun name => name.text = key with
    | none => ofMembers? missing s members
    | some name =>
      if name ∈ missing then
        match s.set? value name with
        | some s => ofMembers? (missing.erase name) s members
        | none => none
      else none

/-- Reads the items of an array in turn. `missing` are the names that have not
come yet. -/
def ofItems? : (missing : List Name) → Settings → List Json → Option Settings
  | _, s, [] => some s
  | [], _, _ :: _ => none
  | name :: missing, s, value :: items =>
    match s.set? value name with
    | some s => ofItems? missing s items
    | none => none

/-- **Reads settings** from a document. -/
def ofJson? : Json → Option Settings
  | .object members => ofMembers? names {} members
  | .array items => ofItems? names {} items
  | _ => none

/-- Reads settings from the text of a document. -/
def parse? (text : String) : Option Settings :=
  (Json.parse? text).bind ofJson?

end Settings

end Wirepool
