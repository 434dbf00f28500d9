import Wirepool.Arena
import Wirepool.Wire.Reading
import Wirepool.Wire.TwoPass

/-!
# Messages in borrowed memory

Where a message is to stand decides what becomes of its memory when the writing
pass fails. A loan of its own is given back at once. A slice of an arena cannot
be given back, so it stays with the arena until that is reset or released.
Nothing is borrowed for a message that cannot even be measured.
-/

namespace Wirepool

/-- Memory of a given length: from a pool, or from the system if there is
none. -/
def Store.obtain (home : Option Nat) (len : Nat) : StoreM Loan :=
  match home with
  | some home => Store.borrow home len false
  | none => fun s =>
    match Block.allocate len with
    | .ok block => .ok (.unpooled block) s
    | .error abort => .error abort s

namespace Script

/-- **Encodes into memory of its own**, from the pool if there is one. -/
def encode (script : Script) (order : ByteOrder) (home : Option Nat) : StoreM (Encoded Loan) := do
  let measured := script.measure order
  match measured.length with
  | .error failure => return ⟨measured.marks, none, .error failure⟩
  | .ok length =>
    let memory ← Store.obtain home length
    let filled := script.fill order memory.view
    let message := memory.write 0 filled.destination
    match filled.outcome with
    | .ok () => return ⟨measured.marks, some filled.marks, .ok message⟩
    | .error failure =>
      modify fun s => s.tell (.abandoned length)
      Store.release message
      return ⟨measured.marks, some filled.marks, .error failure⟩

/-- **Encodes into a slice of an arena.** -/
def encodeInArena (script : Script) (order : ByteOrder) : HolderM Arena (Encoded Slice) := do
  let measured := script.measure order
  match measured.length with
  | .error failure => return ⟨measured.marks, none, .error failure⟩
  | .ok length =>
    let slice ← Arena.get length false
    HolderM.update fun a =>
      let filled := script.fill order (a.read slice 0 length)
      (⟨measured.marks, some filled.marks, filled.outcome.map fun () => slice⟩,
        a.write slice filled.destination)

end Script

/-- **Makes the copies that a reading asks an arena for**, in turn. If one of
them cannot be made, the reading is not seen at all. -/
def Reading.copyOut (reading : Reading) : HolderM Arena Unit :=
  reading.toArena.forM fun row => discard (Arena.copy row)

/-! ## A single message

A message by itself is encoded with a fresh pool, and its memory is given back
once it has been looked at. -/

/-- **What ends a message early**: its caller, a fault or an abort. -/
inductive Ending where
  | failed (failure : Failure)
  | aborted (abort : Abort)
  deriving DecidableEq

/-- **What is seen of a single message.** -/
structure Single (α : Type) where
  counting : List Mark
  writing : Option (List Mark)
  result : Except Ending α
  /-- The pool when all memory is given back. -/
  pool : Pool

/-- A store with one fresh pool, which has the number zero. -/
def Store.single : Store := { pools := [{}] }

namespace Single

/-- What is seen of an encoder's answer when the pool is left as given. -/
def ofEncoded {α : Type} (encoded : Encoded α) (pool : Pool) : Single α :=
  ⟨encoded.counting, encoded.writing, encoded.result.mapError .failed, pool⟩

/-- What is seen if the memory cannot be had: the measuring was done by then. -/
def ofAbort {α : Type} (script : Script) (order : ByteOrder) (abort : Abort) (pool : Pool) :
    Single α :=
  ⟨(script.measure order).marks, none, .error (.aborted abort), pool⟩

/-- A message in memory of its own. -/
def encode (script : Script) (order : ByteOrder) (pooled : Bool) : Single Loan :=
  match script.encode order (if pooled then some 0 else none) Store.single with
  | .error abort s => ofAbort script order abort (s.pool 0)
  | .ok encoded s =>
    let s := match encoded.result with
      | .ok loan => s.after (Store.release loan)
      | .error _ => s
    ofEncoded encoded (s.pool 0)

/-- A message in memory of the caller, with that memory afterwards. -/
def encodeInto (script : Script) (order : ByteOrder) (memory : List UInt8) :
    Single Nat × List UInt8 :=
  let (encoded, memory) := script.encodeInto order memory
  (ofEncoded encoded {}, memory)

/-- A message in a fresh arena: its bytes, and the arena before it is
released. -/
def encodeInArena (script : Script) (order : ByteOrder) (fragment : Nat) :
    Single (List UInt8) × Arena :=
  match script.encodeInArena order (.new 0 fragment, Store.single) with
  | .error abort (arena, s) =>
    (ofAbort script order abort ((s.after arena.release).pool 0), arena)
  | .ok encoded (arena, s) =>
    let bytes : Encoded (List UInt8) :=
      { encoded with result := encoded.result.map fun slice => arena.read slice 0 slice.length }
    (ofEncoded bytes ((s.after arena.release).pool 0), arena)

end Single

/-- **What a fresh arena behind a reading shows**: the arena before it is
released, and the pool afterwards. -/
def Reading.withArena (reading : Reading) (fragment : Nat) : Except Abort (Arena × Pool) :=
  match reading.copyOut (.new 0 fragment, Store.single) with
  | .ok () (arena, s) => .ok (arena, (s.after arena.release).pool 0)
  | .error abort _ => .error abort

end Wirepool
