import Wirepool.Proofs.Wire.Copies
import Wirepool.Proofs.Wire.Orders
import Wirepool.Settings.Messages
import Wirepool.Wire.Manual

/-!
# A chosen order is a switch in front of each pass

An application can choose the byte order of its messages once, in its settings, or each
caller can switch to it at the start. That this comes to the same is not clear from the
drivers: they keep two orders, the one in force and the one to go back to, and a switch
touches only the first. So the encoders of the two ways are never the same. But the second
order is looked at in three places only, where an encoder moves on to a destination, where
a decoder is given a new input, and nowhere else; and what a caller can see of an encoder is
its length, its fault, its mode and the order in force.

The first of the three places is the border between the passes, and there a switch in the
counting pass has no say: the writing pass starts in the chosen order, or, without settings,
big-endian and with the switch once more. The second place is where the two ways part: a
chosen order is gone back to, and one that was switched to is not.
-/

namespace Wirepool

/-- The script that first puts an order in force. -/
def Script.switchedTo (script : Script) (order : ByteOrder) : Script :=
  { script with calls := .setOrder order :: script.calls }

/-- An answer with the mark of one more call in front of each pass, in which nothing has
been added yet. -/
def Encoded.behindSwitch {α : Type} (encoded : Encoded α) : Encoded α :=
  { encoded with
    counting := ⟨0, none⟩ :: encoded.counting
    writing := encoded.writing.map (⟨0, none⟩ :: ·) }

namespace Encoder

/-- The encoder with another byte order to go back to. -/
def returningTo (e : Encoder) (order : ByteOrder) : Encoder :=
  { e with initialOrder := order }

variable (e : Encoder) (o : ByteOrder)

@[simp] theorem sink_returningTo : (e.returningTo o).sink = e.sink := rfl

@[simp] theorem length_returningTo : (e.returningTo o).length = e.length := rfl

@[simp] theorem order_returningTo : (e.returningTo o).order = e.order := rfl

@[simp] theorem error_returningTo : (e.returningTo o).error = e.error := rfl

theorem fail_returningTo (fault : Fault) :
    (e.returningTo o).fail fault = (e.fail fault).returningTo o := by
  rw [fail, fail, error_returningTo]
  split <;> rfl

theorem take_returningTo (piece : Piece) :
    (e.returningTo o).take piece = (e.take piece).returningTo o := by
  simp only [take, error_returningTo, length_returningTo, sink_returningTo, fail_returningTo]
  split
  · rfl
  · split
    · rfl
    · split
      · rfl
      · split <;> rfl

theorem foldl_take_returningTo (pieces : List Piece) :
    pieces.foldl take (e.returningTo o) = (pieces.foldl take e).returningTo o := by
  induction pieces generalizing e with
  | nil => rfl
  | cons piece pieces ih => rw [List.foldl_cons, List.foldl_cons, take_returningTo, ih]

theorem put_returningTo (field : Field) :
    (e.returningTo o).put field = (e.put field).returningTo o := by
  simp only [put, error_returningTo, order_returningTo, fail_returningTo, foldl_take_returningTo]
  split
  · rfl
  · split <;> rfl

end Encoder

/-- **A call goes the same way** on encoders that go back to different orders. -/
theorem Call.run_returningTo (call : Call) (e : Encoder) (o : ByteOrder) :
    call.run (e.returningTo o) = ((call.run e).1.returningTo o, (call.run e).2) := by
  induction call with
  | put field => exact congrArg (·, Verdict.next) (e.put_returningTo o field)
  | whenCounting call ih =>
    rw [run, run]
    show (if e.isCounting then _ else _) = _
    split
    · exact ih
    · rfl
  | whenWriting call ih =>
    rw [run, run]
    show (if e.isCounting then _ else _) = _
    split
    · rfl
    · exact ih
  | check =>
    rw [run, run, Encoder.error_returningTo]
    split <;> rfl
  | _ => rfl

/-- **So does a row of calls.** -/
theorem runCalls_returningTo (calls : List Call) (e : Encoder) (o : ByteOrder) :
    runCalls calls (e.returningTo o) =
      { runCalls calls e with encoder := (runCalls calls e).encoder.returningTo o } := by
  induction calls generalizing e with
  | nil => rfl
  | cons call calls ih =>
    rw [runCalls, runCalls, call.run_returningTo]
    rcases call.run e with ⟨next, _ | outcome⟩
    · dsimp only
      rw [ih]
      rfl
    · rfl

/-- **A row of calls shows the same of both**, whoever looks after each of them. -/
theorem Encoder.drive_returningTo (calls : List Call) (e : Encoder) (o : ByteOrder) :
    (e.returningTo o).drive (calls.map .call) = e.drive (calls.map .call) := by
  induction calls generalizing e with
  | nil => rfl
  | cons call calls ih =>
    rw [List.map_cons, drive, drive, call.run_returningTo]
    dsimp only
    rw [ih]
    rfl

/-- No row of entries changes the order to go back to. -/
theorem Encoder.initialOrder_foldl_enter (entries : List Entry) (e : Encoder) :
    (entries.foldl enter e).initialOrder = e.initialOrder := by
  induction entries generalizing e with
  | nil => rfl
  | cons entry entries ih => exact (ih _).trans (e.initialOrder_enter entry)

/-! ## Passes -/

namespace Script

variable (script : Script) (o : ByteOrder)

/-- A pass behind a switch is a pass of an encoder that starts in that order, with one mark
more. Only to which order the encoder goes back is another one. -/
theorem run_switchedTo {e chosen : Encoder} {first : ByteOrder}
    (h : e.setOrder o = chosen.returningTo first) :
    (script.switchedTo o).run e =
      { script.run chosen with
        marks := chosen.mark :: (script.run chosen).marks
        encoder := (script.run chosen).encoder.returningTo first } := by
  have hcalls : runCalls (script.switchedTo o).calls e =
      { runCalls script.calls chosen with
        marks := chosen.mark :: (runCalls script.calls chosen).marks
        encoder := (runCalls script.calls chosen).encoder.returningTo first } := by
    show { runCalls script.calls (e.setOrder o) with
      marks := (e.setOrder o).mark :: (runCalls script.calls (e.setOrder o)).marks } = _
    rw [h, runCalls_returningTo]
    rfl
  rw [run, run, hcalls]
  show (if script.fallible then _ else _) = _
  split <;> rfl

theorem measure_switchedTo (first : ByteOrder) :
    (script.switchedTo o).measure first =
      { script.measure o with marks := ⟨0, none⟩ :: (script.measure o).marks } := by
  have hstart : (Encoder.counter first).setOrder o = (Encoder.counter o).returningTo first := rfl
  rw [measure, measure, script.run_switchedTo o hstart]
  rfl

theorem fill_switchedTo (first : ByteOrder) (destination : List UInt8) :
    (script.switchedTo o).fill first destination =
      { script.fill o destination with
        marks := ⟨0, none⟩ :: (script.fill o destination).marks } := by
  have hstart : (Encoder.writer first destination).setOrder o =
      (Encoder.writer o destination).returningTo first := rfl
  rw [fill, fill, script.run_switchedTo o hstart]
  rfl

/-- **No switch of the counting pass is seen in the writing pass**, which starts in the
order in which the counting pass started. -/
theorem rewind_run (destination : List UInt8) :
    (script.run (.counter o)).encoder.rewind destination = .writer o destination := by
  rw [Encoder.rewind, encoder_run, Encoder.initialOrder_foldl_enter]
  rfl

end Script

/-! ## Drivers -/

namespace Script

variable (script : Script) (o first : ByteOrder)

theorem encodeInto_switchedTo (memory : List UInt8) :
    (script.switchedTo o).encodeInto first memory =
      ((script.encodeInto o memory).1.behindSwitch, (script.encodeInto o memory).2) := by
  rw [encodeInto, encodeInto, measure_switchedTo]
  dsimp only
  split
  · rfl
  · split
    · rfl
    · simp only [fill_switchedTo]
      rfl

theorem encode_switchedTo (home : Option Nat) :
    (script.switchedTo o).encode first home =
      Encoded.behindSwitch <$> script.encode o home := by
  rw [encode, encode, measure_switchedTo]
  dsimp only
  rcases (script.measure o).length with failure | length
  · rfl
  · simp only [fill_switchedTo, map_bind]
    refine congrArg _ (funext fun memory => ?_)
    rcases (script.fill o memory.view).outcome with failure | ⟨⟩
    · simp only [map_bind, map_pure]
      rfl
    · rfl

theorem encodeInArena_switchedTo :
    (script.switchedTo o).encodeInArena first =
      Encoded.behindSwitch <$> script.encodeInArena o := by
  rw [encodeInArena, encodeInArena, measure_switchedTo]
  dsimp only
  rcases (script.measure o).length with failure | length
  · rfl
  · simp only [fill_switchedTo, map_bind]
    refine congrArg _ (funext fun slice => funext fun s => ?_)
    rcases s with ⟨a, s⟩
    rfl

end Script

/-- What is seen of a switch at the start of an input. -/
def switchSight (order : ByteOrder) (input : List UInt8) : Sight :=
  ⟨{ value := .order order }, input.length, none⟩

/-- **A decoder that is switched first** reads what one reads that has started in that
order, as long as there is no new input. -/
theorem decode_switchedTo {calls : List ReadCall} (hcalls : ∀ input, .reset input ∉ calls)
    (o first : ByteOrder) (input : List UInt8) (fallible : Bool) :
    decode first input (.setOrder o :: calls) fallible =
      ({ (decode o input calls fallible).1 with
          sights := switchSight o input :: (decode o input calls fallible).1.sights
          decoder := (decode o input calls fallible).1.decoder.returningTo first },
        (decode o input calls fallible).2) := by
  have hswitch : (Decoder.start first input).call (.setOrder o) =
      .ok ({ value := .order o }, (Decoder.start o input).returningTo first) := rfl
  refine Prod.ext ?_ ?_
  · rw [fst_decode, fst_decode, (Decoder.calls_cons_of_ok hswitch calls).1,
      Decoder.calls_returningTo hcalls]
    rfl
  · rw [snd_decode, snd_decode, (Decoder.calls_cons_of_ok hswitch calls).1,
      Decoder.calls_returningTo hcalls]
    rfl

/-- **A chosen order is a switch in front of each pass.** To encode by settings, into memory
of its own, memory of the caller or an arena, comes to the same as to encode without them by
the script that first switches to their order: the same result, the same bytes, and the same
pools and arena, also where it is refused. The only difference is the mark of the switch.
Between the passes nothing of the switches in the first one is left, and nobody who looks at
an encoder can tell to which order it goes back.

To decode by settings likewise comes to the same as to switch first, with the same copies in
an arena, as long as there is no new input. A new input is read in the order of the settings
again, whatever was switched to before. -/
theorem chosen_order_is_switch (s : Settings) :
    (∀ script : Script,
      (∀ home, (script.switchedTo s.byteOrder).encode .bigEndian home =
        Encoded.behindSwitch <$> s.encode script home) ∧
      (∀ memory, (script.switchedTo s.byteOrder).encodeInto .bigEndian memory =
        ((s.encodeInto script memory).1.behindSwitch, (s.encodeInto script memory).2)) ∧
      (script.switchedTo s.byteOrder).encodeInArena .bigEndian =
        Encoded.behindSwitch <$> s.encodeInArena script ∧
      (∀ destination, (script.run (.counter s.byteOrder)).encoder.rewind destination =
        .writer s.byteOrder destination)) ∧
    (∀ (calls : List Call) (e : Encoder) (o : ByteOrder),
      (e.returningTo o).drive (calls.map .call) = e.drive (calls.map .call)) ∧
    (∀ (input : List UInt8) (calls : List ReadCall) (fallible : Bool),
      (∀ input', .reset input' ∉ calls) →
        let switched := decode .bigEndian input (.setOrder s.byteOrder :: calls) fallible
        let chosen := s.decode input calls fallible
        switched.1.sights = switchSight s.byteOrder input :: chosen.1.sights ∧
          switched.1.decoder = chosen.1.decoder.returningTo .bigEndian ∧
          switched.1.outcome = chosen.1.outcome ∧ switched.2 = chosen.2 ∧
          switched.1.copyOut = chosen.1.copyOut) ∧
    ∀ (input : List UInt8) (before : List ReadCall),
      (s.decoder input).StartsAfresh s.byteOrder before := by
  refine ⟨fun script => ⟨fun home => ?_, fun memory => ?_, ?_, fun destination => ?_⟩, ?_, ?_, ?_⟩
  · exact script.encode_switchedTo s.byteOrder .bigEndian home
  · exact script.encodeInto_switchedTo s.byteOrder .bigEndian memory
  · exact script.encodeInArena_switchedTo s.byteOrder .bigEndian
  · exact script.rewind_run s.byteOrder destination
  · exact Encoder.drive_returningTo
  · intro input calls fallible hcalls switched chosen
    have hsame : switched = _ :=
      decode_switchedTo hcalls s.byteOrder .bigEndian input fallible
    rw [hsame]
    exact ⟨rfl, rfl, rfl, rfl, rfl⟩
  · exact Decoder.startsAfresh s.byteOrder

/-- A number in the chosen order, a switch, and the number again. The writing pass starts in
the chosen order once more, and what it writes is read alike by both decoders. -/
theorem chosen_order_is_switch_restarting :
    let s : Settings := { byteOrder := .littleEndian }
    let script : Script :=
      { calls := [.put (.unsigned .two 1), .setOrder .bigEndian, .put (.unsigned .two 1)] }
    let calls : List ReadCall := [.read (.unsigned .two), .read (.unsigned .two)]
    ((script.switchedTo .littleEndian).encodeInto .bigEndian [7, 7, 7, 7]).2 = [1, 0, 0, 1] ∧
      (s.encodeInto script [7, 7, 7, 7]).2 = [1, 0, 0, 1] ∧
      (∀ input', .reset input' ∉ calls) ∧
      (decode .bigEndian [1, 0, 0, 1] (.setOrder .littleEndian :: calls)).2 =
        (s.decode [1, 0, 0, 1] calls).2 := by
  intro s script calls
  have hcalls : ∀ input', .reset input' ∉ calls := by simp [calls]
  have hinto := ((chosen_order_is_switch s).1 script).2.1 [7, 7, 7, 7]
  have hread := ((chosen_order_is_switch s).2.2.1 [1, 0, 0, 1] calls true hcalls).2.2.2.1
  have hbytes : (s.encodeInto script [7, 7, 7, 7]).2 = [1, 0, 0, 1] := by decide
  exact ⟨(congrArg Prod.snd hinto).trans hbytes, hbytes, hcalls, hread⟩

end Wirepool
