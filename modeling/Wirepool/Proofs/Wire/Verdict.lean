import Wirepool.Proofs.Wire.Sending

/-!
# The verdict on a message

A message is made of two turns of its caller that need have nothing in common. What
comes of it is said here by the turns alone, without encoders and memory: the first
turn is judged by what a length can express, and what it counts is what the second
one is judged by. It may not ask for more, and it must not stop short.

Both drivers over given memory and over borrowed memory reach this verdict, and the
bytes that stood in the memory before have no part in it.
-/

namespace Wirepool

namespace Turn

/-- **What one pass comes to** that may send `limit` bytes: the failure of the
caller, or else the fate of the entries. -/
def verdict (limit : Nat) (order : ByteOrder) (turn : Turn) : Except Failure (List UInt8) :=
  match turn.outcome with
  | .error failure => .error failure
  | .ok () => (Entry.fate limit order turn.entries).mapError .fault

/-- **What a pass comes to** that is to send just `size` bytes. -/
def filling (size : Nat) (order : ByteOrder) (turn : Turn) : Except Failure (List UInt8) := do
  let message ← turn.verdict size order
  if message.length < size then .error (.fault .remainingBytes) else .ok message

/-- **A pass fills its bytes** if the caller hands on no failure, all entries can be
sent, and their image is just as long. -/
theorem filling_eq_ok_iff {size : Nat} {order : ByteOrder} {turn : Turn} {message : List UInt8} :
    turn.filling size order = .ok message ↔
      turn.outcome = .ok () ∧ (∀ entry ∈ turn.entries, entry.Sendable) ∧
        message = Entry.image order turn.entries ∧ message.length = size := by
  rw [filling, verdict]
  cases turn.outcome with
  | error failure => exact iff_of_false nofun nofun
  | ok =>
    cases hfate : Entry.fate size order turn.entries with
    | error fault =>
      refine iff_of_false nofun ?_
      rintro ⟨-, hsendable, rfl, hlength⟩
      rw [Entry.fate_eq_ok_iff.mpr ⟨hsendable, rfl, Nat.le_of_eq hlength⟩] at hfate
      cases hfate
    | ok row =>
      obtain ⟨hsendable, rfl, hroom⟩ := Entry.fate_eq_ok_iff.mp hfate
      show (if (Entry.image order turn.entries).length < size then Except.error _ else .ok _) = _ ↔
        _
      split
      · next hless =>
        refine iff_of_false nofun ?_
        rintro ⟨-, -, rfl, hlength⟩
        omega
      · next hless =>
        constructor
        · rintro ⟨⟩
          exact ⟨rfl, hsendable, rfl, by omega⟩
        · rintro ⟨-, -, rfl, -⟩
          rfl

end Turn

/-- **The verdict on a message**, made of the turn that is counted and the turn that
is taken over as many bytes as that. Memory of the caller may have too little room
for them. -/
def verdict (order : ByteOrder) (room : Option Nat) (counted : Turn) (written : Nat → Turn) :
    Except Failure (List UInt8) := do
  let measured ← counted.verdict (wordLimit - 1) order
  if room.any (· < measured.length) then .error (.fault .bufferTooShort)
  else (written measured.length).filling measured.length order

/-- The verdict on the message of a caller. The second turn is taken over zeros,
since it is the same over all memory of one length. -/
def Script.verdict (script : Script) (order : ByteOrder) (room : Option Nat) :
    Except Failure (List UInt8) :=
  Wirepool.verdict order room (script.turn (.counter order)) fun length =>
    script.turn (.writer order (List.replicate length 0))

/-! ## Memory of one length is all the same -/

namespace Encoder

/-- **Encoders that no caller can tell apart**: they are in the same mode, and have
kept the same fault or accept as much in the same order. -/
def Alike (c w : Encoder) : Prop :=
  w.isCounting = c.isCounting ∧ w.error = c.error ∧
    (c.error = none → w.order = c.order ∧ ∃ limit, c.Accepts limit ∧ w.Accepts limit)

/-- Writers over memory of one length are alike. -/
theorem alike_writer (order : ByteOrder) {first second : List UInt8}
    (h : second.length = first.length) : Alike (writer order first) (writer order second) :=
  ⟨rfl, rfl, fun _ => ⟨rfl, _, accepts_writer order first, h ▸ accepts_writer order second⟩⟩

/-- **An entry leaves them alike.** -/
theorem Alike.enter {c w : Encoder} (h : Alike c w) (entry : Entry) :
    Alike (c.enter entry) (w.enter entry) := by
  obtain ⟨hmode, herror, hnone⟩ := h
  have hmode' : (w.enter entry).isCounting = (c.enter entry).isCounting := by
    rw [isCounting_enter, isCounting_enter, hmode]
  refine ⟨hmode', ?_⟩
  cases entry with
  | order o =>
    refine ⟨herror, fun hc => ⟨rfl, ?_⟩⟩
    obtain ⟨-, limit, hcl, hwl⟩ := hnone hc
    exact ⟨limit, ⟨hcl.error_eq, hcl.fits_iff⟩, ⟨hwl.error_eq, hwl.fits_iff⟩⟩
  | field f =>
    show (w.put f).error = (c.put f).error ∧ ((c.put f).error = none →
      (w.put f).order = (c.put f).order ∧
        ∃ limit, (c.put f).Accepts limit ∧ (w.put f).Accepts limit)
    cases hc : c.error with
    | some fault =>
      rw [put_of_error hc, put_of_error (herror.trans hc)]
      exact ⟨herror, fun h => absurd (hc.symm.trans h) nofun⟩
    | none =>
      obtain ⟨horder, limit, hcl, hwl⟩ := hnone hc
      cases hfate : f.fate limit c.order with
      | ok row =>
        have hroom := (Field.fate_eq_ok_iff.mp hfate).2.2
        rw [put_of_fate_ok hcl hfate, put_of_fate_ok hwl (horder ▸ hfate)]
        exact ⟨herror, fun _ => ⟨horder, _, hcl.advance hroom, hwl.advance hroom⟩⟩
      | error fault =>
        have hc' := put_of_fate_error hcl hfate
        rw [hc', put_of_fate_error hwl (horder ▸ hfate)]
        exact ⟨rfl, nofun⟩

end Encoder

/-- A call makes the same entry in alike encoders. -/
theorem Encoder.Alike.made_eq {c w : Encoder} (h : Alike c w) (call : Call) :
    call.made w = call.made c := by
  induction call with
  | whenCounting call ih => rw [Call.made, Call.made, h.1, ih]
  | whenWriting call ih => rw [Call.made, Call.made, h.1, ih]
  | _ => rfl

/-- A call leaves alike encoders in the same way. -/
theorem Encoder.Alike.verdict_eq {c w : Encoder} (h : Alike c w) (call : Call) :
    (call.run w).2 = (call.run c).2 := by
  induction call with
  | whenCounting call ih =>
    rw [Call.run, Call.run, h.1]
    split
    · exact ih
    · rfl
  | whenWriting call ih =>
    rw [Call.run, Call.run, h.1]
    split
    · rfl
    · exact ih
  | check =>
    rw [Call.run, Call.run, h.2.1]
    split <;> rfl
  | _ => rfl

/-- **Memory of one length sees the same turn**, whatever it holds. -/
theorem Script.turn_writer (script : Script) (order : ByteOrder) {first second : List UInt8}
    (h : second.length = first.length) :
    script.turn (.writer order second) = script.turn (.writer order first) := by
  refine turn_congr (turn_eq_of_alike (fun _ => Encoder.Alike) (fun call _ c w h => ?_)
    script.calls (Encoder.alike_writer order h))
  have hmade := h.made_eq call
  have hverdict := h.verdict_eq call
  refine ⟨hmade, hverdict, fun hnext => ?_⟩
  rw [call.run_of_next hnext, call.run_of_next (hverdict.trans hnext), hmade]
  cases call.made c with
  | none => exact h
  | some entry => exact h.enter entry

/-! ## The passes reach their verdicts -/

namespace Script

/-- **The counting pass** finds the length of what its turn comes to. -/
theorem length_measure (script : Script) (order : ByteOrder) :
    (script.measure order).length =
      ((script.turn (.counter order)).verdict (wordLimit - 1) order).map List.length := by
  have houtcome : (script.turn (.counter order)).outcome = (script.run (.counter order)).outcome :=
    rfl
  have haccepts := Encoder.accepts_counter order
  simp only [measure, Turn.verdict, houtcome, script.encoder_run]
  cases (script.run (.counter order)).outcome with
  | error failure => rfl
  | ok =>
    cases hfate : Entry.fate (wordLimit - 1) order (script.turn (.counter order)).entries with
    | error fault =>
      simp only [(Encoder.foldl_enter_of_stop haccepts hfate).1]
      rfl
    | ok row =>
      simp only [Encoder.foldl_enter_of_ok haccepts hfate]
      exact congrArg Except.ok (Nat.zero_add row.length)

/-- A message that is measured is not longer than a length can express. -/
theorem length_lt_of_measure {script : Script} {order : ByteOrder} {length : Nat}
    (h : (script.measure order).length = .ok length) : length < wordLimit := by
  rw [length_measure] at h
  obtain ⟨row, hrow, rfl⟩ := exists_of_map_eq_ok h
  have hlimit : 0 < wordLimit := by decide
  unfold Turn.verdict at hrow
  split at hrow
  · cases hrow
  · cases hfate : Entry.fate (wordLimit - 1) order (script.turn (.counter order)).entries with
    | error fault =>
      rw [hfate] at hrow
      cases hrow
    | ok image =>
      rw [hfate] at hrow
      cases hrow
      have hle := (Entry.fate_eq_ok_iff.mp hfate).2.2
      omega

/-- **The writing pass** comes to what its turn does over as many bytes. -/
theorem outcome_fill (script : Script) (order : ByteOrder) {destination : List UInt8}
    (hword : destination.length < wordLimit) :
    (script.fill order destination).outcome.map
        (fun () => (script.fill order destination).destination) =
      (script.turn (.writer order destination)).filling destination.length order := by
  have houtcome : (script.turn (.writer order destination)).outcome =
      (script.run (.writer order destination)).outcome := rfl
  have haccepts : (Encoder.writer order destination).Accepts destination.length := by
    have := Encoder.accepts_writer order destination
    rwa [Nat.min_eq_right (Nat.le_sub_one_of_lt hword)] at this
  simp only [fill, Turn.filling, Turn.verdict, houtcome, script.encoder_run]
  cases (script.run (.writer order destination)).outcome with
  | error failure => rfl
  | ok =>
    cases hfate : Entry.fate destination.length order
        (script.turn (.writer order destination)).entries with
    | error fault =>
      simp only [Encoder.finish, (Encoder.foldl_enter_of_stop haccepts hfate).1]
      rfl
    | ok row =>
      -- the pass is over, and what it has sent either fills the destination or not
      have hroom := (Entry.fate_eq_ok_iff.mp hfate).2.2
      have hlength : (Encoder.writer order destination).length + row.length = row.length :=
        Nat.zero_add _
      simp only [Encoder.foldl_enter_of_ok haccepts hfate, Encoder.finish, Encoder.advance,
        hlength]
      by_cases hfull : row.length = destination.length
      · rw [if_pos hfull]
        show Except.ok (row ++ destination.drop row.length) =
          if row.length < destination.length then _ else Except.ok row
        rw [if_neg (by omega), hfull, List.drop_length, List.append_nil]
      · rw [if_neg hfull]
        show Except.error _ = if row.length < destination.length then _ else _
        rw [if_pos (by omega)]

/-- A message that cannot be measured fails as the measuring does. -/
theorem verdict_of_unmeasured {script : Script} {order : ByteOrder} {failure : Failure}
    (h : (script.measure order).length = .error failure) (room : Option Nat) :
    script.verdict order room = .error failure := by
  rw [length_measure] at h
  rw [verdict, Wirepool.verdict]
  cases hcounted : (script.turn (.counter order)).verdict (wordLimit - 1) order with
  | error found =>
    rw [hcounted] at h
    cases h
    rfl
  | ok row =>
    rw [hcounted] at h
    cases h

/-- A message that is measured is written, if there is room for it. -/
theorem verdict_of_measured {script : Script} {order : ByteOrder} {length : Nat}
    (h : (script.measure order).length = .ok length) (room : Option Nat) :
    script.verdict order room =
      if room.any (· < length) then .error (.fault .bufferTooShort)
      else (script.turn (.writer order (List.replicate length 0))).filling length order := by
  rw [length_measure] at h
  rw [verdict, Wirepool.verdict]
  cases hcounted : (script.turn (.counter order)).verdict (wordLimit - 1) order with
  | error found =>
    rw [hcounted] at h
    cases h
  | ok row =>
    rw [hcounted] at h
    cases h
    rfl

/-- **A message that is measured comes to what the writing pass does** over any
memory of its length. -/
theorem verdict_eq_fill {script : Script} {order : ByteOrder} {destination : List UInt8}
    (h : (script.measure order).length = .ok destination.length) {room : Option Nat}
    (hroom : room.any (· < destination.length) = false) :
    script.verdict order room = (script.fill order destination).outcome.map
      fun () => (script.fill order destination).destination := by
  rw [verdict_of_measured h, hroom, if_neg Bool.false_ne_true,
    outcome_fill script order (length_lt_of_measure h),
    script.turn_writer order (List.length_replicate (n := destination.length))]

/-- **A message that is made** is as long as was measured, and is the image of what
the second turn enters. -/
theorem eq_image_of_verdict {script : Script} {order : ByteOrder} {room : Option Nat}
    {message : List UInt8} (h : script.verdict order room = .ok message) :
    (script.measure order).length = .ok message.length ∧
      message = Entry.image order
        (script.turn (.writer order (List.replicate message.length 0))).entries := by
  cases hmeasure : (script.measure order).length with
  | error failure =>
    rw [verdict_of_unmeasured hmeasure] at h
    cases h
  | ok length =>
    rw [verdict_of_measured hmeasure] at h
    split at h
    · cases h
    · obtain ⟨-, -, himage, rfl⟩ := Turn.filling_eq_ok_iff.mp h
      exact ⟨rfl, himage⟩

/-- A pass that succeeds leaves a destination of the same length. -/
theorem length_fill {script : Script} {order : ByteOrder} {destination : List UInt8}
    (hword : destination.length < wordLimit)
    (hok : (script.fill order destination).outcome = .ok ()) :
    (script.fill order destination).destination.length = destination.length := by
  have hfill := outcome_fill script order hword
  rw [hok] at hfill
  exact (Turn.filling_eq_ok_iff.mp hfill.symm).2.2.2

/-- **Encoding into memory of the caller** reaches the verdict. A message that is
made stands in front of what the memory held behind it. -/
theorem encodeInto_verdict (script : Script) (order : ByteOrder) (memory : List UInt8) :
    (script.encodeInto order memory).1.result =
        (script.verdict order (some memory.length)).map List.length ∧
      ∀ message, script.verdict order (some memory.length) = .ok message →
        (script.encodeInto order memory).2 = message ++ memory.drop message.length := by
  unfold encodeInto
  dsimp only
  cases hmeasure : (script.measure order).length with
  | error failure =>
    rw [verdict_of_unmeasured hmeasure]
    exact ⟨rfl, nofun⟩
  | ok length =>
    by_cases hroom : memory.length < length
    · rw [verdict_of_measured hmeasure, if_pos (by simpa using hroom)]
      simp only [if_pos hroom]
      exact ⟨rfl, nofun⟩
    · have hlength : (memory.take length).length = length :=
        List.length_take_of_le (Nat.le_of_not_lt hroom)
      have hverdict : script.verdict order (some memory.length) =
          (script.fill order (memory.take length)).outcome.map
            fun () => (script.fill order (memory.take length)).destination :=
        verdict_eq_fill (hlength.symm ▸ hmeasure) (by simpa [hlength] using hroom)
      have hfill : (script.fill order (memory.take length)).outcome = .ok () → _ :=
        length_fill (hlength.symm ▸ length_lt_of_measure hmeasure)
      simp only [if_neg hroom, hverdict]
      cases houtcome : (script.fill order (memory.take length)).outcome with
      | error failure => exact ⟨rfl, nofun⟩
      | ok =>
        rw [hlength] at hfill
        refine ⟨congrArg Except.ok (hfill houtcome).symm, ?_⟩
        rintro message ⟨⟩
        rw [hfill houtcome]

end Script

end Wirepool
