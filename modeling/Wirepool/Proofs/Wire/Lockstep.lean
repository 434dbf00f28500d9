import Wirepool.Proofs.Wire.Sending

/-!
# The two modes run in step

A counting encoder and a writing one of the same order take the same decisions as
long as the destination holds what is counted: a piece that the counter adds up
finds its room in the destination, and a piece that would make the message longer
than any destination is refused by both. `Tracks` is the relation between the two;
one lemma for each thing an encoder does says that it is kept.

That the destination is long enough is asked of the end of the message only. No
entry makes a message shorter, so it was long enough all the time.
-/

namespace Wirepool

namespace Encoder

/-- **A writing encoder in step with a counting one.** The two cannot be told
apart but by where their bytes go, and what is written stands in front of what is
left of the destination. -/
structure Tracks (destination : List UInt8) (c w : Encoder) : Prop where
  counting : c.sink = .counting
  length_eq : w.length = c.length
  order_eq : w.order = c.order
  error_eq : w.error = c.error
  writing : ∃ written, w.sink = .writing written (destination.drop w.length) ∧
    written.length = w.length ∧ w.length ≤ destination.length

/-- A counter and an encoder that starts afresh are in step. -/
theorem tracks_rewind (before : Encoder) (destination : List UInt8) :
    Tracks destination (counter before.initialOrder) (before.rewind destination) where
  counting := rfl
  length_eq := rfl
  order_eq := rfl
  error_eq := rfl
  writing := ⟨[], rfl, rfl, Nat.zero_le _⟩

/-! ## No message gets shorter -/

theorem length_le_take (e : Encoder) (piece : Piece) : e.length ≤ (e.take piece).length := by
  unfold take
  split
  · exact Nat.le_refl _
  · split
    · rw [length_fail]
    · split
      · exact Nat.le_add_right _ _
      · split
        · rw [length_fail]
        · exact Nat.le_add_right _ _

theorem length_le_foldl_take (pieces : List Piece) (e : Encoder) :
    e.length ≤ (pieces.foldl take e).length := by
  induction pieces generalizing e with
  | nil => exact Nat.le_refl _
  | cons piece pieces ih => exact (e.length_le_take piece).trans (ih _)

theorem length_le_enter (e : Encoder) (entry : Entry) : e.length ≤ (e.enter entry).length := by
  cases entry with
  | order o => exact Nat.le_refl _
  | field f =>
    show e.length ≤ (e.put f).length
    unfold put
    split
    · exact Nat.le_refl _
    · split
      · exact length_le_foldl_take _ e
      · rw [length_fail]

theorem length_le_foldl_enter (entries : List Entry) (e : Encoder) :
    e.length ≤ (entries.foldl enter e).length := by
  induction entries generalizing e with
  | nil => exact Nat.le_refl _
  | cons entry entries ih => exact (e.length_le_enter entry).trans (ih _)

/-! ## Steps -/

variable {destination : List UInt8} {c w : Encoder}

/-- A fault that both keep leaves them in step. -/
theorem Tracks.fail (h : Tracks destination c w) (fault : Fault) :
    Tracks destination (c.fail fault) (w.fail fault) := by
  unfold Encoder.fail
  rw [h.error_eq]
  split
  · exact h
  · exact ⟨h.counting, h.length_eq, h.order_eq, rfl, h.writing⟩

/-- Bytes that the destination holds are counted by the one and written by the
other. -/
theorem Tracks.advance (h : Tracks destination c w) {row : List UInt8}
    (hroom : c.length + row.length ≤ destination.length) :
    Tracks destination (c.advance row) (w.advance row) := by
  obtain ⟨written, hsink, hwritten, -⟩ := h.writing
  rw [← h.length_eq] at hroom
  refine ⟨?_, congrArg (· + row.length) h.length_eq, h.order_eq, h.error_eq, written ++ row,
    ?_, ?_, hroom⟩
  · rw [Encoder.advance, h.counting, Sink.advance]
  · rw [Encoder.advance, hsink, Sink.advance, List.drop_drop]
  · rw [List.length_append, hwritten, Encoder.advance]

/-- Bytes that the destination holds find room in both or in none. -/
theorem Tracks.fits_iff (h : Tracks destination c w) {size : Nat}
    (hroom : c.Fits size → c.length + size ≤ destination.length) :
    w.Fits size ↔ c.Fits size := by
  obtain ⟨written, hsink, -⟩ := h.writing
  constructor
  · intro hw
    refine ⟨h.length_eq ▸ hw.1, ?_⟩
    rw [h.counting]
    trivial
  · intro hc
    have hle := hroom hc
    refine ⟨h.length_eq.symm ▸ hc.1, ?_⟩
    rw [hsink, h.length_eq]
    dsimp only
    rw [List.length_drop]
    omega

/-- **A piece that is counted is written**, if the destination holds it. -/
theorem Tracks.take (h : Tracks destination c w) (piece : Piece)
    (hroom : (c.take piece).length ≤ destination.length) :
    Tracks destination (c.take piece) (w.take piece) := by
  cases herror : c.error with
  | some fault =>
    rw [take_of_error herror, take_of_error (h.error_eq.trans herror)]
    exact h
  | none =>
    have hnone := h.error_eq.trans herror
    by_cases hfits : c.Fits piece.length
    · rw [take_of_fits herror hfits] at hroom ⊢
      change c.length + piece.bytes.length ≤ _ at hroom
      rw [take_of_fits hnone ((h.fits_iff fun _ => by rwa [← Piece.length_bytes]).mpr hfits)]
      exact h.advance hroom
    · rw [take_of_not_fits herror hfits,
        take_of_not_fits hnone (mt (h.fits_iff fun hc => absurd hc hfits).mp hfits)]
      exact h.fail .bufferTooShort

theorem Tracks.foldl_take (pieces : List Piece) {c w : Encoder} (h : Tracks destination c w)
    (hroom : (pieces.foldl Encoder.take c).length ≤ destination.length) :
    Tracks destination (pieces.foldl Encoder.take c) (pieces.foldl Encoder.take w) := by
  induction pieces generalizing c w with
  | nil => exact h
  | cons piece pieces ih =>
    exact ih (h.take piece ((length_le_foldl_take pieces _).trans hroom)) hroom

/-- **An entry keeps the two in step**, if the destination holds what is counted
with it. Both find the same pieces or the same fault, since both have the same
order in force. -/
theorem Tracks.enter (h : Tracks destination c w) (entry : Entry)
    (hroom : (c.enter entry).length ≤ destination.length) :
    Tracks destination (c.enter entry) (w.enter entry) := by
  cases entry with
  | order o => exact ⟨h.counting, h.length_eq, rfl, h.error_eq, h.writing⟩
  | field f =>
    change (c.put f).length ≤ _ at hroom
    show Tracks destination (c.put f) (w.put f)
    unfold put at hroom ⊢
    rw [h.error_eq, h.order_eq]
    split
    · exact h
    · split
      · next hpieces => exact h.foldl_take _ (by simpa only [*] using hroom)
      · exact h.fail _

/-- **A row of entries keeps the two in step**, if the destination holds the whole
row. -/
theorem Tracks.foldl_enter (entries : List Entry) {c w : Encoder} (h : Tracks destination c w)
    (hroom : (entries.foldl Encoder.enter c).length ≤ destination.length) :
    Tracks destination (entries.foldl Encoder.enter c) (entries.foldl Encoder.enter w) := by
  induction entries generalizing c w with
  | nil => exact h
  | cons entry entries ih =>
    exact ih (h.enter entry ((length_le_foldl_enter entries _).trans hroom)) hroom

end Encoder

/-! ## Whole passes -/

/-- **A call that does not ask which pass it is made in.** It may still look at the
kept fault, which the two passes have in common. -/
def Call.Blind : Call → Prop
  | .whenCounting _ => False
  | .whenWriting _ => False
  | _ => True

/-- A blind call makes the same entry in any encoder. -/
theorem Call.Blind.made_eq {call : Call} (h : call.Blind) (c w : Encoder) :
    call.made w = call.made c := by
  cases call <;> first | rfl | exact h.elim

/-- A blind call leaves just if it leaves with the same kept fault. -/
theorem Call.Blind.verdict_eq {call : Call} (h : call.Blind) {c w : Encoder}
    (herror : w.error = c.error) : (call.run w).2 = (call.run c).2 := by
  cases call with
  | whenCounting call => exact h.elim
  | whenWriting call => exact h.elim
  | check =>
    rw [run, run, herror]
    split <;> rfl
  | _ => rfl

/-- **Blind calls take the same turn** on encoders that are in step. -/
theorem Encoder.Tracks.turn_eq {destination : List UInt8} {calls : List Call} {c w : Encoder}
    (h : Tracks destination c w) (hblind : ∀ call ∈ calls, call.Blind)
    (hroom : (runCalls calls c).encoder.length ≤ destination.length) :
    entriesOf calls w = entriesOf calls c ∧
      (runCalls calls w).outcome = (runCalls calls c).outcome := by
  refine turn_eq_of_alike (fun calls c w => Tracks destination c w ∧
    (∀ call ∈ calls, call.Blind) ∧ (runCalls calls c).encoder.length ≤ destination.length)
    (fun call calls c w ⟨h, hblind, hroom⟩ => ?_) calls ⟨h, hblind, hroom⟩
  obtain ⟨hcall, hcalls⟩ := List.forall_mem_cons.mp hblind
  have hmade := hcall.made_eq c w
  have hverdict := hcall.verdict_eq h.error_eq
  refine ⟨hmade, hverdict, fun hnext => ?_⟩
  have hc := call.run_of_next hnext
  rw [runCalls, hc] at hroom
  change (runCalls calls _).encoder.length ≤ _ at hroom
  have hlast := hroom
  rw [encoder_runCalls] at hlast
  rw [hc, call.run_of_next (hverdict.trans hnext), hmade]
  exact ⟨h.foldl_enter _ ((Encoder.length_le_foldl_enter _ _).trans hlast), hcalls, hroom⟩

namespace Script

/-- A counting pass finds a length if the caller hands on no failure and no fault is
kept. -/
theorem measure_eq_ok_iff {script : Script} {order : ByteOrder} {length : Nat} :
    (script.measure order).length = .ok length ↔
      (script.run (.counter order)).outcome = .ok () ∧
        (script.run (.counter order)).encoder.error = none ∧
        (script.run (.counter order)).encoder.length = length := by
  unfold measure
  dsimp only
  split
  · next houtcome => simp [houtcome]
  · next houtcome herror => simp [houtcome, herror]
  · next houtcome herror => simp [houtcome, herror]

/-- A writing pass that fills its destination without a fault ends as its caller
does. -/
theorem outcome_fill_of_full {script : Script} {order : ByteOrder} {destination : List UInt8}
    (herror : (script.run (.writer order destination)).encoder.error = none)
    (hlength : (script.run (.writer order destination)).encoder.length = destination.length) :
    (script.fill order destination).outcome =
      (script.run (.writer order destination)).outcome := by
  simp only [fill, Encoder.finish, herror, if_pos hlength]
  cases (script.run (.writer order destination)).outcome <;> rfl

end Script

namespace Encoder

/-- **What is measured is what is written, call by call.** An encoder that starts
afresh on a destination goes in step with a counter of the same order behind every
call of a row, if the destination holds what is counted in the end. So a pass that
makes the entries that were measured writes just the measured length without a
fault, and a caller that does not ask which pass it is in makes the same entries in
both and fails in none. -/
theorem writes_in_step_with_counting (before : Encoder) (destination : List UInt8) :
    (∀ entries : List Entry,
      (runCalls (entries.map Entry.call) (counter before.initialOrder)).encoder.length ≤
          destination.length →
      ∀ front, front <+: entries →
        Tracks destination
          (runCalls (front.map Entry.call) (counter before.initialOrder)).encoder
          (runCalls (front.map Entry.call) (before.rewind destination)).encoder) ∧
    ∀ (script : Script) (length : Nat),
      (script.measure before.initialOrder).length = .ok length →
      length ≤ destination.length →
      let counted := script.turn (counter before.initialOrder)
      let written := script.turn (before.rewind destination)
      let pass := script.run (before.rewind destination)
      (written.entries = counted.entries →
        pass.encoder.error = none ∧ pass.encoder.length = length ∧
          (destination.length = length →
            (script.fill before.initialOrder destination).outcome = written.outcome)) ∧
      ((∀ call ∈ script.calls, call.Blind) → written = counted ∧ written.outcome = .ok ()) := by
  refine ⟨fun entries hroom front hfront => ?_, fun script length hmeasure hroom => ?_⟩
  · obtain ⟨back, rfl⟩ := hfront
    rw [runCalls_map_call, List.foldl_append] at hroom
    rw [runCalls_map_call, runCalls_map_call]
    exact (tracks_rewind before destination).foldl_enter front
      ((length_le_foldl_enter back _).trans hroom)
  · obtain ⟨houtcome, herror, rfl⟩ := Script.measure_eq_ok_iff.mp hmeasure
    rw [script.encoder_run] at herror hroom ⊢
    intro counted written pass
    constructor
    · intro hentries
      have htracks := (tracks_rewind before destination).foldl_enter _ hroom
      have hpass : pass.encoder = counted.entries.foldl enter (before.rewind destination) :=
        (script.encoder_run _).trans (congrArg (List.foldl enter _) hentries)
      have hnone : pass.encoder.error = none := by rw [hpass, htracks.error_eq, herror]
      have hlength := htracks.length_eq
      rw [← hpass] at hlength
      exact ⟨hnone, hlength, fun hfull =>
        Script.outcome_fill_of_full hnone (hlength.trans hfull.symm)⟩
    · intro hblind
      rw [Script.turn, ← encoder_runCalls] at hroom
      have hturns : written = counted :=
        Script.turn_congr ((tracks_rewind before destination).turn_eq hblind hroom)
      exact ⟨hturns, hturns ▸ houtcome⟩

/-- A destination that is longer than a message that stops at a number too large for
its width, and one that is filled. -/
theorem writes_in_step_with_counting_both :
    Tracks [9, 9, 9]
        (runCalls ([.field (.flag true), .field (.unsignedIn 1 256)].map Entry.call)
          (counter .littleEndian)).encoder
        (runCalls ([.field (.flag true), .field (.unsignedIn 1 256)].map Entry.call)
          ((counter .littleEndian).rewind [9, 9, 9])).encoder ∧
      (Script.turn ⟨[.put (.unsigned .two 258), .check], true⟩
        ((counter .littleEndian).rewind [9, 9])).outcome = .ok () :=
  ⟨(writes_in_step_with_counting (counter .littleEndian) [9, 9, 9]).1
      [.field (.flag true), .field (.unsignedIn 1 256)] (by decide) _ (List.prefix_refl _),
    ((writes_in_step_with_counting (counter .littleEndian) [9, 9]).2
      ⟨[.put (.unsigned .two 258), .check], true⟩ 2 (by decide) (by decide)).2
      (by simp [Call.Blind]) |>.2⟩

end Encoder

end Wirepool
