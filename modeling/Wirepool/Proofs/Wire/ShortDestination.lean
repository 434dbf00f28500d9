import Wirepool.Proofs.Wire.Lockstep

/-!
# Destinations of any length

A destination may be shorter than the message that is written into it. The writer does not
look ahead, so it finds out at the first piece that does not fit; by then a length may
stand in the destination without the payload it belongs to. From there on it writes no
more, even if a later piece would fit.

So the bytes that are written are a front part of the message, whatever stops the writer,
and nothing behind them is touched. That front part is as long as the writer's length says,
and it is the whole message just if the destination holds all that is counted.
-/

namespace Wirepool

/-- **A row of entries that a destination of `limit` bytes cuts.** All entries in front of a
field are written, and so are `sent` parts of it, `length` bytes in all, and the part behind
them is longer than what is left. -/
def Entry.CutAt (limit : Nat) (order : ByteOrder) (entries : List Entry) (length : Nat) : Prop :=
  ∃ front field back sent part others, entries = front ++ .field field :: back ∧
    (∀ entry ∈ front, entry.Sendable) ∧ field.Sendable ∧
    field.parts (lastOrder order front) = sent ++ part :: others ∧
    length = (image order front).length + sent.flatten.length ∧
    length ≤ limit ∧ limit - length < part.length

namespace Encoder

variable {e : Encoder} {limit : Nat}

/-- **What an encoder sends is a front part of the message**, within its limit. -/
theorem exists_sent (h : e.Accepts limit) (entries : List Entry) :
    ∃ sent, sent <+: Entry.image e.order entries ∧ sent.length ≤ limit ∧
      (entries.foldl enter e).length = e.length + sent.length ∧
      (entries.foldl enter e).sink = e.sink.advance sent := by
  rcases hfate : Entry.fate limit e.order entries with fault | row
  · obtain ⟨sent, hlast, hsent, hstops⟩ := foldl_enter_eq_of_stop h hfate
    refine ⟨sent, hsent, hstops.length_le, ?_, ?_⟩
    · rw [hlast]
      exact length_fail _ fault
    · rw [hlast]
      exact sink_fail _ fault
  · obtain ⟨-, rfl, hroom⟩ := Entry.fate_eq_ok_iff.mp hfate
    rw [foldl_enter_of_ok h hfate]
    exact ⟨_, List.prefix_refl _, hroom, rfl, rfl⟩

/-- What is counted is a front part of the message that a length can express. -/
theorem length_counter_le (order : ByteOrder) (entries : List Entry) :
    (entries.foldl enter (counter order)).length ≤ (Entry.image order entries).length ∧
      (entries.foldl enter (counter order)).length < wordLimit := by
  obtain ⟨sent, hsent, hroom, hlength, -⟩ := exists_sent (accepts_counter order) entries
  have hlimit : 0 < wordLimit := by decide
  have hle : sent.length ≤ (Entry.image order entries).length := hsent.length_le
  rw [hlength, counter, Nat.zero_add]
  omega

/-- **The written bytes stand in front of untouched ones.** -/
theorem destination_writer_eq (order : ByteOrder) (entries : List Entry)
    (destination : List UInt8) :
    let written := entries.foldl enter (writer order destination)
    written.destination =
      (Entry.image order entries).take written.length ++ destination.drop written.length := by
  obtain ⟨sent, hsent, -, hlength, hsink⟩ := exists_sent (accepts_writer order destination) entries
  intro written
  have hlength' : written.length = sent.length := hlength.trans (Nat.zero_add _)
  change sent <+: Entry.image order entries at hsent
  rw [Encoder.destination, hsink, hlength', ← List.prefix_iff_eq_take.mp hsent]
  rfl

/-- **A field that cannot be sent ends what is counted**, whatever stands behind it. -/
theorem length_counter_of_fault {order : ByteOrder} {front back : List Entry} {field : Field}
    {fault : Fault} (hfront : ∀ entry ∈ front, entry.Sendable)
    (hword : (Entry.image order front).length < wordLimit) (hfault : field.fault? = some fault) :
    ((front ++ .field field :: back).foldl enter (counter order)).length =
      (Entry.image order front).length := by
  have hroom : (Entry.image order front).length ≤ wordLimit - 1 := Nat.le_sub_one_of_lt hword
  have hbefore : front.foldl enter (counter order) = _ :=
    foldl_enter_of_ok (accepts_counter order) (Entry.fate_eq_ok_iff.mpr ⟨hfront, rfl, hroom⟩)
  have hroomy := (accepts_counter order).advance hroom
  have hnext : (front.foldl enter (counter order)).Accepts
      (wordLimit - 1 - (Entry.image order front).length) := by
    rw [hbefore]
    exact ⟨hroomy.error_eq, hroomy.fits_iff⟩
  have hput : (front.foldl enter (counter order)).put field =
      (front.foldl enter (counter order)).fail fault := by
    rcases put_cases hnext field with ⟨found, hfound, hput⟩ | ⟨hsendable, -⟩ | ⟨hsendable, -⟩
    · cases hfault.symm.trans hfound
      exact hput
    all_goals cases hfault.symm.trans (Field.fault?_eq_none_iff.mpr hsendable)
  rw [List.foldl_append, List.foldl_cons]
  show (back.foldl enter ((front.foldl enter (counter order)).put field)).length = _
  rw [hput, foldl_enter_of_error (error_fail (by rw [hbefore]; rfl) fault), length_fail, hbefore]
  exact Nat.zero_add _

/-- **A destination that is shorter than what is counted** cuts the row, and the writer keeps
that there was too little room. -/
theorem cutAt_of_lt {order : ByteOrder} {entries : List Entry} {destination : List UInt8}
    (hshort : destination.length < (entries.foldl enter (counter order)).length) :
    let written := entries.foldl enter (writer order destination)
    written.error = some .bufferTooShort ∧
      Entry.CutAt destination.length order entries written.length := by
  have hword := (length_counter_le order entries).2
  have haccepts := accepts_writer order destination
  rw [Nat.min_eq_right (by omega)] at haccepts
  intro written
  rcases hfate : Entry.fate destination.length order entries with fault | row
  · obtain ⟨herror, length, hstops, hlength⟩ := foldl_enter_of_stop haccepts hfate
    replace hlength : written.length = length := hlength.trans (Nat.zero_add _)
    change Entry.Stops destination.length order entries fault length at hstops
    obtain ⟨front, field, back, rfl, hfront, hroom, ⟨hfault, -⟩ |
      ⟨hsendable, rfl, sent, part, others, hparts, hsent, hle, hpart⟩⟩ := hstops
    · -- the counter stops there too, and has counted no more than the destination holds
      rw [length_counter_of_fault hfront (by omega) hfault] at hshort
      omega
    · exact ⟨herror, front, field, back, sent, part, others, rfl, hfront, hsendable, hparts,
        hlength.trans hsent, by omega, by omega⟩
  · obtain ⟨-, rfl, hroom⟩ := Entry.fate_eq_ok_iff.mp hfate
    have hcounted := (length_counter_le order entries).1
    omega

/-- **A message is written into a destination as far as it goes.** If the destination holds
what is counted, the writer ends like the counter. Otherwise it ends at the first part that is
longer than what is left. Either way the first bytes of the destination, as many as the
length says, are those of the message, and all others are as they were. -/
theorem written_as_far_as_it_goes (order : ByteOrder) (entries : List Entry)
    (destination : List UInt8) :
    let counted := (runCalls (entries.map Entry.call) (counter order)).encoder
    let written := (runCalls (entries.map Entry.call) (writer order destination)).encoder
    let message := (Entry.image order entries).take counted.length
    message.length = counted.length ∧
      (counted.length ≤ destination.length →
        written.length = counted.length ∧ written.error = counted.error) ∧
      (destination.length < counted.length →
        written.error = some .bufferTooShort ∧
          Entry.CutAt destination.length order entries written.length) ∧
      written.length ≤ message.length ∧ written.length ≤ destination.length ∧
      written.destination =
        message.take written.length ++ destination.drop written.length := by
  intro counted written message
  have hcounted : counted = entries.foldl enter (counter order) := runCalls_map_call _ _
  have hwritten : written = entries.foldl enter (writer order destination) :=
    runCalls_map_call _ _
  have hmessage : message.length = counted.length :=
    List.length_take_of_le (hcounted ▸ (length_counter_le order entries).1)
  have hlong (hle : counted.length ≤ destination.length) :
      written.length = counted.length ∧ written.error = counted.error := by
    rw [hcounted] at hle
    have htracks := (tracks_rewind (counter order) destination).foldl_enter entries hle
    rw [hcounted, hwritten]
    exact ⟨htracks.length_eq, htracks.error_eq⟩
  have hcut (hlt : destination.length < counted.length) :
      written.error = some .bufferTooShort ∧
        Entry.CutAt destination.length order entries written.length := by
    rw [hcounted] at hlt
    rw [hwritten]
    exact cutAt_of_lt hlt
  have hle : written.length ≤ counted.length ∧ written.length ≤ destination.length := by
    rcases Nat.lt_or_ge destination.length counted.length with hlt | hge
    · obtain ⟨-, front, field, back, sent, part, others, -, -, -, -, -, hle, -⟩ := hcut hlt
      exact ⟨by omega, hle⟩
    · rw [(hlong hge).1]
      exact ⟨Nat.le_refl _, hge⟩
  refine ⟨hmessage, hlong, hcut, hmessage ▸ hle.1, hle.2, ?_⟩
  rw [List.take_take, Nat.min_eq_left hle.1, hwritten]
  exact destination_writer_eq order entries destination

/-- A destination that ends between a length and its payload keeps the length, and a truth
value behind the payload is not written, although there is room for it. A longer one holds
both. -/
theorem written_as_far_as_it_goes_both :
    let entries : List Entry := [.field (.blob (.sized 2) (.bytes [7, 8])), .field (.flag true)]
    let cut := (runCalls (entries.map Entry.call) (writer .bigEndian [9, 9, 9])).encoder
    let whole := (runCalls (entries.map Entry.call) (writer .bigEndian [9, 9, 9, 9, 9, 9])).encoder
    cut.error = some .bufferTooShort ∧ Entry.CutAt 3 .bigEndian entries cut.length ∧
      cut.destination = [0, 2, 9] ∧ whole.length = 5 ∧ whole.error = none := by
  intro entries cut whole
  obtain ⟨-, -, hcut, -, -, hwritten⟩ := written_as_far_as_it_goes .bigEndian entries [9, 9, 9]
  obtain ⟨-, hwhole, -⟩ := written_as_far_as_it_goes .bigEndian entries [9, 9, 9, 9, 9, 9]
  have hshort := hcut (by decide)
  have hlong := hwhole (by decide)
  exact ⟨hshort.1, hshort.2, hwritten.trans (by decide), hlong.1.trans (by decide),
    hlong.2.trans (by decide)⟩

end Encoder

end Wirepool
