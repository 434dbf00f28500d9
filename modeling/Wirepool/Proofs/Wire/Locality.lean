import Wirepool.Proofs.Wire.Orders
import Wirepool.Proofs.Wire.Safety

/-!
# Decoding is local to the unread bytes

What a row of calls finds depends on the bytes that it reads and on nothing else of the
input. There are two sides to that. Bytes *behind* those that are read could only matter
where a read has to find its own end, and there the first end counts. Bytes *in front* of
them could matter if something were kept of them: a decoder has lost them, but a cursor
still has them all, and a step that counted from the start of the input or searched there
would go wrong only in the middle of it.

So the second side is shown of cursors too. A cursor in the middle of its input stands for
the same decoder as one at the start of what is unread, the order to go back to apart, and
to which order a decoder goes back is not seen before there is a new input.
-/

namespace Wirepool

namespace Decoder

/-- A new decoder on what another one has not read, in the order in force and with its
arena. -/
def fresh (d : Decoder) : Decoder :=
  { start d.order d.rest with attached := d.attached }

/-- **A decoder without a fault is a new one**, but for the order to go back to. -/
theorem eq_fresh_returningTo {d : Decoder} (he : d.error = none) :
    d = d.fresh.returningTo d.initialOrder := by
  obtain ⟨rest, order, initialOrder, error, attached⟩ := d
  obtain rfl : error = none := he
  rfl

/-- **Calls see nothing of what was read before them.** -/
theorem calls_append_of_error_none {d : Decoder} {before later : List ReadCall}
    (hlater : ∀ input, .reset input ∉ later) (hmade : d.made before = before)
    (hok : (d.calls before).decoder.error = none) :
    let front := d.calls before
    let behind := front.decoder.fresh.calls later
    d.calls (before ++ later) =
      { behind with
        sights := front.sights ++ behind.sights
        decoder := behind.decoder.returningTo d.initialOrder } := by
  intro front behind
  have horder : front.decoder.initialOrder = d.initialOrder := (settings_calls before d).1
  have hrest : front.decoder.calls later =
      { behind with decoder := behind.decoder.returningTo d.initialOrder } := by
    rw [eq_fresh_returningTo hok, horder]
    exact calls_returningTo hlater
  rw [calls_append, if_pos hmade, show (d.calls before).decoder = front.decoder from rfl, hrest]

end Decoder

/-! ## Cursors in the middle of their input -/

namespace Cursor

/-- Steps that stay with their input lead on in it. -/
theorem leads_of_connected {c last : Cursor} {steps : List Step} (hc : c.Sound)
    (hconnected : Connected c steps last) (hsafe : ∀ step ∈ steps, step.Safe)
    (hstays : ∀ step ∈ steps, ∀ input, step.call ≠ .reset input) : c.Leads last := by
  induction steps generalizing c with
  | nil =>
    obtain rfl : last = c := hconnected
    exact hc.leads_self
  | cons step steps ih =>
    obtain ⟨rfl, hothers⟩ := hconnected
    obtain ⟨hthis, hsafe⟩ := List.forall_mem_cons.1 hsafe
    obtain ⟨hcall, hstays⟩ := List.forall_mem_cons.1 hstays
    obtain ⟨hbuf, hpos⟩ := hthis.stays hcall
    have hleads : step.before.Leads step.after := ⟨hbuf, hpos, hbuf ▸ hthis.pos_le⟩
    exact hleads.trans (ih (hc.next hleads) hothers hsafe hstays)

/-- **A row of calls that stays with its input** runs through, and leads on in it. -/
theorem Sound.exists_leads {c : Cursor} (hc : c.Sound) (calls : List ReadCall)
    (hcalls : ∀ input, .reset input ∉ calls) :
    ∃ trail, c.calls calls = .ok trail ∧ trail.reading = c.decoder.calls calls ∧
      c.Leads trail.cursor := by
  obtain ⟨trail, htrail, hreading, hsteps, hconnected, hsafe⟩ :=
    hc.calls_eq calls fun input h => absurd h (hcalls input)
  refine ⟨trail, htrail, hreading, leads_of_connected hc hconnected hsafe ?_⟩
  intro step hstep input hreset
  have hmem : step.call ∈ c.decoder.made calls := by
    rw [← hsteps]
    exact List.mem_map_of_mem hstep
  exact hcalls input (hreset ▸ List.mem_of_mem_take hmem)

/-- Cursors in one input are told apart by the decoders they stand for. -/
theorem eq_of_decoder_eq {c c' : Cursor} (hbuf : c.buf = c'.buf) (hpos : c.pos ≤ c.buf.length)
    (hpos' : c'.pos ≤ c'.buf.length) (h : c.decoder = c'.decoder) : c = c' := by
  obtain ⟨buf, pos, order, initialOrder, error, attached⟩ := c
  obtain ⟨buf', pos', order', initialOrder', error', attached'⟩ := c'
  obtain rfl : buf = buf' := hbuf
  obtain ⟨hrest, rfl, rfl, rfl, rfl⟩ := Decoder.mk.inj h
  have hlength := congrArg List.length hrest
  rw [List.length_drop, List.length_drop] at hlength
  obtain rfl : pos = pos' := by
    dsimp only at hpos hpos' hlength
    omega
  rfl

/-- A new cursor on what another one has not read, in the order in force and with its
arena. -/
def fresh (c : Cursor) : Cursor :=
  { start c.order (c.buf.drop c.pos) with attached := c.attached }

/-- **A cursor in the middle of its input goes on as a new one on what is unread.** -/
theorem Sound.calls_append {c : Cursor} (hc : c.Sound) {before later : List ReadCall}
    (hbefore : ∀ input, .reset input ∉ before) (hlater : ∀ input, .reset input ∉ later)
    (hmade : c.decoder.made before = before)
    (hok : (c.decoder.calls before).decoder.error = none) :
    ∃ front behind whole, c.calls before = .ok front ∧ front.cursor.fresh.calls later = .ok behind ∧
      c.calls (before ++ later) = .ok whole ∧
      whole.reading.sights = front.reading.sights ++ behind.reading.sights ∧
      whole.outcome = behind.outcome ∧
      whole.cursor = { behind.cursor with
        buf := c.buf
        pos := front.cursor.pos + behind.cursor.pos
        initialOrder := c.initialOrder } := by
  obtain ⟨front, hfront, hfrontd, hleads⟩ := hc.exists_leads before hbefore
  have hfresh : front.cursor.fresh.Sound := by
    refine ⟨Nat.zero_le _, Nat.lt_of_le_of_lt ?_ hc.length_lt⟩
    show (front.cursor.buf.drop _).length ≤ _
    rw [hleads.buf_eq, List.length_drop]
    exact Nat.sub_le _ _
  obtain ⟨behind, hbehind, hbehindd, hleads'⟩ := hfresh.exists_leads later hlater
  obtain ⟨whole, hwhole, hwholed, hleads''⟩ := hc.exists_leads (before ++ later)
    fun input h => (List.mem_append.1 h).elim (hbefore input) (hlater input)
  refine ⟨front, behind, whole, hfront, hbehind, hwhole, ?_⟩
  have happend := Decoder.calls_append_of_error_none hlater hmade hok
  rw [← hwholed, ← hfrontd] at happend
  change whole.reading = { front.cursor.fresh.decoder.calls later with
    sights := front.reading.sights ++ (front.cursor.fresh.decoder.calls later).sights
    decoder := (front.cursor.fresh.decoder.calls later).decoder.returningTo c.initialOrder }
    at happend
  rw [← hbehindd] at happend
  have hdecoder := congrArg Reading.decoder happend
  refine ⟨congrArg Reading.sights happend, congrArg Reading.outcome happend, ?_⟩
  -- what is left behind the new cursor is left behind both
  have hleft : front.cursor.fresh.buf.length = c.buf.length - front.cursor.pos := by
    show (front.cursor.buf.drop _).length = _
    rw [hleads.buf_eq, List.length_drop]
  have hpos := hleads.pos_le
  have hpos' := hleads'.pos_le
  refine eq_of_decoder_eq hleads''.buf_eq (hleads''.buf_eq ▸ hleads''.pos_le) ?_ ?_
  · show front.cursor.pos + behind.cursor.pos ≤ c.buf.length
    omega
  · have hrest : behind.cursor.buf.drop behind.cursor.pos =
        c.buf.drop (front.cursor.pos + behind.cursor.pos) := by
      rw [hleads'.buf_eq]
      show (front.cursor.buf.drop _).drop _ = _
      rw [hleads.buf_eq, List.drop_drop]
    exact hdecoder.trans (congrArg (fun rest => Decoder.mk rest behind.cursor.order c.initialOrder
      behind.cursor.error behind.cursor.attached) hrest)

end Cursor

/-- **Decoding is local to the unread bytes.** If a row of calls that neither takes nor asks
for all that is left ends without a fault, then on every longer input it gives the same
replies without a fault, and leaves all that is new unread. And the calls behind a row that
has ended without a fault find what they would find at the start of the bytes which that row
has left, in the order then in force and with the arena then attached; a cursor, which has
kept the bytes that are read, goes on from its position as from there. -/
theorem decoding_is_local (order : ByteOrder) (input : List UInt8) :
    (∀ (calls : List ReadCall) (x : List UInt8), (∀ call ∈ calls, call.Local) →
      let reading := (Decoder.start order input).calls calls
      reading.decoder.error = none →
        (Decoder.start order (input ++ x)).calls calls =
            { sights := reading.sights.map (·.extended x.length)
              decoder := reading.decoder.extended x
              outcome := reading.outcome } ∧
          ∀ sight ∈ reading.sights, sight.error = none) ∧
    ∀ before later : List ReadCall, (∀ input', .reset input' ∉ before) →
      (∀ input', .reset input' ∉ later) →
      (Decoder.start order input).made before = before →
      let front := (Decoder.start order input).calls before
      front.decoder.error = none →
        (Decoder.start order input).calls (before ++ later) =
            { front.decoder.fresh.calls later with
              sights := front.sights ++ (front.decoder.fresh.calls later).sights
              decoder := (front.decoder.fresh.calls later).decoder.returningTo order } ∧
          (input.length < wordLimit → ∃ front behind whole,
            (Cursor.start order input).calls before = .ok front ∧
            front.cursor.fresh.calls later = .ok behind ∧
            (Cursor.start order input).calls (before ++ later) = .ok whole ∧
            whole.reading.sights = front.reading.sights ++ behind.reading.sights ∧
            whole.outcome = behind.outcome ∧
            whole.cursor = { behind.cursor with
              buf := input
              pos := front.cursor.pos + behind.cursor.pos
              initialOrder := order }) := by
  constructor
  · intro calls x hlocal reading hok
    exact Decoder.calls_extended x hlocal hok
  · intro before later hbefore hlater hmade front hok
    refine ⟨Decoder.calls_append_of_error_none hlater hmade hok, fun hlength => ?_⟩
    exact Cursor.Sound.calls_append ⟨Nat.zero_le _, hlength⟩ hbefore hlater hmade hok

/-- A delimited text and a switch of the order, with a second delimiter behind them; and
behind those a number that is cut short. -/
theorem decoding_is_local_delimited :
    let before : List ReadCall :=
      [.read (.text (.delimited [10]) true), .setOrder .littleEndian, .attach]
    let later : List ReadCall := [.read (.unsigned .two), .askRemaining, .read (.unsigned .four)]
    let input : List UInt8 := [104, 105, 10, 1, 2, 3]
    (∀ call ∈ before, call.Local) ∧
      ((Decoder.start .bigEndian input).calls before).decoder.error = none ∧
      (((Decoder.start .bigEndian (input ++ [10])).calls before).sights =
        ((Decoder.start .bigEndian input).calls before).sights.map (·.extended 1)) ∧
      ∃ front behind whole,
        (Cursor.start .bigEndian input).calls before = .ok front ∧
        front.cursor.fresh.calls later = .ok behind ∧
        (Cursor.start .bigEndian input).calls (before ++ later) = .ok whole ∧
        whole.reading.sights = front.reading.sights ++ behind.reading.sights := by
  intro before later input
  have hlocal : ∀ call ∈ before, call.Local := by simp [before, ReadCall.Local, Read.Local]
  refine ⟨hlocal, by decide, ?_, ?_⟩
  · have hlonger := ((decoding_is_local .bigEndian input).1 before [10] hlocal (by decide)).1
    exact congrArg Reading.sights hlonger
  · obtain ⟨front, behind, whole, hfront, hbehind, hwhole, hsights, -⟩ :=
      ((decoding_is_local .bigEndian input).2 before later (by simp [before]) (by simp [later])
        (by decide) (by decide)).2 (by decide)
    exact ⟨front, behind, whole, hfront, hbehind, hwhole, hsights⟩

end Wirepool
