import Wirepool.Proofs.Wire.Running

/-!
# Reading untrusted bytes is safe

Nothing is known of the bytes that a decoder is given: a length in front of a payload may
be any word, a number of variable length may never end, and a delimiter may be longer than
the input. Yet no row of calls stops the program, as each call runs through.

What is read is safe to use as well. A decoder has lost the bytes in front of those it
reads, so that a payload is a piece of the input can only be said of a cursor: it is a
piece of just those bytes which the read goes past, and what is left of them is its length
in front of it or its delimiter behind it.
-/

namespace Wirepool

/-! ## Where payloads are -/

/-- **How a payload stands in the bytes that a read takes**: between those in front of it
and those behind it, which depend on what says where it ends. -/
def Extent.Frames (order : ByteOrder) (front row behind following : List UInt8) : Extent → Prop
  | .exactly count => front = [] ∧ behind = [] ∧ row.length = count
  | .sized size => behind = [] ∧ front.length = size ∧
    ∃ w : Width, w.bytes = size ∧ (w.decode order front).toNat = row.length
  | .counted => behind = [] ∧ Varint.decode front = .ok (row.length, [])
  | .delimited delimiter => front = [] ∧ behind = delimiter ∧ delimiter ≠ [] ∧
    Delimiter.Ends delimiter row
  | .rest => front = [] ∧ behind = [] ∧ following = []

/-- **A payload that is found is a piece of the unread bytes**, and what is taken with it
is its length or its delimiter. -/
theorem Decoder.frames_of_payload {d next : Decoder} {extent : Extent} {row : List UInt8}
    (h : d.payload extent = (some row, next)) :
    ∃ front behind, d.rest = front ++ row ++ behind ++ next.rest ∧
      extent.Frames d.order front row behind next.rest := by
  have he : d.error = none := by
    rcases he : d.error with _ | fault
    · rfl
    · rw [payload_of_error he] at h
      cases h
  cases extent with
  | exactly count =>
    obtain ⟨-, hlength, hrest, -⟩ := of_take_eq_some h
    exact ⟨[], [], by simpa using hrest, rfl, rfl, hlength⟩
  | sized size =>
    obtain ⟨hfront, hlength, hbehind, -⟩ := of_take_eq_some (d := (d.unsignedIn size).2) h
    obtain ⟨w, n, following, hw, hrest, hsized⟩ :=
      exists_of_sized he (error_sized_of_unsignedIn hfront)
    obtain ⟨rfl, -⟩ := Width.bytes_of_ofBytes? hw
    have hread : d.unsignedIn w.bytes = (n.toNat, { d with rest := following }) := by
      rw [unsignedIn, hsized]
    change row.length = (d.unsignedIn w.bytes).1 at hlength
    rw [hread] at hlength hbehind
    dsimp only at hlength hbehind
    refine ⟨w.encode d.order n, [], ?_, rfl, Width.length_encode .., w, rfl, ?_⟩
    · rw [hrest, hbehind, List.append_nil, List.append_assoc]
    · rw [Width.decode_encode, hlength]
  | counted =>
    obtain ⟨hfront, hlength, hbehind, -⟩ := of_take_eq_some (d := d.varUnsigned.2) h
    rcases hdecode : Varint.decode d.rest with failure | ⟨n, following⟩
    · rw [varUnsigned, he, hdecode] at hfront
      cases failure <;> cases hfront.symm.trans (error_fail he _)
    · obtain ⟨front, hrest, hnumber⟩ := Varint.exists_row_of_decodeFrom hdecode
      change row.length = d.varUnsigned.1 at hlength
      rw [varUnsigned_of_decode he hdecode] at hlength hbehind
      dsimp only at hlength hbehind
      refine ⟨front, [], ?_, rfl, ?_⟩
      · rw [hrest, hbehind, List.append_nil, List.append_assoc]
      · rw [hlength]
        exact hnumber
  | delimited delimiter =>
    simp only [payload, delimited, he] at h
    split at h
    · cases h
    next hnonempty =>
    split at h
    · next position hfind =>
      cases h
      obtain ⟨hle, ⟨following, hthere⟩, -⟩ := (Delimiter.find?_eq_some_iff _ _ _).1 hfind
      have hrest : d.rest = d.rest.take position ++ delimiter ++ following := by
        rw [List.append_assoc, hthere, List.take_append_drop]
      have hdrop : d.rest.drop (position + delimiter.length) = following := by
        rw [← List.drop_drop, ← hthere, List.drop_left]
      have hlength : (d.rest.take position).length = position := List.length_take_of_le hle
      refine ⟨[], delimiter, ?_, rfl, rfl, by simpa using hnonempty, ?_⟩
      · rw [hdrop]
        exact hrest
      · rw [← Delimiter.find?_append_eq_some_iff following, ← hrest, hlength]
        exact hfind
    · cases h
  | rest =>
    obtain ⟨-, hlength, hrest, -⟩ := of_take_eq_some h
    refine ⟨[], [], by simpa using hrest, rfl, rfl, ?_⟩
    rw [hrest, List.length_append] at hlength
    exact List.length_eq_zero_iff.1 (by omega)

/-- The payload that a read asks for, if it asks for one. -/
def Read.extent? : Read → Option Extent
  | .text extent _ | .bytes extent _ => some extent
  | _ => none

/-- **A text or a row of bytes that is read without a fault is the payload that was found**,
and one that is read with a fault is empty. -/
theorem Decoder.payload_of_read {d : Decoder} {read : Read} {extent : Extent}
    (hextent : read.extent? = some extent) :
    ((d.read read).2.error = none →
        d.payload extent = (some (d.read read).1.value.row, (d.read read).2)) ∧
      ((d.read read).2.error ≠ none → (d.read read).1.value.row = []) := by
  cases read with
  | text extent' copy =>
    obtain rfl := Option.some.inj hextent
    have hfound := d.isSome_payload extent'
    rw [Decoder.read]
    generalize d.payload extent' = found at hfound
    obtain ⟨_ | row, next⟩ := found
    · exact ⟨fun hnone => by simp [show next.error = none from hnone] at hfound, fun _ => rfl⟩
    · have herror : next.error = none := by simpa using hfound
      dsimp only
      rcases htext : text? row with _ | s
      · have hfault := error_fail herror .invalidText
        exact ⟨fun hnone => absurd (hfault.symm.trans hnone) (Option.some_ne_none _), fun _ => rfl⟩
      · rw [eq_utf8Bytes_of_text? htext]
        exact ⟨fun _ => rfl, fun hne => absurd herror hne⟩
  | bytes extent' copy =>
    obtain rfl := Option.some.inj hextent
    have hfound := d.isSome_payload extent'
    rw [Decoder.read]
    generalize d.payload extent' = found at hfound
    obtain ⟨_ | row, next⟩ := found
    · exact ⟨fun hnone => by simp [show next.error = none from hnone] at hfound, fun _ => rfl⟩
    · have herror : next.error = none := by simpa using hfound
      exact ⟨fun _ => rfl, fun hne => absurd herror hne⟩
  | _ => cases hextent

/-- A read that copies is a read of a payload. -/
theorem Read.exists_extent_of_copies {read : Read} (h : read.copies = true) :
    ∃ extent, read.extent? = some extent := by
  cases read with
  | text extent copy => exact ⟨extent, rfl⟩
  | bytes extent copy => exact ⟨extent, rfl⟩
  | _ => cases h

/-- **What an arena is to copy is a piece of the unread bytes.** -/
theorem Decoder.length_le_of_toArena {d : Decoder} {read : Read} {row : List UInt8}
    (h : (d.read read).1.toArena = some row) : row.length ≤ d.rest.length := by
  have hsettles := (d.settles_read read).toArena_eq
  rw [h] at hsettles
  split at hsettles
  · next hcopied =>
    obtain ⟨hcopies, -, hok⟩ := hcopied
    obtain ⟨extent, hextent⟩ := Read.exists_extent_of_copies hcopies
    have hfound := (payload_of_read hextent).1 hok
    rw [← Option.some.inj hsettles] at hfound
    obtain ⟨front, behind, hrest, -⟩ := frames_of_payload hfound
    have hlength := congrArg List.length hrest
    simp only [List.length_append] at hlength
    omega
  · cases hsettles

/-! ## Rows of calls -/

/-- **A step that is safe.** -/
structure Step.Safe (step : Step) : Prop where
  /-- The position is inside the input, and what is left is what is behind it. -/
  pos_le : step.after.pos ≤ step.after.buf.length
  left_eq : step.left = step.after.buf.length - step.after.pos
  /-- The input stays the same until there is a new one, and its bytes are not read twice. -/
  stays (hcall : ∀ input, step.call ≠ .reset input) :
    step.after.buf = step.before.buf ∧ step.before.pos ≤ step.after.pos
  /-- So only a new input has more bytes to be read. -/
  left_le (hcall : ∀ input, step.call ≠ .reset input) :
    step.left ≤ step.before.buf.length - step.before.pos
  /-- A payload is a piece of what is taken. -/
  payload (read : Read) (extent : Extent) : step.call = .read read → read.extent? = some extent →
    step.after.error = none →
      ∃ front behind, step.consumed = front ++ step.reply.value.row ++ behind ∧
        extent.Frames step.before.order front step.reply.value.row behind
          (step.after.buf.drop step.after.pos)
  /-- A read that fails gives no byte of it. -/
  failed (read : Read) (extent : Extent) : step.call = .read read → read.extent? = some extent →
    step.after.error ≠ none → step.reply.value.row = []

/-- **Steps that follow one another** from one cursor to another. -/
def Connected : Cursor → List Step → Cursor → Prop
  | c, [], last => last = c
  | c, step :: steps, last => step.before = c ∧ Connected step.after steps last

namespace Cursor

/-- The bytes that a cursor goes past are those its decoder no longer has. -/
theorem consumed_of_leads {c next : Cursor} (h : c.Leads next) {taken : List UInt8}
    (hrest : c.decoder.rest = taken ++ next.decoder.rest) :
    (c.buf.drop c.pos).take (next.pos - c.pos) = taken := by
  have hbuf := h.buf_eq
  have hle := h.le_pos
  have hpos := h.pos_le
  have hlength := congrArg List.length hrest
  simp only [decoder, List.length_append, List.length_drop, hbuf] at hlength
  have hcount : next.pos - c.pos = taken.length := by omega
  rw [show c.buf.drop c.pos = _ from hrest, hcount, List.take_left]

/-- **Every step of a cursor is safe.** -/
theorem safe_of_call {c next : Cursor} {call : ReadCall} {reply : Reply}
    (hcall : c.decoder.call call = .ok (reply, next.decoder)) (hnext : next.Sound)
    (hleads : (∀ input, call ≠ .reset input) → c.Leads next) :
    Step.Safe ⟨call, c, reply, next, next.decoder.rest.length⟩ where
  pos_le := hnext.pos_le
  left_eq := List.length_drop ..
  stays hstays := ⟨(hleads hstays).buf_eq, (hleads hstays).le_pos⟩
  left_le hstays := by
    have hle := (hleads hstays).le_pos
    show (next.buf.drop next.pos).length ≤ _
    rw [(hleads hstays).buf_eq, List.length_drop]
    exact Nat.sub_le_sub_left hle _
  payload read extent hread hextent hok := by
    obtain rfl : call = .read read := hread
    have hdecoder : c.decoder.read read = (reply, next.decoder) := Except.ok.inj hcall
    have hfound := (Decoder.payload_of_read (d := c.decoder) hextent).1
    rw [hdecoder] at hfound
    obtain ⟨front, behind, hrest, hframes⟩ := Decoder.frames_of_payload (hfound hok)
    exact ⟨front, behind, consumed_of_leads (hleads nofun) hrest, hframes⟩
  failed read extent hread hextent hfail := by
    obtain rfl : call = .read read := hread
    have hdecoder : c.decoder.read read = (reply, next.decoder) := Except.ok.inj hcall
    have hnone := (Decoder.payload_of_read (d := c.decoder) hextent).2
    rw [hdecoder] at hnone
    exact hnone hfail

/-- **A row of calls runs through**, step by safe step, and reads what the decoder reads. -/
theorem Sound.calls_eq {c : Cursor} (hc : c.Sound) (calls : List ReadCall)
    (hcalls : ∀ input, .reset input ∈ calls → input.length < wordLimit) :
    ∃ trail, c.calls calls = .ok trail ∧ trail.reading = c.decoder.calls calls ∧
      trail.steps.map Step.call = c.decoder.made calls ∧
      Connected c trail.steps trail.cursor ∧ ∀ step ∈ trail.steps, step.Safe := by
  induction calls generalizing c with
  | nil => exact ⟨⟨[], c, .ok ()⟩, rfl, rfl, rfl, rfl, List.forall_mem_nil _⟩
  | cons call calls ih =>
    rcases hc.call_eq call fun input h => hcalls input (h ▸ List.mem_cons_self) with
      ⟨outcome, hcall, hdecoder⟩ | ⟨reply, next, hcall, hdecoder, hnext, hleads⟩
    · obtain ⟨hcallsd, hmade⟩ := Decoder.calls_cons_of_error hdecoder calls
      refine ⟨⟨[], c, outcome⟩, ?_, ?_, ?_, rfl, List.forall_mem_nil _⟩
      · rw [Cursor.calls, hcall]
        rfl
      · rw [hcallsd]
        rfl
      · rw [hmade]
        rfl
    · obtain ⟨hcallsd, hmade⟩ := Decoder.calls_cons_of_ok hdecoder calls
      obtain ⟨trail, htrail, hreading, hsteps, hconnected, hsafe⟩ :=
        ih hnext fun input h => hcalls input (List.mem_cons_of_mem _ h)
      refine ⟨{ trail with
        steps := ⟨call, c, reply, next, next.decoder.rest.length⟩ :: trail.steps }, ?_, ?_, ?_,
        ⟨rfl, hconnected⟩, List.forall_mem_cons.2 ⟨safe_of_call hdecoder hnext hleads, hsafe⟩⟩
      · simp only [Cursor.calls, hcall, hnext.length_eq, htrail, bind, Except.bind, pure,
          Except.pure]
      · rw [hcallsd, ← hreading]
        rfl
      · rw [hmade, ← hsteps]
        rfl

/-- **What an arena is to copy is a piece of an input**, so no copy is longer than the inputs
are. -/
theorem Sound.length_lt_of_mem_toArena {c : Cursor} (hc : c.Sound) {limit : Nat}
    (hlimit : limit ≤ wordLimit) (hrest : c.decoder.rest.length < limit) {calls : List ReadCall}
    (hcalls : ∀ input, .reset input ∈ calls → input.length < limit) :
    ∀ row ∈ (c.decoder.calls calls).toArena, row.length < limit := by
  induction calls generalizing c with
  | nil => exact List.forall_mem_nil _
  | cons call calls ih =>
    have hword (input : List UInt8) (h : call = .reset input) : input.length < wordLimit :=
      (hcalls input (h ▸ List.mem_cons_self)).trans_le hlimit
    rcases hc.call_eq call hword with
      ⟨outcome, -, hdecoder⟩ | ⟨reply, next, -, hdecoder, hnext, hleads⟩
    · rw [(Decoder.calls_cons_of_error hdecoder calls).1]
      exact List.forall_mem_nil _
    · have hothers : ∀ row ∈ (next.decoder.calls calls).toArena, row.length < limit := by
        refine ih hnext ?_ fun input h => hcalls input (List.mem_cons_of_mem _ h)
        by_cases hreset : ∃ input, call = .reset input
        · obtain ⟨input, rfl⟩ := hreset
          have hinput : input = next.decoder.rest :=
            congrArg (fun answer => answer.2.rest) (Except.ok.inj hdecoder)
          rw [← hinput]
          exact hcalls input List.mem_cons_self
        · have hle := (safe_of_call hdecoder hnext hleads).left_le fun input h => hreset ⟨input, h⟩
          exact (hle.trans_eq (List.length_drop ..).symm).trans_lt hrest
      have hthis (row : List UInt8) (hrow : reply.toArena = some row) : row.length < limit := by
        by_cases hread : ∃ read, call = .read read
        · obtain ⟨read, rfl⟩ := hread
          have heq : c.decoder.read read = (reply, next.decoder) := Except.ok.inj hdecoder
          exact (Decoder.length_le_of_toArena (by rw [heq]; exact hrow)).trans_lt hrest
        · rw [Decoder.toArena_call (fun read h => hread ⟨read, h⟩) hdecoder] at hrow
          cases hrow
      intro row hrow
      rw [(Decoder.calls_cons_of_ok hdecoder calls).1, Reading.toArena, List.mem_filterMap] at hrow
      obtain ⟨sight, hsight, hrow⟩ := hrow
      rcases List.mem_cons.1 hsight with rfl | hsight
      · exact hthis row hrow
      · exact hothers row (List.mem_filterMap.2 ⟨sight, hsight, hrow⟩)

end Cursor

/-- **Decoding untrusted bytes is safe.** On any input of a length that a word can say, and
for any row of calls with any arguments, the arithmetic of the reader goes wrong nowhere. It
reads what the decoder reads, and on the way the position stays inside the input, only a new
input has more bytes to be read, and each text or row of bytes is a piece of just those bytes
that its read takes, between the length in front of it or the delimiter behind it. -/
theorem decoding_is_safe (order : ByteOrder) (input : List UInt8) (calls : List ReadCall)
    (hinput : input.length < wordLimit)
    (hcalls : ∀ input', .reset input' ∈ calls → input'.length < wordLimit) :
    ∃ trail, (Cursor.start order input).calls calls = .ok trail ∧
      trail.reading = (Decoder.start order input).calls calls ∧
      trail.steps.map Step.call = (Decoder.start order input).made calls ∧
      Connected (Cursor.start order input) trail.steps trail.cursor ∧
      ∀ step ∈ trail.steps, step.Safe :=
  Cursor.Sound.calls_eq ⟨Nat.zero_le _, hinput⟩ calls hcalls

/-- A length of all the bits of a word, a number that never ends and a delimiter that is
longer than the input, one after another. -/
theorem decoding_is_safe_hostile :
    let input : List UInt8 := List.replicate 9 255 ++ [1, 65]
    let calls : List ReadCall :=
      [.read (.bytes .counted false), .reset (List.replicate 12 255), .read .varUnsigned,
        .reset [66], .read (.bytes (.delimited [66, 66]) true)]
    input.length < wordLimit ∧
      (∀ input', .reset input' ∈ calls → input'.length < wordLimit) ∧
      ∃ trail, (Cursor.start .bigEndian input).calls calls = .ok trail ∧
        trail.reading = (Decoder.start .bigEndian input).calls calls ∧
        trail.steps.map Step.call = (Decoder.start .bigEndian input).made calls ∧
        Connected (Cursor.start .bigEndian input) trail.steps trail.cursor ∧
        ∀ step ∈ trail.steps, step.Safe := by
  have hinput : (List.replicate 9 255 ++ [1, 65] : List UInt8).length < wordLimit := by decide
  refine ⟨hinput, by simp [wordLimit], decoding_is_safe .bigEndian _ _ hinput ?_⟩
  simp [wordLimit]

end Wirepool
