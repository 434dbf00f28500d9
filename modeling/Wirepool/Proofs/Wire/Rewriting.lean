import Wirepool.Proofs.Wire.Finding
import Wirepool.Proofs.Wire.Verdict

/-!
# Writing again what was read

The values that were read from an input can be written again by the calls that
the reads answer to. This always succeeds, since every read that succeeds was in
front of a field, and it gives the input back just if the input was canonical.

The proof compares the two rows field by field. A field is never longer when it
is written again, so two rows of the same bytes must agree in every field: what
one field has lost no other one can make up for.
-/

namespace Wirepool

/-! ## Only one field is written again -/

/-- The frame in which an extent finds its payload. -/
def Extent.frame : Extent → Frame
  | .exactly _ | .rest => .bare
  | .sized size => .sized size
  | .counted => .counted
  | .delimited delimiter => .delimited delimiter

/-- **The field to write again** when a read has given a value. -/
def Field.rewritten? : Read → Value → Option Field
  | .skip count, .nothing => some (.skip count)
  | .flag, .flag value => some (.flag value)
  | .signed width, .number i => some (.signed width (.ofInt width.bits i))
  | .unsigned width, .number i => some (.unsigned width (.ofInt width.bits i))
  | .signedIn size, .number i => some (.signedIn size (.ofInt 64 i))
  | .unsignedIn size, .number i => some (.unsignedIn size (.ofInt 64 i))
  | .float32, .float32 value => some (.float32 value)
  | .float64, .float64 value => some (.float64 value)
  | .varSigned, .number i => some (.varSigned (.ofInt 64 i))
  | .varUnsigned, .number i => some (.varUnsigned (.ofInt 64 i))
  | .text extent _, .text s => some (.blob extent.frame (.text s))
  | .bytes .rest _, .bytes row => some (.tail row)
  | .bytes extent _, .bytes row => some (.blob extent.frame (.bytes row))
  | _, _ => none

/-- A field is the one to write again when its mirror has given its value. -/
theorem Field.rewritten?_mirror (field : Field) (copy : Bool) :
    rewritten? (field.mirror copy) field.value = some field := by
  cases field with
  | blob frame payload => cases payload <;> cases frame <;> rfl
  | _ => simp [rewritten?, mirror, value]

/-- **A read and its value determine the call** that they answer to. -/
theorem Mirrors.eq_of_value {call call' : Call} {read : ReadCall} (h : Mirrors call read)
    (h' : Mirrors call' read) (hvalue : call'.value = call.value) : call' = call := by
  cases h with
  | setOrder order => cases h'; rfl
  | put field copy =>
    generalize hread : ReadCall.read (field.mirror copy) = read at h'
    cases h' with
    | setOrder order => cases hread
    | put field' copy' =>
      have hmirror : field.mirror copy = field'.mirror copy' := ReadCall.read.inj hread
      have hfield := field.rewritten?_mirror copy
      rw [hmirror, ← show field'.value = field.value from hvalue,
        field'.rewritten?_mirror copy'] at hfield
      rw [Option.some.inj hfield]

/-- A row of reads and its values determine the row of calls. -/
theorem eq_of_mirrors {calls calls' : List Call} {reads : List ReadCall}
    (h : List.Forall₂ Mirrors calls reads) (h' : List.Forall₂ Mirrors calls' reads)
    (hvalues : calls'.map Call.value = calls.map Call.value) : calls' = calls := by
  induction h generalizing calls' with
  | nil => cases h'; rfl
  | cons hcall _ ih =>
    cases h' with
    | cons hcall' hothers =>
      rw [List.map_cons, List.map_cons, List.cons.injEq] at hvalues
      rw [hcall.eq_of_value hcall' hvalues.1, ih hothers hvalues.2]

/-! ## Rows of reads -/

/-- **A row of reads finds canonical input**, each of them where it stands. -/
def Decoder.Canonical : Decoder → List ReadCall → Prop
  | _, [] => True
  | d, .read read :: reads => read.Canonical d.rest ∧ (d.read read).2.Canonical reads
  | d, call :: reads =>
    match d.call call with
    | .ok (_, d) => d.Canonical reads
    | .error _ => True

/-- Rows of two parts are equal just if their parts are, when the parts of the one are
not longer than those of the other. -/
theorem append_eq_append_iff_of_le {front back front' back' : List UInt8}
    (hfront : front.length ≤ front'.length) (hback : back.length ≤ back'.length) :
    front ++ back = front' ++ back' ↔ front = front' ∧ back = back' := by
  refine ⟨fun heq => ?_, fun ⟨hf, hb⟩ => by rw [hf, hb]⟩
  have hlength := congrArg List.length heq
  rw [List.length_append, List.length_append] at hlength
  exact List.append_inj heq (by omega)

/-- A field that has pieces can be sent, and its image is theirs. -/
theorem Field.image_of_pieces {o : ByteOrder} {field : Field} {pieces : List Piece}
    (h : field.pieces o = .ok pieces) :
    field.Sendable ∧ field.image o = Piece.image pieces := by
  have hcases := field.pieces_cases o
  split at hcases
  · rw [h] at hcases
    cases hcases
  · next hfault =>
    obtain ⟨pieces', hpieces, hparts⟩ := hcases
    rw [h] at hpieces
    cases hpieces
    exact ⟨fault?_eq_none_iff.mp hfault, by rw [image, ← hparts, Piece.image, List.flatMap_def]⟩

namespace Decoder

/-- **A row of reads that succeeds was in front of a row of entries** to which it
answers. It took at least as many bytes as their image has, and just the image if it
found canonical input. -/
theorem exists_entries {reads : List ReadCall} (hreads : ∀ read ∈ reads, read.Answers)
    {d : Decoder} (hok : (d.calls reads).decoder.error = none) :
    ∃ entries row, List.Forall₂ Mirrors (entries.map Entry.call) reads ∧
      (entries.map Entry.call).map Call.value =
        (d.calls reads).sights.map (fun sight => sight.reply.value) ∧
      (∀ entry ∈ entries, entry.Sendable) ∧
      d.rest = row ++ (d.calls reads).decoder.rest ∧
      (Entry.image d.order entries).length ≤ row.length ∧
      (Entry.image d.order entries = row ↔ d.Canonical reads) := by
  induction reads generalizing d with
  | nil =>
    exact ⟨[], [], .nil, rfl, nofun, rfl, Nat.le_refl _, iff_of_true rfl trivial⟩
  | cons read reads ih =>
    have he := error_eq_none_of_calls hreads hok
    obtain ⟨⟨call, hcall⟩, hothers⟩ := List.forall_mem_cons.1 hreads
    cases hcall with
    | setOrder order =>
      obtain ⟨entries, row, hmirrors, hvalues, hsendable, hrest, hlength, himage⟩ :=
        ih hothers (d := d.setOrder order) hok
      exact ⟨.order order :: entries, row, .cons (.setOrder order) hmirrors,
        congrArg (Value.order order :: ·) hvalues, List.forall_mem_cons.2 ⟨trivial, hsendable⟩,
        hrest, hlength, himage⟩
    | put field' copy' =>
      generalize field'.mirror copy' = read at hok hreads
      have hread : (d.read read).2.error = none := error_eq_none_of_calls hothers hok
      obtain ⟨field, pieces, form, following, h⟩ :=
        exists_finds he (hreads _ List.mem_cons_self) hread
      obtain ⟨copy, rfl⟩ := h.mirror_eq
      obtain ⟨hfield, hform⟩ := Field.image_of_pieces h.pieces_eq
      rw [calls_read, h.decoder_eq] at hok
      obtain ⟨entries, row, hmirrors, hvalues, hsendable, hrest, hlength, himage⟩ := ih hothers hok
      have hle : (field.image d.order).length ≤ form.length := hform ▸ h.length_le
      refine ⟨.field field :: entries, form ++ row, .cons (.put field copy) hmirrors, ?_,
        List.forall_mem_cons.2 ⟨hfield, hsendable⟩, ?_, ?_, ?_⟩
      · rw [calls_read, h.decoder_eq]
        exact congrArg₂ List.cons h.value_eq.symm hvalues
      · rw [calls_read, h.decoder_eq, h.rest_eq, List.append_assoc]
        exact congrArg (form ++ ·) hrest
      · rw [List.length_append]
        exact (List.length_append ..).trans_le (Nat.add_le_add hle hlength)
      · rw [Canonical, h.decoder_eq, ← h.image_eq_iff, ← hform, ← himage]
        exact append_eq_append_iff_of_le hle hlength

end Decoder

/-! ## The calls are made -/

/-- A caller that makes a row of entries takes the turn of this row. -/
theorem Script.turn_map_call (entries : List Entry) (fallible : Bool) (e : Encoder) :
    Script.turn ⟨entries.map Entry.call, fallible⟩ e = ⟨entries, .ok ()⟩ := by
  have hmade : entriesOf (entries.map Entry.call) e = entries ∧
      (runCalls (entries.map Entry.call) e).outcome = .ok () := by
    induction entries generalizing e with
    | nil => exact ⟨rfl, rfl⟩
    | cons entry entries ih =>
      cases entry with
      | field f =>
        obtain ⟨hentries, houtcome⟩ := ih (e.put f)
        exact ⟨congrArg (Entry.field f :: ·) hentries, houtcome⟩
      | order o =>
        obtain ⟨hentries, houtcome⟩ := ih (e.setOrder o)
        exact ⟨congrArg (Entry.order o :: ·) hentries, houtcome⟩
  refine congrArg₂ Turn.mk hmade.1 ?_
  cases fallible with
  | true => exact hmade.2
  | false => rfl

/-- **A row of entries that can be sent is encoded**, if there is room for its image. -/
theorem Script.verdict_map_call {order : ByteOrder} {entries : List Entry} {room : Option Nat}
    (hsendable : ∀ entry ∈ entries, entry.Sendable)
    (hword : (Entry.image order entries).length < wordLimit)
    (hroom : room.any (· < (Entry.image order entries).length) = false) (fallible : Bool) :
    Script.verdict ⟨entries.map Entry.call, fallible⟩ order room =
      .ok (Entry.image order entries) := by
  have hmeasure : (Script.measure ⟨entries.map Entry.call, fallible⟩ order).length =
      .ok (Entry.image order entries).length := by
    have hfate := Entry.fate_eq_ok_iff.mpr ⟨hsendable, rfl, Nat.le_sub_one_of_lt hword⟩
    rw [length_measure, turn_map_call]
    show ((Entry.fate (wordLimit - 1) order entries).mapError Failure.fault).map List.length = _
    rw [hfate]
    rfl
  rw [verdict_of_measured hmeasure, hroom, if_neg Bool.false_ne_true, turn_map_call]
  exact Turn.filling_eq_ok_iff.mpr ⟨rfl, hsendable, rfl, rfl⟩

/-- A row of entries that can be sent is encoded into memory that holds its image. -/
theorem Script.encodeInto_map_call {order : ByteOrder} {entries : List Entry}
    {memory : List UInt8} (hsendable : ∀ entry ∈ entries, entry.Sendable)
    (hword : (Entry.image order entries).length < wordLimit)
    (hroom : (Entry.image order entries).length ≤ memory.length) (fallible : Bool) :
    let encoded := Script.encodeInto ⟨entries.map Entry.call, fallible⟩ order memory
    encoded.1.result = .ok (Entry.image order entries).length ∧
      encoded.2 = Entry.image order entries ++ memory.drop (Entry.image order entries).length := by
  have hverdict : Script.verdict ⟨entries.map Entry.call, fallible⟩ order (some memory.length) =
      .ok (Entry.image order entries) :=
    verdict_map_call hsendable hword (by simpa using hroom) fallible
  obtain ⟨hresult, hmemory⟩ := encodeInto_verdict ⟨entries.map Entry.call, fallible⟩ order memory
  rw [hverdict] at hresult
  exact ⟨hresult, hmemory _ hverdict⟩

/-- An input that is decoded to its end by reads that all answer to a call is all read,
without a fault. -/
theorem finish_of_decode {order : ByteOrder} {input : List UInt8} {reads : List ReadCall}
    {fallible : Bool} (hreads : ∀ read ∈ reads, read.Answers)
    (haccepted : (decode order input reads fallible).2 = .ok ()) :
    ((Decoder.start order input).calls reads).decoder.error = none ∧
      ((Decoder.start order input).calls reads).decoder.rest = [] := by
  rw [decode_of_answers hreads, Decoder.finish] at haccepted
  split at haccepted
  · cases haccepted
  · next hnone =>
    split at haccepted
    · next hrest => exact ⟨hnone, List.isEmpty_iff.mp hrest⟩
    · cases haccepted

/-- **What was read can be written again.** Whatever input a row of reads and changes
of the byte order accepts to its end, there is just one row of calls to which they
answer with the values that were read. Encoding it in the same order succeeds. The
message is not longer than the input, and it is the input just if the reads have
found canonical input: every varint in its shortest form, every truth value 0 or 1,
and zeros where bytes were ignored.

That the input has a length that can be expressed is all that is asked of it. -/
theorem rewriting_restores_canonical {order : ByteOrder} {input : List UInt8}
    {reads : List ReadCall} {fallible : Bool} (hinput : input.length < wordLimit)
    (hreads : ∀ read ∈ reads, read.Answers)
    (haccepted : (decode order input reads fallible).2 = .ok ()) :
    let values := (decode order input reads fallible).1.sights.map (fun sight => sight.reply.value)
    (∃! calls, List.Forall₂ Mirrors calls reads ∧ calls.map Call.value = values) ∧
    ∀ script : Script, List.Forall₂ Mirrors script.calls reads →
      script.calls.map Call.value = values →
      ∃ message, script.verdict order none = .ok message ∧
        (∀ memory : List UInt8, message.length ≤ memory.length →
          (script.encodeInto order memory).1.result = .ok message.length ∧
          (script.encodeInto order memory).2 = message ++ memory.drop message.length) ∧
        message.length ≤ input.length ∧
        (message = input ↔ (Decoder.start order input).Canonical reads) := by
  intro values
  obtain ⟨hkept, hempty⟩ := finish_of_decode hreads haccepted
  obtain ⟨entries, row, hmirrors, hvalues, hsendable, hrest, hlength, himage⟩ :=
    Decoder.exists_entries hreads hkept
  obtain rfl : input = row := by rw [hempty, List.append_nil] at hrest; exact hrest
  replace hvalues : (entries.map Entry.call).map Call.value = values := by
    rw [hvalues]
    show _ = List.map _ (decode order input reads fallible).1.sights
    rw [decode_of_answers hreads]
  have hunique : ∀ calls, List.Forall₂ Mirrors calls reads → calls.map Call.value = values →
      calls = entries.map Entry.call := fun calls hcalls hsame =>
    eq_of_mirrors hmirrors hcalls (hsame.trans hvalues.symm)
  refine ⟨⟨_, ⟨hmirrors, hvalues⟩, fun calls hcalls => hunique calls hcalls.1 hcalls.2⟩, ?_⟩
  rintro ⟨calls, fallible'⟩ hcalls hsame
  obtain rfl := hunique calls hcalls hsame
  have hword := Nat.lt_of_le_of_lt hlength hinput
  exact ⟨Entry.image order entries, Script.verdict_map_call hsendable hword rfl fallible',
    fun memory hroom => Script.encodeInto_map_call hsendable hword hroom fallible',
    hlength, himage⟩

/-- A varint with a group too many, an odd truth value and a text behind its length: the
values are written again, in the order of the input, and the message is not the
input. -/
theorem rewriting_restores_canonical_padded :
    (decode .littleEndian [172, 130, 0, 7, 1, 0, 97] [.read .varUnsigned, .read .flag,
        .read (.text (.sized 2) true)] true).2 = .ok () ∧
      ∃ message, Script.verdict ⟨[.put (.varUnsigned 300), .put (.flag false),
          .put (.blob (.sized 2) (.text "a"))], true⟩ .littleEndian none = .ok message ∧
        message.length ≤ 7 ∧ message ≠ [172, 130, 0, 7, 1, 0, 97] := by
  have hmirrors : List.Forall₂ Mirrors [.put (.varUnsigned 300), .put (.flag false),
      .put (.blob (.sized 2) (.text "a"))] [.read .varUnsigned, .read .flag,
      .read (.text (.sized 2) true)] :=
    .cons (.put (.varUnsigned 300) false) (.cons (.put (.flag false) false)
      (.cons (.put (.blob (.sized 2) (.text "a")) true) .nil))
  have haccepted : (decode .littleEndian [172, 130, 0, 7, 1, 0, 97] [.read .varUnsigned,
      .read .flag, .read (.text (.sized 2) true)] true).2 = .ok () := by decide
  obtain ⟨message, hverdict, -, hlength, hcanonical⟩ :=
    (rewriting_restores_canonical (by decide) (answers_of_mirrors hmirrors) haccepted).2
      ⟨_, true⟩ hmirrors (by decide)
  refine ⟨haccepted, message, hverdict, hlength, fun heq => ?_⟩
  -- the truth value was not 0 or 1
  obtain ⟨-, hflag, -⟩ := hcanonical.mp heq
  exact absurd (hflag 7 (by decide)) (by decide)

end Wirepool
