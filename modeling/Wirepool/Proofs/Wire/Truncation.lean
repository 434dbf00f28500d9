import Wirepool.Proofs.Wire.Kept
import Wirepool.Proofs.Wire.Lockstep

/-!
# A message that is cut short

A message of which only a front part has arrived must not be taken for a shorter
message. The cut can fall anywhere: into a number, into a length in front of a
payload, into the payload, or between the bytes of its delimiter. This module
shows that the mirror of the field that is cut finds too few bytes in all of
them, and no other fault.

Two framings make this more than a count of bytes. The front part of a varint
announces another byte in every byte it has, so it never ends. And a delimiter
that ends its payload does not occur in any front part of the two, because an
occurrence there would be an earlier one.

The fields in front of the cut are read as if nothing were missing, and a
decoder that has kept a fault stands still. So the fault of the field that is
cut is the verdict on the message.
-/

namespace Wirepool

/-- A front part of two rows ends in the first one, or is all of it and a front part
of the second one. -/
theorem cases_of_prefix_append {row front back : List UInt8} (h : row <+: front ++ back) :
    (row <+: front ∧ row.length < front.length) ∨
      ∃ following, row = front ++ following ∧ following <+: back := by
  rcases Nat.lt_or_ge row.length front.length with hlt | hge
  · exact .inl ⟨List.prefix_of_prefix_length_le h (List.prefix_append _ _) hlt.le, hlt⟩
  · obtain ⟨following, rfl⟩ := List.prefix_of_prefix_length_le (List.prefix_append _ _) h hge
    exact .inr ⟨following, rfl, (List.prefix_append_right_inj front).mp h⟩

/-! ## The front part of a varint -/

namespace Varint

/-- The groups of a number that are all announced to be followed by another one
do not end. -/
theorem decodeFrom_of_cut (more : Nat) {before n : Nat} {row : List UInt8}
    (hmore : n.log2 ≤ more) (hword : n * 128 ^ before < 2 ^ 64) (hrow : row <+: groups more n)
    (hshort : row.length < (groups more n).length) :
    decodeFrom before row = .error .truncated := by
  induction more generalizing before n row with
  | zero =>
    obtain rfl : row = [] := List.length_eq_zero_iff.mp (Nat.lt_one_iff.mp hshort)
    rfl
  | succ more ih =>
    unfold groups at hrow hshort
    split at hrow
    · next hlt =>
      rw [if_pos hlt] at hshort
      obtain rfl : row = [] := List.length_eq_zero_iff.mp (Nat.lt_one_iff.mp hshort)
      rfl
    · next hge =>
      rw [if_neg hge] at hshort
      cases row with
      | nil => rfl
      | cons b row =>
        obtain ⟨rfl, hothers⟩ := List.cons_prefix_cons.mp hrow
        have hplace := place_lt_of_more (Nat.le_of_not_lt hge) hword
        have hlog := log2_div_group (Nat.le_of_not_lt hge)
        rw [decodeFrom, toNat_more, if_neg (by rw [maxLength]; omega), if_neg (by omega),
          ih (by omega) (next_group_lt hword) hothers (Nat.lt_of_succ_lt_succ hshort)]

/-- **No proper front part of a varint is one.** -/
theorem decode_of_cut {n : Nat} (hn : n < wordLimit) {row : List UInt8}
    (hrow : row <+: encode n) (hshort : row.length < (encode n).length) :
    decode row = .error .truncated :=
  decodeFrom_of_cut _ (Nat.le_refl _) (by simpa [wordLimit] using hn) hrow hshort

end Varint

/-! ## The front part of a delimited payload -/

namespace Delimiter

/-- **A delimiter that ends its payload occurs in no proper front part of the
two.** An occurrence there would start in front of the payload's end. -/
theorem find?_of_cut {d payload row : List UInt8} (hends : Ends d payload)
    (hrow : row <+: payload ++ d) (hshort : row.length < (payload ++ d).length) :
    find? d row = none := by
  rw [Option.eq_none_iff_forall_ne_some]
  intro p hfound
  obtain ⟨hp, hthere, -⟩ := (find?_eq_some_iff d row p).mp hfound
  have hlength := hthere.length_le
  rw [List.length_drop] at hlength
  rw [List.length_append] at hshort
  obtain ⟨missing, hmissing⟩ := hrow
  refine hends p (by omega) (hthere.trans ?_)
  rw [← hmissing, List.drop_append_of_le_length hp]
  exact List.prefix_append _ _

end Delimiter

namespace Decoder

variable {d : Decoder}

/-! ## Reads that find too little -/

theorem take_of_short (he : d.error = none) {count : Nat} (hshort : d.rest.length < count) :
    d.take count = (none, d.fail .bufferTooShort) := by
  rw [take, he]
  exact if_pos hshort

theorem fixed_of_short (he : d.error = none) {w : Width} (hshort : d.rest.length < w.bytes) :
    d.fixed w = (0, d.fail .bufferTooShort) := by
  rw [fixed, take_of_short he hshort]

/-- A number in a width that is one is missing if its bytes are. -/
theorem unsignedIn_of_short (he : d.error = none) {o : ByteOrder} {size n : Nat} {piece : Piece}
    (hp : unsignedPiece o size n = .ok piece) (hshort : d.rest.length < piece.length) :
    d.unsignedIn size = (0, d.fail .bufferTooShort) := by
  unfold unsignedPiece at hp
  split at hp
  · cases hp
  · next w hw =>
    split at hp
    · cases hp
      simp only [unsignedIn, sized, he, hw, fixed_of_short he hshort]
      rfl
    · cases hp

theorem signedIn_of_short (he : d.error = none) {o : ByteOrder} {size : Nat} {i : Int}
    {piece : Piece} (hp : signedPiece o size i = .ok piece)
    (hshort : d.rest.length < piece.length) :
    d.signedIn size = (0, d.fail .bufferTooShort) := by
  unfold signedPiece at hp
  split at hp
  · cases hp
  · next w hw =>
    split at hp
    · cases hp
      simp only [signedIn, sized, he, hw, fixed_of_short he hshort]
      exact congrArg (·, d.fail .bufferTooShort) BitVec.toInt_zero
    · cases hp

/-- **The front part of a number of variable length** is too short. -/
theorem varUnsigned_of_cut (he : d.error = none) {n : Nat} (hn : n < wordLimit)
    (hrow : d.rest <+: Varint.encode n) (hshort : d.rest.length < (Varint.encode n).length) :
    d.varUnsigned = (0, d.fail .bufferTooShort) := by
  rw [varUnsigned, he, Varint.decode_of_cut hn hrow hshort]

/-- **A payload behind its length** is missing if either is cut. A length that is
cut is read as zero, but then a fault is kept already. -/
theorem take_of_cut (he : d.error = none) {front payload : List UInt8} {counted : Nat × Decoder}
    (hrow : d.rest <+: front ++ payload) (hshort : d.rest.length < (front ++ payload).length)
    (hcut : d.rest <+: front → d.rest.length < front.length →
      counted = (0, d.fail .bufferTooShort))
    (hwhole : ∀ following, d.rest = front ++ following →
      counted = (payload.length, { d with rest := following })) :
    ∃ d', counted.2.take counted.1 = (none, d') ∧ d'.error = some .bufferTooShort := by
  rcases cases_of_prefix_append hrow with ⟨hfront, hlt⟩ | ⟨following, hrest, -⟩
  · rw [hcut hfront hlt]
    have hkept := error_fail he .bufferTooShort
    exact ⟨_, take_of_error hkept 0, hkept⟩
  · rw [hwhole following hrest]
    rw [hrest, List.length_append, List.length_append] at hshort
    have hmissing : following.length < payload.length := by omega
    exact ⟨_, take_of_short (d := { d with rest := following }) he hmissing,
      error_fail (d := { d with rest := following }) he _⟩

/-- **A payload in its frame is missing if the frame is cut** anywhere. -/
theorem payload_of_cut (he : d.error = none) {frame : Frame} {payload : List UInt8}
    {pieces : List Piece} (hp : frame.pieces d.order payload = .ok pieces)
    (hlen : payload.length < wordLimit)
    (hends : ∀ delimiter, frame = .delimited delimiter → Delimiter.Ends delimiter payload)
    (hrow : d.rest <+: Piece.image pieces)
    (hshort : d.rest.length < (Piece.image pieces).length) :
    ∃ d', d.payload (frame.extent payload) = (none, d') ∧ d'.error = some .bufferTooShort := by
  cases frame with
  | bare =>
    cases hp
    exact ⟨_, take_of_short he (by simpa [Piece.bytes] using hshort), error_fail he _⟩
  | sized size =>
    simp only [Frame.pieces] at hp
    split at hp
    · next front hfront =>
      cases hp
      have himage : Piece.image [front, .raw payload] = front.bytes ++ payload := by
        simp [Piece.bytes]
      rw [himage] at hrow hshort
      refine take_of_cut he hrow hshort (fun _ hlt => ?_) fun following hrest => ?_
      · exact unsignedIn_of_short he hfront (by rwa [Piece.length_bytes] at hlt)
      · exact unsignedIn_append he following rfl hfront hlen hrest
    · cases hp
  | counted =>
    cases hp
    have himage : Piece.image [.varint payload.length, .raw payload] =
        Varint.encode payload.length ++ payload := by simp [Piece.bytes]
    rw [himage] at hrow hshort
    exact take_of_cut he hrow hshort (varUnsigned_of_cut he hlen)
      fun following hrest => varUnsigned_append he following hlen hrest
  | delimited delimiter =>
    simp only [Frame.pieces] at hp
    split at hp
    · cases hp
    · next hd =>
      cases hp
      have himage : Piece.image [.raw payload, .raw delimiter] = payload ++ delimiter := by
        simp [Piece.bytes]
      rw [himage] at hrow hshort
      have hnowhere := Delimiter.find?_of_cut (hends delimiter rfl) hrow hshort
      refine ⟨d.fail .bufferTooShort, ?_, error_fail he _⟩
      show d.delimited delimiter = _
      simp only [delimited, he, hd, hnowhere]
      rfl

/-- **The mirror of a field that is cut finds too few bytes.** In front of a proper
front part of the field's pieces, in the order that was in force when they were
made, it keeps just this fault. -/
theorem read_mirror_of_cut (he : d.error = none) (copy : Bool) {field : Field}
    {pieces : List Piece} (hp : field.pieces d.order = .ok pieces)
    (hlen : (Piece.image pieces).length < wordLimit) (hbounded : field.Bounded)
    (htail : ¬field.IsTail) (hrow : d.rest <+: Piece.image pieces)
    (hshort : d.rest.length < (Piece.image pieces).length) :
    (d.read (field.mirror copy)).2.error = some .bufferTooShort := by
  have hkept := error_fail he .bufferTooShort
  cases field with
  | skip count =>
    cases hp
    show (d.take count).2.error = _
    rw [take_of_short he (by simpa [Piece.length] using hshort), hkept]
  | flag value =>
    cases hp
    show (d.fixed .one).2.error = _
    rw [fixed_of_short he (by simpa [Piece.length] using hshort), hkept]
  | signed width value =>
    cases hp
    show (d.fixed width).2.error = _
    rw [fixed_of_short he (by simpa [Piece.length] using hshort), hkept]
  | unsigned width value =>
    cases hp
    show (d.fixed width).2.error = _
    rw [fixed_of_short he (by simpa [Piece.length] using hshort), hkept]
  | signedIn size value =>
    obtain ⟨piece, hpiece, rfl⟩ := exists_of_map_eq_ok hp
    show (d.signedIn size).2.error = _
    rw [signedIn_of_short he hpiece (by simpa using hshort), hkept]
  | unsignedIn size value =>
    obtain ⟨piece, hpiece, rfl⟩ := exists_of_map_eq_ok hp
    show (d.unsignedIn size).2.error = _
    rw [unsignedIn_of_short he hpiece (by simpa using hshort), hkept]
  | float32 value =>
    cases hp
    show (d.fixed .four).2.error = _
    rw [fixed_of_short he (by simpa [Piece.length] using hshort), hkept]
  | float64 value =>
    cases hp
    show (d.fixed .eight).2.error = _
    rw [fixed_of_short he (by simpa [Piece.length] using hshort), hkept]
  | varSigned value =>
    cases hp
    show d.varUnsigned.2.error = _
    rw [varUnsigned_of_cut he (Varint.zigzag_lt value.le_toInt BitVec.toInt_lt)
      (by simpa [Piece.bytes] using hrow) (by simpa [Piece.length] using hshort), hkept]
  | varUnsigned value =>
    cases hp
    show d.varUnsigned.2.error = _
    rw [varUnsigned_of_cut he value.isLt (by simpa [Piece.bytes] using hrow)
      (by simpa [Piece.length] using hshort), hkept]
  | blob frame payload =>
    obtain ⟨d', hpayload, herror⟩ := payload_of_cut he hp
      (Nat.lt_of_le_of_lt (length_le_image hp) hlen)
      (fun delimiter hf => by subst hf; exact hbounded) hrow hshort
    cases payload with
    | text s =>
      show (d.read (.text (frame.extent (utf8Bytes s)) copy)).2.error = _
      rw [read, show d.payload (frame.extent (utf8Bytes s)) = _ from hpayload, herror]
    | bytes row =>
      show (d.read (.bytes (frame.extent row) copy)).2.error = _
      rw [read, show d.payload (frame.extent row) = _ from hpayload, herror]
  | tail row => exact absurd trivial htail

end Decoder

/-! ## Whole messages -/

/-- **What is seen of a message that is cut behind `kept` bytes**, call by call of
its writer. What was written in front of the cut is given back, and after it as
many bytes are unread as are left in front of the cut. From the first field on
that reaches over the cut, the fault of an input that is too short is kept. -/
inductive CutBehind (kept : Nat) : List Call → List Mark → List Sight → Prop
  | nil : CutBehind kept [] [] []
  | inFront {call : Call} {mark : Mark} {sight : Sight} {calls : List Call} {marks : List Mark}
      {sights : List Sight} (hmark : mark.length ≤ kept) (hvalue : sight.reply.value = call.value)
      (hleft : mark.length + sight.left = kept) (herror : sight.error = none)
      (hothers : CutBehind kept calls marks sights) :
      CutBehind kept (call :: calls) (mark :: marks) (sight :: sights)
  | behind {call : Call} {mark : Mark} {sight : Sight} {calls : List Call} {marks : List Mark}
      {sights : List Sight} (hmark : kept < mark.length)
      (herror : sight.error = some .bufferTooShort) (hothers : CutBehind kept calls marks sights) :
      CutBehind kept (call :: calls) (mark :: marks) (sight :: sights)

namespace Encoder

/-- Behind the cut everything is missing. -/
theorem cutBehind_of_error {calls : List Call} {reads : List ReadCall}
    (hm : List.Forall₂ Mirrors calls reads) {e : Encoder} {d : Decoder} {kept : Nat}
    (hlength : kept < e.length) (herror : d.error = some .bufferTooShort) :
    CutBehind kept calls (runCalls calls e).marks (d.calls reads).sights := by
  induction hm generalizing e d with
  | nil => exact .nil
  | cons hcall _ ih =>
    cases hcall with
    | put field copy =>
      have hlater : kept < (e.put field).length :=
        Nat.lt_of_lt_of_le hlength (e.length_le_enter (.field field))
      rw [Decoder.calls_read, Decoder.read_of_error herror]
      exact .behind hlater herror (ih hlater herror)
    | setOrder order =>
      exact .behind hlength herror
        (ih (e := e.setOrder order) (d := d.setOrder order) hlength herror)

/-- **What a row of calls writes and what arrives of it.** A symmetric reading that
starts in the order that was in force, and has a proper front part of what was
written, finds too few bytes at the first field that is cut. -/
theorem Stands.runCalls_cut {calls : List Call} {reads : List ReadCall}
    (hm : List.Forall₂ Mirrors calls reads) {e : Encoder} {done rest : List UInt8}
    (h : e.Stands done rest) (hok : (Wirepool.runCalls calls e).encoder.error = none)
    (htail : ∀ call ∈ calls, ¬call.IsTail) (hbounded : ∀ call ∈ calls, call.Bounded) :
    ∃ written, (Wirepool.runCalls calls e).encoder.Stands (done ++ written)
        (rest.drop written.length) ∧
      ∀ d : Decoder, d.error = none → d.order = e.order → d.rest <+: written →
        d.rest.length < written.length →
        (d.calls reads).decoder.error = some .bufferTooShort ∧
        CutBehind (done ++ d.rest).length calls (Wirepool.runCalls calls e).marks
          (d.calls reads).sights := by
  induction hm generalizing e done rest with
  | nil =>
    refine ⟨[], by simpa [Wirepool.runCalls] using h, fun d _ _ _ hshort => ?_⟩
    exact absurd hshort (Nat.not_lt_zero _)
  | @cons call read calls reads hcall hcalls ih =>
    have htail' : ∀ call ∈ calls, ¬call.IsTail := fun call hc =>
      htail call (List.mem_cons_of_mem _ hc)
    have hbounded' : ∀ call ∈ calls, call.Bounded := fun call hc =>
      hbounded call (List.mem_cons_of_mem _ hc)
    cases hcall with
    | put field copy =>
      obtain ⟨pieces, hpieces, hput, horder, -⟩ := h.put (error_eq_none_of_runCalls hcalls hok)
      obtain ⟨written, hstands, hread⟩ := ih hput hok htail' hbounded'
      have hlength : (e.put field).length = done.length + (Piece.image pieces).length := by
        rw [hput.length_eq, List.length_append]
      have hword : (Piece.image pieces).length < wordLimit := by
        have := hput.length_lt
        rw [List.length_append] at this
        omega
      have hnot : ¬field.IsTail := htail _ List.mem_cons_self
      have hfield : field.Bounded := hbounded _ List.mem_cons_self
      refine ⟨Piece.image pieces ++ written, ?_, fun d he ho hrow hshort => ?_⟩
      · rw [List.length_append, ← List.append_assoc, ← List.drop_drop]
        exact hstands
      rw [← ho] at hpieces
      rw [Decoder.calls_read]
      -- the cut is in this field, or in one of those behind it
      rcases cases_of_prefix_append hrow with ⟨hrow, hlt⟩ | ⟨following, hrest, hfollowing⟩
      · have herror := Decoder.read_mirror_of_cut he copy hpieces hword hfield hnot hrow hlt
        have hbehind : (done ++ d.rest).length < (e.put field).length := by
          rw [hlength, List.length_append]
          omega
        exact ⟨Decoder.error_calls (answers_of_mirrors hcalls) herror,
          .behind hbehind herror (cutBehind_of_error hcalls hbehind herror)⟩
      · obtain ⟨hvalue, hd⟩ := Decoder.read_mirror he copy following hpieces hword hfield
          (fun hf => absurd hf hnot) hrest
        rw [hrest, List.length_append, List.length_append] at hshort
        obtain ⟨hkept, hcut⟩ := hread { d with rest := following } he
          (ho.trans horder.symm) hfollowing (Nat.lt_of_add_lt_add_left hshort)
        rw [List.append_assoc, ← hrest] at hcut
        rw [hd]
        have hleft : (e.put field).length + following.length = (done ++ d.rest).length := by
          rw [hlength, hrest, List.length_append, List.length_append, Nat.add_assoc]
        exact ⟨hkept, .inFront (hleft ▸ Nat.le_add_right _ _) hvalue hleft he hcut⟩
    | setOrder order =>
      obtain ⟨written, hstands, hread⟩ := ih (h.setOrder order) hok htail' hbounded'
      refine ⟨written, hstands, fun d he ho hrow hshort => ?_⟩
      obtain ⟨hkept, hcut⟩ := hread (d.setOrder order) he rfl hrow hshort
      have hleft : e.length + d.rest.length = (done ++ d.rest).length := by
        rw [h.length_eq, List.length_append]
      exact ⟨hkept, .inFront (hleft ▸ Nat.le_add_right _ _) rfl hleft he hcut⟩

end Encoder

namespace Script

/-- **A message that is cut short is found out.** Whatever driver has made a
message without a tail, if every delimiter ends its payload, the symmetric reading
of any proper front part of its bytes fails because the input is too short. It has
given back every field that is all in the front part, and has kept just this fault
from the first field on that is not. -/
theorem truncation_detected {script : Script} {order : ByteOrder} {marks : List Mark}
    {bytes front : List UInt8} {reads : List ReadCall} (hencodes : script.Encodes order marks bytes)
    (hm : List.Forall₂ Mirrors script.calls reads) (htail : ∀ call ∈ script.calls, ¬call.IsTail)
    (hbounded : ∀ call ∈ script.calls, call.Bounded) (hfront : front <+: bytes)
    (hproper : front ≠ bytes) (fallible : Bool) :
    (decode order front reads fallible).2 = .error (.fault .bufferTooShort) ∧
      CutBehind front.length script.calls marks (decode order front reads fallible).1.sights := by
  obtain ⟨destination, houtcome, rfl, hbytes⟩ := hencodes.exists_fill
  obtain ⟨herror, hlength⟩ := finish_of_fill houtcome
  obtain ⟨written, hstands, hread⟩ :=
    (Encoder.stands_writer order destination).runCalls_cut hm herror htail hbounded
  rw [List.nil_append] at hstands
  obtain ⟨hfull, hdestination, hmarks⟩ := fill_of_stands hstands hlength
  obtain rfl : bytes = written := by
    rw [hbytes (by rw [hdestination, hfull]), hdestination]
  have hshort : front.length < bytes.length :=
    Nat.lt_of_le_of_ne hfront.length_le fun heq => hproper (hfront.eq_of_length heq)
  obtain ⟨hkept, hcut⟩ := hread (.start order front) rfl rfl hfront hshort
  rw [decode_of_answers (answers_of_mirrors hm), hmarks, Decoder.finish, hkept]
  exact ⟨rfl, hcut⟩

/-- A message of a varint of two bytes, a text behind its length and a payload with
a delimiter of two bytes, cut between these two. -/
theorem truncation_detected_inside_delimiter :
    (Script.encodeInto ⟨[.put (.varUnsigned 300), .put (.blob (.sized 1) (.text "ä")),
        .put (.blob (.delimited [13, 10]) (.bytes [97, 13]))], true⟩ .bigEndian
        (List.replicate 9 0)).1.result = .ok 9 ∧
      (decode .bigEndian [172, 2, 2, 195, 164, 97, 13, 13] [.read .varUnsigned,
        .read (.text (.sized 1) true), .read (.bytes (.delimited [13, 10]) false)] true).2 =
        .error (.fault .bufferTooShort) := by
  have hresult : (Script.encodeInto ⟨[.put (.varUnsigned 300),
      .put (.blob (.sized 1) (.text "ä")), .put (.blob (.delimited [13, 10]) (.bytes [97, 13]))],
      true⟩ .bigEndian (List.replicate 9 0)).1.result = .ok 9 := by decide
  have hm : List.Forall₂ Mirrors [.put (.varUnsigned 300), .put (.blob (.sized 1) (.text "ä")),
      .put (.blob (.delimited [13, 10]) (.bytes [97, 13]))] [.read .varUnsigned,
      .read (.text (.sized 1) true), .read (.bytes (.delimited [13, 10]) false)] :=
    .cons (.put (.varUnsigned 300) false) (.cons (.put (.blob (.sized 1) (.text "ä")) true)
      (.cons (.put (.blob (.delimited [13, 10]) (.bytes [97, 13])) false) .nil))
  refine ⟨hresult, (truncation_detected (.into hresult) hm ?_ ?_ ?_ ?_ true).1⟩
  · simp [Call.IsTail, Field.IsTail]
  · simp only [List.forall_mem_cons, Call.Bounded, Field.Bounded, List.not_mem_nil, true_and,
      IsEmpty.forall_iff, implies_true, and_true]
    decide
  · decide
  · decide

end Script

end Wirepool
