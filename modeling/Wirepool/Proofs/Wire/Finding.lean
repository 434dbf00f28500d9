import Wirepool.Proofs.Wire.Canonical
import Wirepool.Proofs.Wire.Kept

/-!
# What a read was in front of

A read that succeeds was in front of some field: its value can be written again,
and what it took from the input is at least as long as what is written then, and
just that if it was canonical. So for every step of the decoder there is the
converse here of the lemma that says what it takes back: if it succeeds, the
bytes of something stood there.

A read of all that is left as a text has no field that it takes back, and is the
only one.
-/

namespace Wirepool

namespace Decoder

variable {d : Decoder}

/-! ## Steps that succeed -/

/-- A decoder from which bytes are taken without a fault has none. -/
theorem error_eq_none_of_take {count : Nat} (h : (d.take count).2.error = none) :
    d.error = none := by
  cases he : d.error with
  | none => rfl
  | some fault => rw [take_of_error he, he] at h; cases h

/-- Bytes that are taken were there. -/
theorem exists_of_take (he : d.error = none) {count : Nat} (hok : (d.take count).2.error = none) :
    ∃ row following, d.rest = row ++ following ∧ row.length = count ∧
      d.take count = (some row, { d with rest := following }) := by
  rcases Nat.lt_or_ge d.rest.length count with hshort | hlong
  · rw [take, he] at hok
    dsimp only at hok
    rw [if_pos hshort, error_fail he] at hok
    cases hok
  · refine ⟨d.rest.take count, d.rest.drop count, (List.take_append_drop count d.rest).symm,
      List.length_take_of_le hlong, ?_⟩
    rw [take, he]
    exact if_neg (Nat.not_lt.mpr hlong)

/-- A number of fixed width is read from its form. -/
theorem exists_of_fixed (he : d.error = none) {w : Width} (hok : (d.fixed w).2.error = none) :
    ∃ n following, d.rest = w.encode d.order n ++ following ∧
      d.fixed w = (n, { d with rest := following }) := by
  have htaken : (d.take w.bytes).2.error = none := by
    rw [fixed] at hok
    split at hok
    · next h => rw [h]; exact hok
    · next h => rw [h]; exact hok
  obtain ⟨row, following, hrest, hlength, htake⟩ := exists_of_take he htaken
  refine ⟨w.decode d.order row, following, ?_, ?_⟩
  · rw [w.encode_decode d.order hlength, hrest]
  · rw [fixed, htake]

/-- A number in a width that is given as a count of bytes is read from its form, and
the width is one. -/
theorem exists_of_sized (he : d.error = none) {size : Nat} (hok : (d.sized size).2.error = none) :
    ∃ w n following, Width.ofBytes? size = some w ∧ d.rest = w.encode d.order n ++ following ∧
      d.sized size = (some ⟨w, n⟩, { d with rest := following }) := by
  cases hw : Width.ofBytes? size with
  | none =>
    simp only [sized, he, hw, error_fail he] at hok
    cases hok
  | some w =>
    simp only [sized, he, hw] at hok
    obtain ⟨n, following, hrest, hfixed⟩ := exists_of_fixed he hok
    refine ⟨w, n, following, rfl, hrest, ?_⟩
    simp only [sized, he, hw, hfixed]

/-- An unsigned number in `size` bytes is read from the piece that it is sent in. -/
theorem exists_of_unsignedIn (he : d.error = none) {size : Nat}
    (hok : (d.unsignedIn size).2.error = none) :
    ∃ n piece following, n < wordLimit ∧ unsignedPiece d.order size n = .ok piece ∧
      d.rest = piece.bytes ++ following ∧
      d.unsignedIn size = (n, { d with rest := following }) := by
  have hsized : (d.sized size).2.error = none := by
    rw [unsignedIn] at hok
    split at hok
    · next h => rw [h]; exact hok
    · next h => rw [h]; exact hok
  obtain ⟨w, n, following, hw, hrest, hread⟩ := exists_of_sized he hsized
  have hword : n.toNat < wordLimit :=
    Nat.lt_of_lt_of_le n.isLt (Nat.pow_le_pow_right (by decide) w.bits_le)
  refine ⟨n.toNat, .fixed w d.order n, following, hword, ?_, hrest, ?_⟩
  · simp only [unsignedPiece, hw, if_pos (Width.holdsUnsigned_toNat n), BitVec.ofNat_toNat,
      BitVec.setWidth_eq]
  · rw [unsignedIn, hread]

/-- A signed number in `size` bytes is read from the piece that it is sent in. -/
theorem exists_of_signedIn (he : d.error = none) {size : Nat}
    (hok : (d.signedIn size).2.error = none) :
    ∃ i piece following, -2 ^ 63 ≤ i ∧ i < 2 ^ 63 ∧ signedPiece d.order size i = .ok piece ∧
      d.rest = piece.bytes ++ following ∧
      d.signedIn size = (i, { d with rest := following }) := by
  have hsized : (d.sized size).2.error = none := by
    rw [signedIn] at hok
    split at hok
    · next h => rw [h]; exact hok
    · next h => rw [h]; exact hok
  obtain ⟨w, n, following, hw, hrest, hread⟩ := exists_of_sized he hsized
  have hspan : (2 : Int) ^ (w.bits - 1) ≤ 2 ^ 63 := by cases w <;> decide
  have hlow := n.le_toInt
  have hhigh := n.toInt_lt
  refine ⟨n.toInt, .fixed w d.order n, following, by omega, by omega, ?_, hrest, ?_⟩
  · simp only [signedPiece, hw, if_pos (Width.holdsSigned_toInt n), BitVec.ofInt_toInt]
  · rw [signedIn, hread]

/-- A number of variable length is read from a row that is at least as long as its
form. -/
theorem exists_of_varUnsigned (he : d.error = none) (hok : d.varUnsigned.2.error = none) :
    ∃ n row following, n < wordLimit ∧ d.rest = row ++ following ∧
      (Varint.encode n).length ≤ row.length ∧ (Varint.encode n = row ↔ Varint.Shortest d.rest) ∧
      d.varUnsigned = (n, { d with rest := following }) := by
  cases hdecode : Varint.decode d.rest with
  | error failure =>
    rw [varUnsigned, he, hdecode] at hok
    cases failure <;> cases hok.symm.trans (error_fail he _)
  | ok found =>
    obtain ⟨n, following⟩ := found
    obtain ⟨row, hrest, hword, hlength, hshortest⟩ := Varint.exists_of_decode hdecode
    refine ⟨n, row, following, hword, hrest, hlength, hshortest, ?_⟩
    rw [varUnsigned, he, hdecode]

/-- A delimited payload is read from in front of its delimiter. -/
theorem exists_of_delimited (he : d.error = none) {delimiter : List UInt8}
    (hok : (d.delimited delimiter).2.error = none) :
    ∃ payload following, delimiter ≠ [] ∧ d.rest = payload ++ delimiter ++ following ∧
      d.delimited delimiter = (some payload, { d with rest := following }) := by
  simp only [delimited, he] at hok
  split at hok
  · cases hok.symm.trans (error_fail he _)
  next hnonempty =>
  split at hok
  · next position hfind =>
    obtain ⟨hle, ⟨following, hthere⟩, -⟩ := (Delimiter.find?_eq_some_iff _ _ _).mp hfind
    have hdrop : d.rest.drop (position + delimiter.length) = following := by
      rw [← List.drop_drop, ← hthere, List.drop_left]
    refine ⟨d.rest.take position, following, by simpa using hnonempty, ?_, ?_⟩
    · rw [List.append_assoc, hthere, List.take_append_drop]
    · simp only [delimited, he, if_neg hnonempty, hfind, hdrop]
  · cases hok.symm.trans (error_fail he _)

/-- **A payload is read from its frame**, which is that of its extent, and only the
length in front of it may have been longer. -/
theorem exists_of_payload (he : d.error = none) {extent : Extent}
    (hok : (d.payload extent).2.error = none) (hextent : extent ≠ .rest) :
    ∃ (payload : List UInt8) (frame : Frame) (pieces : List Piece) (row following : List UInt8),
      frame.extent payload = extent ∧ frame.pieces d.order payload = .ok pieces ∧
      d.rest = row ++ following ∧ (Piece.image pieces).length ≤ row.length ∧
      (Piece.image pieces = row ↔ Extent.Canonical d.rest extent) ∧
      d.payload extent = (some payload, { d with rest := following }) := by
  cases extent with
  | exactly count =>
    obtain ⟨payload, following, hrest, hlength, htake⟩ := exists_of_take he hok
    refine ⟨payload, .bare, _, payload, following, congrArg Extent.exactly hlength, rfl, hrest,
      ?_, ?_, htake⟩
    · simp [Piece.bytes]
    · exact iff_of_true (by simp [Piece.bytes]) trivial
  | sized size =>
    have hfront : (d.unsignedIn size).2.error = none := error_eq_none_of_take hok
    obtain ⟨n, piece, behind, hword, hpiece, hrest, hread⟩ := exists_of_unsignedIn he hfront
    have hbehind : (take { d with rest := behind } n).2.error = none := by
      simpa only [payload, hread] using hok
    obtain ⟨payload, following, rfl, rfl, htake⟩ := exists_of_take (by exact he) hbehind
    refine ⟨payload, .sized size, [piece, .raw payload], piece.bytes ++ payload, following, rfl,
      ?_, ?_, ?_, ?_, ?_⟩
    · rw [Frame.pieces, hpiece]
    · rw [hrest, List.append_assoc]
    · simp [Piece.bytes]
    · exact iff_of_true (by simp [Piece.bytes]) trivial
    · simp only [Decoder.payload, hread, htake]
  | counted =>
    have hfront : d.varUnsigned.2.error = none := error_eq_none_of_take hok
    obtain ⟨n, form, behind, hword, hrest, hlength, hform, hread⟩ := exists_of_varUnsigned he hfront
    have hbehind : (take { d with rest := behind } n).2.error = none := by
      simpa only [payload, hread] using hok
    obtain ⟨payload, following, rfl, rfl, htake⟩ := exists_of_take (by exact he) hbehind
    refine ⟨payload, .counted, _, form ++ payload, following, rfl, rfl, ?_, ?_, ?_, ?_⟩
    · rw [hrest, List.append_assoc]
    · simpa [Piece.bytes] using hlength
    · rw [Extent.Canonical, ← hform]
      simp [Piece.bytes]
    · simp only [Decoder.payload, hread, htake]
  | delimited delimiter =>
    obtain ⟨payload, following, hnonempty, hrest, hread⟩ := exists_of_delimited he hok
    refine ⟨payload, .delimited delimiter, [.raw payload, .raw delimiter], payload ++ delimiter,
      following, rfl, ?_, hrest, ?_, ?_, hread⟩
    · rw [Frame.pieces, if_neg (by simpa using hnonempty)]
    · simp [Piece.bytes]
    · exact iff_of_true (by simp [Piece.bytes]) trivial
  | rest => exact absurd rfl hextent

/-- No field is all the text that is left. -/
theorem not_answers_text_rest (copy : Bool) : ¬(ReadCall.read (.text .rest copy)).Answers := by
  rintro ⟨call, hcall⟩
  generalize hread : ReadCall.read (.text .rest copy) = read at hcall
  cases hcall with
  | setOrder order => cases hread
  | put field copy' =>
    have hmirror := ReadCall.read.inj hread
    cases field with
    | blob frame payload => cases frame <;> cases payload <;> cases hmirror
    | _ => cases hmirror

/-- A payload that is read without a fault is found without one, and a text is one. -/
theorem exists_of_read_text {extent : Extent} {copy : Bool}
    (hok : (d.read (.text extent copy)).2.error = none) :
    (d.payload extent).2.error = none ∧
      ∀ row d', d.payload extent = (some row, d') → ∃ s, text? row = some s := by
  rw [read] at hok
  split at hok
  · next found d' hpayload =>
    rw [hpayload]
    split at hok
    · next s hs =>
      refine ⟨hok, ?_⟩
      rintro row d'' ⟨⟩
      exact ⟨s, hs⟩
    · cases he : d'.error with
      | none => cases hok.symm.trans (error_fail he _)
      | some fault =>
        rw [fail, he] at hok
        cases hok.symm.trans he
  · next d' hpayload =>
    rw [hpayload]
    refine ⟨hok, ?_⟩
    rintro row d'' ⟨⟩

theorem error_payload_of_read {extent : Extent} {copy : Bool}
    (hok : (d.read (.bytes extent copy)).2.error = none) : (d.payload extent).2.error = none := by
  rw [read] at hok
  split at hok
  · next h => rw [h]; exact hok
  · next h => rw [h]; exact hok

/-- A number of one byte is that byte in both orders. -/
theorem encode_one (o : ByteOrder) (n : BitVec Width.one.bits) :
    Width.one.encode o n = [UInt8.ofNat n.toNat] := by
  cases o <;> rfl

/-- A truth value is written as the byte that it was read from, if that is 0 or 1. -/
theorem encode_flag_iff (o : ByteOrder) (n : BitVec Width.one.bits) :
    Width.one.encode o (if n == 1 then 1 else 0) = Width.one.encode o n ↔
      ∀ b ∈ Width.one.encode o n, b = 0 ∨ b = 1 := by
  have hlt : n.toNat < 256 := n.isLt
  have hbyte (m : Nat) (hm : m < 256) : UInt8.ofNat n.toNat = UInt8.ofNat m ↔ n.toNat = m := by
    rw [← UInt8.toNat_inj, UInt8.toNat_ofNat', UInt8.toNat_ofNat', Nat.mod_eq_of_lt hlt,
      Nat.mod_eq_of_lt hm]
  have hone : n = 1 ↔ n.toNat = 1 := by rw [← BitVec.toNat_inj]; rfl
  rw [encode_one, encode_one, List.forall_mem_singleton, List.singleton_inj, eq_comm,
    hbyte _ (BitVec.isLt _)]
  show _ ↔ UInt8.ofNat n.toNat = UInt8.ofNat 0 ∨ UInt8.ofNat n.toNat = UInt8.ofNat 1
  rw [hbyte 0 (by decide), hbyte 1 (by decide)]
  by_cases h : n = 1
  · subst h
    exact iff_of_true rfl (.inr rfl)
  · have hvalue : (if n == 1 then 1 else 0 : BitVec Width.one.bits) = 0 := if_neg (by simpa using h)
    rw [hvalue, ← hone, or_iff_left h]
    rfl

/-- **What a read was in front of**: a field of which it is the mirror and whose value
it gives. The row it took is at least as long as the pieces of the field, and is
their image just if it is canonical. -/
structure Finds (d : Decoder) (read : Read) (field : Field) (pieces : List Piece)
    (row following : List UInt8) : Prop where
  mirror_eq : ∃ copy, read = field.mirror copy
  value_eq : (d.read read).1.value = field.value
  pieces_eq : field.pieces d.order = .ok pieces
  rest_eq : d.rest = row ++ following
  length_le : (Piece.image pieces).length ≤ row.length
  image_eq_iff : Piece.image pieces = row ↔ read.Canonical d.rest
  decoder_eq : (d.read read).2 = { d with rest := following }

/-! ## One kind of read after the other -/

section Kinds

variable (he : d.error = none)

include he

/-- Bytes that are ignored are those of a field of zeros, and canonical if they are
zeros. -/
theorem exists_finds_skip {count : Nat} (hok : (d.read (.skip count)).2.error = none) :
    ∃ field pieces row following, d.Finds (.skip count) field pieces row following := by
  obtain ⟨row, following, hrest, hlength, htake⟩ := exists_of_take he hok
  refine ⟨.skip count, [.zeros count], row, following, ⟨false, rfl⟩, rfl, rfl, hrest, ?_, ?_,
    congrArg Prod.snd htake⟩
  · simp [Piece.length, hlength]
  · rw [Read.Canonical, hrest, ← hlength, List.take_left, eq_comm]
    simp [Piece.bytes, List.eq_replicate_iff]

/-- A truth value is found whatever the byte is, and canonical if it is 0 or 1. -/
theorem exists_finds_flag (hok : (d.read .flag).2.error = none) :
    ∃ field pieces row following, d.Finds .flag field pieces row following := by
  obtain ⟨n, following, hrest, hfixed⟩ := exists_of_fixed (w := .one) he hok
  refine ⟨.flag (n == 1), [.fixed .one d.order (if n == 1 then 1 else 0)],
    Width.one.encode d.order n, following, ⟨false, rfl⟩, ?_, rfl, hrest, ?_, ?_,
    congrArg Prod.snd hfixed⟩
  · show Value.flag ((d.fixed .one).1 == 1) = _
    rw [hfixed]
    rfl
  · simp [Piece.length]
  · have htaken : d.rest.take 1 = Width.one.encode d.order n := by
      rw [hrest]
      exact List.take_left' (Width.length_encode ..)
    rw [Read.Canonical, htaken, ← encode_flag_iff]
    simp [Piece.bytes]

/-- A read of a number of fixed width that has no second form finds the field of the
number. -/
theorem exists_finds_of_fixed {w : Width} {read : Read}
    (field : BitVec w.bits → Field) (hmirror : ∀ n, read = (field n).mirror false)
    (hvalue : (d.read read).1.value = (field (d.fixed w).1).value)
    (hpieces : ∀ n, (field n).pieces d.order = .ok [.fixed w d.order n])
    (hcanonical : read.Canonical d.rest) (hdecoder : (d.read read).2 = (d.fixed w).2)
    (hok : (d.read read).2.error = none) :
    ∃ field pieces row following, d.Finds read field pieces row following := by
  rw [hdecoder] at hok
  obtain ⟨n, following, hrest, hfixed⟩ := exists_of_fixed he hok
  rw [hfixed] at hvalue hdecoder
  exact ⟨field n, [.fixed w d.order n], w.encode d.order n, following, ⟨false, hmirror n⟩, hvalue,
    hpieces n, hrest, by simp [Piece.length],
    iff_of_true (by simp [Piece.bytes]) hcanonical, hdecoder⟩

/-- A signed number in `size` bytes is found in the one form that it has. -/
theorem exists_finds_signedIn {size : Nat} (hok : (d.read (.signedIn size)).2.error = none) :
    ∃ field pieces row following, d.Finds (.signedIn size) field pieces row following := by
  obtain ⟨i, piece, following, hlow, hhigh, hpiece, hrest, hread⟩ := exists_of_signedIn he hok
  have hword : (BitVec.ofInt 64 i).toInt = i := BitVec.toInt_ofInt_eq_self (by decide) hlow hhigh
  refine ⟨.signedIn size (.ofInt 64 i), [piece], piece.bytes, following, ⟨false, rfl⟩, ?_, ?_,
    hrest, ?_, iff_of_true (by simp) trivial, congrArg Prod.snd hread⟩
  · show Value.number (d.signedIn size).1 = .number (BitVec.ofInt 64 i).toInt
    rw [hread, hword]
  · rw [Field.pieces, hword, hpiece]
    rfl
  · simp

/-- An unsigned number in `size` bytes is found in the one form that it has. -/
theorem exists_finds_unsignedIn {size : Nat} (hok : (d.read (.unsignedIn size)).2.error = none) :
    ∃ field pieces row following, d.Finds (.unsignedIn size) field pieces row following := by
  obtain ⟨n, piece, following, hlt, hpiece, hrest, hread⟩ := exists_of_unsignedIn he hok
  have hword : (BitVec.ofNat 64 n).toNat = n := Nat.mod_eq_of_lt hlt
  refine ⟨.unsignedIn size (.ofNat 64 n), [piece], piece.bytes, following, ⟨false, rfl⟩, ?_, ?_,
    hrest, ?_, iff_of_true (by simp) trivial, congrArg Prod.snd hread⟩
  · show Value.number (d.unsignedIn size).1 = .number (BitVec.ofNat 64 n).toNat
    rw [hread, hword]
  · rw [Field.pieces, hword, hpiece]
    rfl
  · simp

/-- A read of a number of variable length finds the field that is folded to this
number, and the row is canonical if it is the shortest. -/
theorem exists_finds_of_varint {read : Read} (field : Nat → Field)
    (hmirror : ∀ n, read = (field n).mirror false)
    (hvalue : ∀ n < wordLimit, d.varUnsigned.1 = n → (d.read read).1.value = (field n).value)
    (hpieces : ∀ n < wordLimit, (field n).pieces d.order = .ok [.varint n])
    (hcanonical : read.Canonical d.rest ↔ Varint.Shortest d.rest)
    (hdecoder : (d.read read).2 = d.varUnsigned.2) (hok : (d.read read).2.error = none) :
    ∃ field pieces row following, d.Finds read field pieces row following := by
  rw [hdecoder] at hok
  obtain ⟨n, row, following, hlt, hrest, hlength, hform, hread⟩ := exists_of_varUnsigned he hok
  refine ⟨field n, [.varint n], row, following, ⟨false, hmirror n⟩,
    hvalue n hlt (congrArg Prod.fst hread), hpieces n hlt, hrest, ?_, ?_, ?_⟩
  · simpa [Piece.length] using hlength
  · rw [hcanonical, ← hform]
    simp [Piece.bytes]
  · rw [hdecoder, hread]

/-- A signed number of variable length is found unfolded. -/
theorem exists_finds_varSigned (hok : (d.read .varSigned).2.error = none) :
    ∃ field pieces row following, d.Finds .varSigned field pieces row following := by
  have hword (n : Nat) (hlt : n < wordLimit) :
      (BitVec.ofInt 64 (Varint.unzigzag n)).toInt = Varint.unzigzag n := by
    obtain ⟨hlow, hhigh⟩ := Varint.unzigzag_bounds hlt
    exact BitVec.toInt_ofInt_eq_self (by decide) hlow hhigh
  refine exists_finds_of_varint he (fun n => .varSigned (.ofInt 64 (Varint.unzigzag n)))
    (fun _ => rfl) ?_ ?_ Iff.rfl rfl hok
  · intro n hlt hread
    show Value.number (Varint.unzigzag d.varUnsigned.1) = .number _
    rw [hread, hword n hlt]
  · intro n hlt
    rw [Field.pieces, hword n hlt, Varint.zigzag_unzigzag]

/-- An unsigned number of variable length is found as it is. -/
theorem exists_finds_varUnsigned (hok : (d.read .varUnsigned).2.error = none) :
    ∃ field pieces row following, d.Finds .varUnsigned field pieces row following := by
  have hword (n : Nat) (hlt : n < wordLimit) : (BitVec.ofNat 64 n).toNat = n :=
    Nat.mod_eq_of_lt hlt
  refine exists_finds_of_varint he (fun n => .varUnsigned (.ofNat 64 n)) (fun _ => rfl) ?_ ?_
    Iff.rfl rfl hok
  · intro n hlt hread
    show Value.number d.varUnsigned.1 = .number (BitVec.ofNat 64 n).toNat
    rw [hread, hword n hlt]
  · intro n hlt
    rw [Field.pieces, hword n hlt]

/-- A read of a payload that is delivered finds a field with this payload. -/
theorem exists_finds_of_payload {extent : Extent}
    (hok : (d.payload extent).2.error = none) (hextent : extent ≠ .rest) {read : Read}
    (hfound : ∀ frame row following, (frame : Frame).extent row = extent →
      d.payload extent = (some row, { d with rest := following }) →
      ∃ payload : Payload, payload.toBytes = row ∧
        (∃ copy, read = (Field.blob frame payload).mirror copy) ∧
        (d.read read).1.value = (Field.blob frame payload).value ∧
        (d.read read).2 = { d with rest := following })
    (hcanonical : read.Canonical d.rest ↔ extent.Canonical d.rest) :
    ∃ field pieces row following, d.Finds read field pieces row following := by
  obtain ⟨row, frame, pieces, form, following, hframe, hpieces, hrest, hlength, hform, hread⟩ :=
    exists_of_payload he hok hextent
  obtain ⟨payload, rfl, hmirror, hvalue, hdecoder⟩ := hfound frame row following hframe hread
  exact ⟨.blob frame payload, pieces, form, following, hmirror, hvalue, hpieces, hrest, hlength,
    hform.trans hcanonical.symm, hdecoder⟩

/-- A text is found in its frame, since only the bytes of a text spell it. -/
theorem exists_finds_text {extent : Extent} {copy : Bool} (hextent : extent ≠ .rest)
    (hok : (d.read (.text extent copy)).2.error = none) :
    ∃ field pieces row following, d.Finds (.text extent copy) field pieces row following := by
  obtain ⟨hpayload, htext⟩ := exists_of_read_text hok
  refine exists_finds_of_payload he hpayload hextent ?_ Iff.rfl
  rintro frame row following rfl hread
  obtain ⟨s, hs⟩ := htext _ _ hread
  obtain rfl := eq_utf8Bytes_of_text? hs
  have hdelivered := read_text_of_payload hread copy hs
  exact ⟨.text s, rfl, ⟨copy, rfl⟩, congrArg (fun r => r.1.value) hdelivered,
    congrArg Prod.snd hdelivered⟩

/-- Bytes are found in their frame. -/
theorem exists_finds_bytes {extent : Extent} {copy : Bool} (hextent : extent ≠ .rest)
    (hok : (d.read (.bytes extent copy)).2.error = none) :
    ∃ field pieces row following, d.Finds (.bytes extent copy) field pieces row following := by
  refine exists_finds_of_payload he (error_payload_of_read hok) hextent ?_ Iff.rfl
  rintro frame row following rfl hread
  have hdelivered := read_bytes_of_payload hread copy
  exact ⟨.bytes row, rfl, ⟨copy, rfl⟩, congrArg (fun r => r.1.value) hdelivered,
    congrArg Prod.snd hdelivered⟩

/-- All bytes that are left are those of the field that ends a message. -/
theorem exists_finds_tail {copy : Bool} (hok : (d.read (.bytes .rest copy)).2.error = none) :
    ∃ field pieces row following, d.Finds (.bytes .rest copy) field pieces row following := by
  obtain ⟨row, following, hrest, hlength, htake⟩ := exists_of_take he (error_payload_of_read hok)
  obtain rfl : following = [] := by
    rw [hrest, List.length_append] at hlength
    exact List.length_eq_zero_iff.mp (by omega)
  have hread : d.payload .rest = (some row, { d with rest := [] }) := htake
  have hdelivered := read_bytes_of_payload hread copy
  exact ⟨.tail row, [.raw row], row, [], ⟨copy, rfl⟩, congrArg (fun r => r.1.value) hdelivered,
    rfl, hrest, by simp [Piece.bytes], iff_of_true (by simp [Piece.bytes]) trivial,
    congrArg Prod.snd hdelivered⟩

end Kinds

/-- **A read that succeeds was in front of a field.** -/
theorem exists_finds (he : d.error = none) {read : Read} (hanswers : (ReadCall.read read).Answers)
    (hok : (d.read read).2.error = none) :
    ∃ field pieces row following, d.Finds read field pieces row following := by
  cases read with
  | skip count => exact exists_finds_skip he hok
  | flag => exact exists_finds_flag he hok
  | signed width =>
    exact exists_finds_of_fixed he (.signed width) (fun _ => rfl) rfl (fun _ => rfl) trivial
      rfl hok
  | unsigned width =>
    exact exists_finds_of_fixed he (.unsigned width) (fun _ => rfl) rfl (fun _ => rfl) trivial
      rfl hok
  | signedIn size => exact exists_finds_signedIn he hok
  | unsignedIn size => exact exists_finds_unsignedIn he hok
  | float32 =>
    exact exists_finds_of_fixed (w := .four) he .float32 (fun _ => rfl) rfl (fun _ => rfl) trivial
      rfl hok
  | float64 =>
    exact exists_finds_of_fixed (w := .eight) he .float64 (fun _ => rfl) rfl (fun _ => rfl) trivial
      rfl hok
  | varSigned => exact exists_finds_varSigned he hok
  | varUnsigned => exact exists_finds_varUnsigned he hok
  | text extent copy =>
    refine exists_finds_text he ?_ hok
    rintro rfl
    exact not_answers_text_rest copy hanswers
  | bytes extent copy =>
    by_cases hextent : extent = .rest
    · subst hextent
      exact exists_finds_tail he hok
    · exact exists_finds_bytes he hextent hok

end Decoder

end Wirepool
