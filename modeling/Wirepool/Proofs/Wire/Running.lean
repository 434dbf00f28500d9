import Mathlib.Data.Nat.Bitwise
import Wirepool.Proofs.Wire.Cursor
import Wirepool.Proofs.Wire.Suffix
import Wirepool.Proofs.Wire.Truncation

/-!
# A cursor does what its decoder does

A step of a `Cursor` could stop the program in many places. What rules that out is one
invariant: the position is inside the input, and the input is no longer than a word can
say. A position is only ever moved on after a comparison with what is left, and that
comparison is a difference which the invariant allows.

The one place where this is not enough is the shift in a number of variable length. There
the groups that are read fill the lower bits, seven each, and what keeps the shift below 64
is that the tenth byte cannot announce another one without being too large first.

Each step is shown to run through and to end at a cursor that stands for the decoder behind
the same step. So all that is known of decoders is known of cursors.
-/

namespace Wirepool

/-! ## Numbers -/

/-- **The case for other widths is not reached**, and a row of a width gives the number
that it spells. -/
theorem ByteOrder.get_of_length (o : ByteOrder) {w : Width} {row : List UInt8}
    (h : row.length = w.bytes) : o.get row = .ok (.ofNat 64 (w.decode o row).toNat) := by
  have hlt := Digits.toNat_lt (o.arrange row)
  rw [length_arrange, h] at hlt
  have hnumber : (w.decode o row).toNat = Digits.toNat (o.arrange row) := by
    rw [Width.decode, BitVec.toNat_ofNat, Format.two_pow_bits, Nat.mod_eq_of_lt hlt]
  rw [hnumber]
  cases w with
  | one =>
    obtain ⟨a, rfl⟩ := List.length_eq_one_iff.1 h
    cases o <;> rfl
  | two =>
    obtain ⟨a, b, rfl⟩ := List.length_eq_two.1 h
    cases o <;> rfl
  | four =>
    obtain ⟨a, b, c, d, rfl⟩ := List.length_eq_four.1 h
    cases o <;> rfl
  | eight =>
    have hfront : (row.take 4).length = 4 := by
      rw [List.length_take, h]
      rfl
    have hbehind : (row.drop 4).length = 4 := by
      rw [List.length_drop, h]
      rfl
    obtain ⟨a, b, c, d, hfront⟩ := List.length_eq_four.1 hfront
    obtain ⟨e, f, g, i, hbehind⟩ := List.length_eq_four.1 hbehind
    obtain rfl : row = [a, b, c, d] ++ [e, f, g, i] := by
      rw [← hfront, ← hbehind, List.take_append_drop]
    cases o <;> rfl

namespace Varint

/-- A group that is put above the bits that are read adds up with them. -/
theorem or_shiftLeft {value : BitVec 64} {n index : Nat} (hvalue : value.toNat < 128 ^ index)
    (hword : n * 128 ^ index < 2 ^ 64) :
    value ||| BitVec.ofNat 64 n <<< (7 * index) =
      BitVec.ofNat 64 (value.toNat + 128 ^ index * n) := by
  have hpow : 128 ^ index = 2 ^ (7 * index) := by
    rw [Nat.pow_mul]
  have hn : n < 2 ^ 64 :=
    Nat.lt_of_le_of_lt (Nat.le_mul_of_pos_right n (Nat.pow_pos (by decide))) hword
  rw [hpow] at hvalue hword ⊢
  have hor := Nat.two_pow_add_eq_or_of_lt hvalue n
  apply BitVec.eq_of_toNat_eq
  rw [BitVec.toNat_or, BitVec.toNat_shiftLeft, BitVec.toNat_ofNat, Nat.mod_eq_of_lt hn,
    Nat.shiftLeft_eq, Nat.mod_eq_of_lt hword, BitVec.toNat_ofNat, Nat.add_comm, hor,
    Nat.or_comm, Nat.mul_comm n, Nat.mod_eq_of_lt]
  exact Nat.or_lt_two_pow (by rwa [Nat.mul_comm]) value.isLt

/-- A group put above the bits that are read leaves the place of the next one free. -/
theorem add_group_lt {value n index : Nat} (hvalue : value < 128 ^ index) (hn : n < 128) :
    value + 128 ^ index * n < 128 ^ (index + 1) := by
  have hmul := Nat.mul_le_mul_left (128 ^ index) (Nat.le_of_lt_succ hn)
  rw [Nat.pow_succ]
  omega

/-- In front of the tenth byte a word has room for all that is read. -/
theorem lt_word_of_lt {value index : Nat} (hindex : index < maxLength)
    (hvalue : value < 128 ^ index) : value < 2 ^ 64 :=
  calc value < 128 ^ index := hvalue
    _ ≤ 128 ^ 9 := Nat.pow_le_pow_right (by decide) (Nat.le_of_lt_succ hindex)
    _ < 2 ^ 64 := by decide

/-- **One byte of a number** that is not too long yet is read safely: a word has the place of
its group. -/
theorem getFrom_cons {value : BitVec 64} {index : Nat} {b : UInt8} {row : List UInt8}
    (hindex : index < maxLength) :
    getFrom value (7 * index) index (b :: row) =
      if index = maxLength - 1 ∧ 1 < b.toNat then .ok (.error .overflow)
      else if b.toNat < 128 then
        .ok (.ok (value ||| BitVec.ofNat 64 b.toNat <<< (7 * index), index + 1))
      else
        getFrom (value ||| BitVec.ofNat 64 (b.toNat % 128) <<< (7 * index)) (7 * (index + 1))
          (index + 1) row := by
  have hten : maxLength = 10 := rfl
  have hnext : Checked.add wordLimit index 1 = .ok (index + 1) :=
    if_pos (show index + 1 < 1 <<< 64 by rw [Nat.shiftLeft_eq]; omega)
  have hshift (word : BitVec 64) :
      Checked.shiftLeft word (7 * index) = .ok (word <<< (7 * index)) := if_pos (by omega)
  have hfurther : Checked.add (1 <<< 32) (7 * index) 7 = .ok (7 * (index + 1)) :=
    if_pos (by rw [Nat.shiftLeft_eq]; omega)
  have hgroup : (b &&& 127).toNat = b.toNat % 128 := by
    rw [UInt8.toNat_and]
    exact Nat.and_two_pow_sub_one_eq_mod b.toNat 7
  have hroom : (index = maxLength - 1 ∧ 1 < b) ↔ (index = maxLength - 1 ∧ 1 < b.toNat) :=
    and_congr_right fun _ => UInt8.lt_iff_toNat_lt
  have hmore : b < 128 ↔ b.toNat < 128 := UInt8.lt_iff_toNat_lt
  rw [getFrom, hnext]
  simp only [hroom, hmore, hshift, hfurther, hgroup, bind, Except.bind, pure, Except.pure]

/-- **A number of variable length is read safely**, however many bytes announce another
one. The bits that are read lie below the place of the next group. -/
theorem getFrom_eq {value : BitVec 64} {index : Nat} {row : List UInt8}
    (hindex : index < maxLength) (hvalue : value.toNat < 128 ^ index) :
    getFrom value (7 * index) index row =
      .ok ((decodeFrom index row).map fun found =>
        (BitVec.ofNat 64 (value.toNat + 128 ^ index * found.1),
          index + (row.length - found.2.length))) := by
  induction row generalizing value index with
  | nil => rfl
  | cons b row ih =>
    rw [getFrom_cons hindex, decodeFrom]
    by_cases hover : index = maxLength - 1 ∧ 1 < b.toNat
    · rw [if_pos hover, if_pos hover]
      rfl
    rw [if_neg hover, if_neg hover]
    by_cases hlast : b.toNat < 128
    · rw [if_pos hlast, if_pos hlast, or_shiftLeft hvalue (place_mul_lt hindex hlast hover)]
      simp only [Except.map, List.length_cons, Nat.add_sub_cancel_left]
    · rw [if_neg hlast, if_neg hlast]
      have hten : maxLength = 10 := rfl
      have hb := b.toNat_lt
      have hbits := add_group_lt hvalue (Nat.mod_lt b.toNat (show 0 < 128 by decide))
      have hword : (BitVec.ofNat 64 (value.toNat + 128 ^ index * (b.toNat % 128))).toNat =
          value.toNat + 128 ^ index * (b.toNat % 128) := by
        rw [BitVec.toNat_ofNat, Nat.mod_eq_of_lt (lt_word_of_lt (by omega) hbits)]
      rw [or_shiftLeft hvalue (place_mul_lt hindex (Nat.mod_lt _ (by decide)) (by omega)),
        ih (by omega) (by rwa [hword]), hword]
      cases hdecode : decodeFrom (index + 1) row with
      | error failure => rfl
      | ok found =>
        obtain ⟨n, rest⟩ := found
        obtain ⟨taken, rfl, -⟩ := exists_row_of_decodeFrom hdecode
        have hcount : index + 1 + ((taken ++ rest).length - rest.length) =
            index + ((b :: (taken ++ rest)).length - rest.length) := by
          simp only [List.length_cons, List.length_append]
          omega
        have hsum : value.toNat + 128 ^ index * (b.toNat % 128) + 128 ^ (index + 1) * n =
            value.toNat + 128 ^ index * (b.toNat % 128 + 128 * n) := by ring
        simp only [Except.map, hcount, hsum]

/-- What is read at the front of a row is a word, and the bytes it takes are there. -/
theorem get_eq (row : List UInt8) :
    get row = .ok ((decode row).map fun found =>
      (BitVec.ofNat 64 found.1, row.length - found.2.length)) := by
  have h : getFrom 0 (7 * 0) 0 row = _ := getFrom_eq (by decide) (by decide)
  have hzero : (0 : BitVec 64).toNat = 0 := rfl
  simpa only [get, decode, hzero, Nat.pow_zero, Nat.one_mul, Nat.zero_add,
    Nat.mul_zero] using h

/-- **No number is without the one of the other sign** where a folded one is unfolded. -/
theorem unfold_eq (word : BitVec 64) : unfold word = .ok (unzigzag word.toNat) := by
  have hword := word.isLt
  have hhalf : (word >>> 1).toNat = word.toNat / 2 := by
    rw [BitVec.toNat_ushiftRight, Nat.shiftRight_eq_div_pow]
  have hsigned : (word >>> 1).toInt = word.toNat / 2 := by
    rw [BitVec.toInt_eq_toNat_of_lt (by omega), hhalf]
    rfl
  have hlow : (word &&& 1).toNat = word.toNat % 2 := by
    rw [BitVec.toNat_and]
    exact Nat.and_two_pow_sub_one_eq_mod word.toNat 1
  rcases Nat.mod_two_eq_zero_or_one word.toNat with heven | hodd
  · have hzero : word &&& 1 = 0 := BitVec.eq_of_toNat_eq (hlow.trans heven)
    rw [unfold, hzero, unzigzag, if_pos heven]
    show Except.ok ((word >>> 1) ^^^ 0#64).toInt = _
    rw [BitVec.xor_zero, hsigned]
    rfl
  · have hone : word &&& 1 = 1 := BitVec.eq_of_toNat_eq (hlow.trans hodd)
    rw [unfold, hone, unzigzag, if_neg (by omega)]
    show Except.ok ((word >>> 1) ^^^ BitVec.allOnes 64).toInt = _
    rw [BitVec.xor_allOnes, BitVec.toInt_not, hhalf, Int.negSucc_eq]
    congr 1
    rw [Int.bmod_def]
    split <;> omega

end Varint

/-! ## Delimiters -/

/-- **A search in windows finds the first occurrence**, and nothing if the delimiter is
longer than the row. -/
theorem Delimiter.findIdx?_windows {d : List UInt8} (hd : d ≠ []) (row : List UInt8) :
    ∃ windows, Checked.windows d.length row = .ok windows ∧
      windows.findIdx? (· == d) = find? d row := by
  have hpos := List.length_pos_iff.2 hd
  refine ⟨_, if_neg hpos.ne', Option.ext fun p => ?_⟩
  have hwindow (i : Nat) : ((row.drop i).take d.length == d) = true ↔ d <+: row.drop i := by
    rw [beq_iff_eq, List.prefix_iff_eq_take, eq_comm]
  rw [List.findIdx?_eq_some_iff_getElem, find?_eq_some_iff]
  simp only [List.length_map, List.length_range, List.getElem_map, List.getElem_range, hwindow]
  constructor
  · rintro ⟨hp, hthere, hfirst⟩
    exact ⟨by omega, hthere, fun i hi => hfirst i hi⟩
  · rintro ⟨hp, hthere, hfirst⟩
    have hlength := hthere.length_le
    rw [List.length_drop] at hlength
    exact ⟨by omega, hthere, fun i hi => hfirst i hi⟩

/-! ## Steps of a decoder -/

namespace Decoder

variable {d : Decoder}

/-- Bytes that are there are taken. -/
theorem take_of_le (he : d.error = none) {count : Nat} (h : count ≤ d.rest.length) :
    d.take count = (some (d.rest.take count), { d with rest := d.rest.drop count }) := by
  rw [take, he]
  exact if_neg (Nat.not_lt.2 h)

theorem varUnsigned_of_decode (he : d.error = none) {n : Nat} {following : List UInt8}
    (h : Varint.decode d.rest = .ok (n, following)) :
    d.varUnsigned = (n, { d with rest := following }) := by
  rw [varUnsigned, he, h]

theorem error_sized_of_unsignedIn {size : Nat} (h : (d.unsignedIn size).2.error = none) :
    (d.sized size).2.error = none := by
  rw [unsignedIn] at h
  split at h
  · next hsized => rw [hsized]; exact h
  · next hsized => rw [hsized]; exact h

/-- A length in front of a payload is a word. -/
theorem unsignedIn_lt (d : Decoder) (size : Nat) : (d.unsignedIn size).1 < wordLimit := by
  rw [unsignedIn]
  rcases d.sized size with ⟨_ | ⟨w, n⟩, next⟩
  · exact Nat.two_pow_pos 64
  · exact Nat.lt_of_lt_of_le n.isLt (Nat.pow_le_pow_right (by decide) w.bits_le)

theorem varUnsigned_lt (d : Decoder) : d.varUnsigned.1 < wordLimit := by
  rcases he : d.error with _ | fault
  · rcases hdecode : Varint.decode d.rest with failure | ⟨n, following⟩
    · rw [varUnsigned, he, hdecode]
      cases failure <;> exact Nat.two_pow_pos 64
    · obtain ⟨-, -, hn, -⟩ := Varint.exists_of_decode hdecode
      rw [varUnsigned_of_decode he hdecode]
      exact hn
  · rw [varUnsigned_of_error he]
    exact Nat.two_pow_pos 64

/-- Bytes that were taken were the next ones, as many as were asked for. -/
theorem of_take_eq_some {next : Decoder} {count : Nat} {row : List UInt8}
    (h : d.take count = (some row, next)) :
    d.error = none ∧ row.length = count ∧ d.rest = row ++ next.rest ∧
      next = { d with rest := next.rest } := by
  have hok : (d.take count).2.error = none := by
    rw [← Option.isNone_iff_eq_none, ← d.isSome_take count, h]
    rfl
  have he := error_eq_none_of_take hok
  obtain ⟨row', following, hrest, hlength, htake⟩ := exists_of_take he hok
  cases h.symm.trans htake
  exact ⟨he, hlength, hrest, rfl⟩

end Decoder

/-! ## Steps of a cursor -/

namespace Cursor

/-- **The cursor is inside its input**, and the input is no longer than a word can say. -/
structure Sound (c : Cursor) : Prop where
  pos_le : c.pos ≤ c.buf.length
  length_lt : c.buf.length < wordLimit

/-- **A cursor has moved on**: it is in the same input, not further back, and still inside. -/
structure Leads (c next : Cursor) : Prop where
  buf_eq : next.buf = c.buf
  le_pos : c.pos ≤ next.pos
  pos_le : next.pos ≤ c.buf.length

/-- **An action of a cursor runs through**, gives `a`, moves the cursor on and leaves it
where it stands for the decoder `d`. -/
def Runs {α : Type} (c : Cursor) (action : Except Trap (α × Cursor)) (a : α) (d : Decoder) : Prop :=
  ∃ next, action = .ok (a, next) ∧ c.Leads next ∧ next.decoder = d

variable {c : Cursor}

theorem Sound.leads_self (hc : c.Sound) : c.Leads c := ⟨rfl, Nat.le_refl _, hc.pos_le⟩

theorem Sound.next (hc : c.Sound) {next : Cursor} (h : c.Leads next) : next.Sound :=
  ⟨by rw [h.buf_eq]; exact h.pos_le, by rw [h.buf_eq]; exact hc.length_lt⟩

theorem Leads.trans {next last : Cursor} (h : c.Leads next) (h' : next.Leads last) :
    c.Leads last :=
  ⟨h'.buf_eq.trans h.buf_eq, h.le_pos.trans h'.le_pos, h.buf_eq ▸ h'.pos_le⟩

/-- **Actions run one after another**: what the second one does, it does behind the first. -/
theorem Runs.bind {α β : Type} (hc : c.Sound) {action : Except Trap (α × Cursor)} {a : α}
    {d : Decoder} (h : c.Runs action a d) {f : α × Cursor → Except Trap (β × Cursor)} {b : β}
    {d' : Decoder}
    (hf : ∀ next : Cursor, next.Sound → next.decoder = d → next.Runs (f (a, next)) b d') :
    c.Runs (action >>= f) b d' := by
  obtain ⟨next, haction, hleads, hdecoder⟩ := h
  obtain ⟨last, hlast, hleads', hdecoder'⟩ := hf next (hc.next hleads) hdecoder
  exact ⟨last, by rw [haction]; exact hlast, hleads.trans hleads', hdecoder'⟩

/-- What an action gives may be turned into something else. -/
theorem Runs.map {α β : Type} {action : Except Trap (α × Cursor)} {a : α} {d : Decoder}
    (h : c.Runs action a d) (f : α → β) :
    c.Runs (action >>= fun found => pure (f found.1, found.2)) (f a) d := by
  obtain ⟨next, haction, hleads, hdecoder⟩ := h
  exact ⟨next, by rw [haction]; rfl, hleads, hdecoder⟩

/-- To stay where one is is to be at the decoder that one stands for. -/
theorem Sound.runs_pure (hc : c.Sound) {α : Type} (a : α) : c.Runs (.ok (a, c)) a c.decoder :=
  ⟨c, rfl, hc.leads_self, rfl⟩

theorem decoder_fail (c : Cursor) (fault : Fault) :
    (c.fail fault).decoder = c.decoder.fail fault := by
  rcases c with ⟨_, _, _, _, _ | _, _⟩ <;> rfl

theorem Sound.runs_fail (hc : c.Sound) {α : Type} (a : α) (fault : Fault) :
    c.Runs (.ok (a, c.fail fault)) a (c.decoder.fail fault) := by
  refine ⟨c.fail fault, rfl, ?_, decoder_fail c fault⟩
  unfold fail
  split
  · exact hc.leads_self
  · exact ⟨rfl, Nat.le_refl _, hc.pos_le⟩

/-- Bytes that are left are gone past. -/
theorem Sound.runs_advance (hc : c.Sound) {count : Nat} (hcount : count ≤ c.decoder.rest.length)
    {α : Type} (a : α) :
    Checked.add wordLimit c.pos count = .ok (c.pos + count) ∧
      c.Runs (.ok (a, { c with pos := c.pos + count })) a
        { c.decoder with rest := c.decoder.rest.drop count } := by
  have hpos := hc.pos_le
  have hlength := hc.length_lt
  rw [decoder, List.length_drop] at hcount
  refine ⟨if_pos (by omega), _, rfl, ⟨rfl, Nat.le_add_right _ _, by show _ + _ ≤ _; omega⟩, ?_⟩
  rw [decoder, decoder, List.drop_drop]

/-- **The number of unread bytes** is a difference that there is. -/
theorem Sound.length_eq (hc : c.Sound) : c.length = .ok c.decoder.rest.length := by
  rw [decoder, List.length_drop]
  exact if_pos hc.pos_le

/-- The unread bytes are a piece of the input. -/
theorem Sound.slice_rest (hc : c.Sound) :
    Checked.slice c.buf c.pos c.buf.length = .ok c.decoder.rest := by
  rw [Checked.slice, if_pos ⟨hc.pos_le, Nat.le_refl _⟩, List.take_length]
  rfl

/-- **Bytes are taken from inside the input**, however many are asked for. -/
theorem Sound.runs_take (hc : c.Sound) (count : Nat) :
    c.Runs (c.take count) (c.decoder.take count).1 (c.decoder.take count).2 := by
  rcases herror : c.error with _ | fault
  · rcases Nat.lt_or_ge c.decoder.rest.length count with hshort | hlong
    · have hruns := hc.runs_fail (none : Option (List UInt8)) .bufferTooShort
      rw [Decoder.take_of_short (d := c.decoder) herror hshort]
      simp only [take, herror, hc.length_eq, bind, Except.bind, pure, Except.pure, if_pos hshort]
      exact hruns
    · obtain ⟨hadd, hruns⟩ := hc.runs_advance hlong (some (c.decoder.rest.take count))
      have hslice : Checked.slice c.buf c.pos (c.pos + count) =
          .ok (c.decoder.rest.take count) := by
        have hpos := hc.pos_le
        rw [decoder, List.length_drop] at hlong
        rw [Checked.slice, if_pos ⟨by omega, by omega⟩, decoder, List.drop_take,
          Nat.add_sub_cancel_left]
      rw [Decoder.take_of_le (d := c.decoder) herror hlong]
      simp only [take, herror, hc.length_eq, bind, Except.bind, pure, Except.pure,
        if_neg (Nat.not_lt.2 hlong), hadd, hslice]
      rw [herror] at hruns
      exact hruns
  · have hstill := Decoder.take_of_error (d := c.decoder) herror count
    simp only [hstill, take, herror]
    exact hc.runs_pure none

/-- **A number of fixed width** is read from a row of its width. -/
theorem Sound.runs_fixed (hc : c.Sound) (w : Width) :
    c.Runs (c.fixed w.bytes) (.ofNat 64 (c.decoder.fixed w).1.toNat) (c.decoder.fixed w).2 := by
  obtain ⟨next, htake, hleads, hdecoder⟩ := hc.runs_take w.bytes
  rw [fixed, Decoder.fixed, htake]
  rcases hfound : c.decoder.take w.bytes with ⟨_ | row, d⟩
  · rw [hfound] at hdecoder
    exact ⟨next, rfl, hleads, hdecoder⟩
  · rw [hfound] at hdecoder
    obtain ⟨-, hlength, -, hd⟩ := Decoder.of_take_eq_some hfound
    refine ⟨next, ?_, hleads, hdecoder⟩
    simp only [bind, Except.bind, pure, Except.pure, c.order.get_of_length hlength]
    rw [hd]
    rfl

theorem Sound.runs_unsigned (hc : c.Sound) (w : Width) :
    c.Runs (c.unsigned w) (c.decoder.fixed w).1 (c.decoder.fixed w).2 := by
  have hnumber (n : BitVec w.bits) : (BitVec.ofNat 64 n.toNat).setWidth w.bits = n := by
    have hn : n.toNat < 2 ^ 64 :=
      Nat.lt_of_lt_of_le n.isLt (Nat.pow_le_pow_right (by decide) w.bits_le)
    apply BitVec.eq_of_toNat_eq
    rw [BitVec.toNat_setWidth, BitVec.toNat_ofNat, Nat.mod_eq_of_lt hn, Nat.mod_eq_of_lt n.isLt]
  have hruns := (hc.runs_fixed w).map fun word => word.setWidth w.bits
  rw [hnumber] at hruns
  exact hruns

/-- **A count of bytes that is no width** is found before a number is read by it. -/
theorem isWidth_eq (size : Nat) : isWidth size = (Width.ofBytes? size).isSome := by
  unfold isWidth
  split
  any_goals rfl
  next hone htwo hfour height =>
  have hnone : Width.ofBytes? size = none := by
    rw [Width.ofBytes?_eq_none_iff]
    simpa [Format.widths] using ⟨hone, htwo, hfour, height⟩
  rw [hnone]
  rfl

theorem Sound.runs_signedIn (hc : c.Sound) (size : Nat) :
    c.Runs (c.signedIn size) (c.decoder.signedIn size).1 (c.decoder.signedIn size).2 := by
  rcases herror : c.error with _ | fault
  · have hd : c.decoder.error = none := herror
    rcases hw : Width.ofBytes? size with _ | w
    · have hwidth : ¬isWidth size = true := by rw [isWidth_eq, hw]; exact Bool.false_ne_true
      have hruns := hc.runs_fail (0 : Int) (.invalidSize size)
      simp only [Decoder.signedIn, Decoder.sized, hd, hw]
      rw [signedIn.eq_def]
      simp only [herror, if_neg hwidth]
      exact hruns
    · have hruns := (hc.runs_unsigned w).map BitVec.toInt
      simp only [Decoder.signedIn, Decoder.sized, hd, hw]
      obtain ⟨rfl, -⟩ := Width.bytes_of_ofBytes? hw
      rw [signedIn.eq_def, herror]
      cases w <;> exact hruns
  · rw [Decoder.signedIn_of_error (d := c.decoder) herror, signedIn.eq_def, herror]
    exact hc.runs_pure 0

/-- A length in front of a payload is a word, so nothing of it is lost. -/
theorem Sound.runs_unsignedIn (hc : c.Sound) (size : Nat) :
    c.Runs (c.unsignedIn size) (.ofNat 64 (c.decoder.unsignedIn size).1)
      (c.decoder.unsignedIn size).2 := by
  rcases herror : c.error with _ | fault
  · have hd : c.decoder.error = none := herror
    rcases hw : Width.ofBytes? size with _ | w
    · have hwidth : ¬isWidth size = true := by rw [isWidth_eq, hw]; exact Bool.false_ne_true
      simp only [Decoder.unsignedIn, Decoder.sized, hd, hw, unsignedIn, herror, if_neg hwidth]
      exact hc.runs_fail (0 : BitVec 64) (.invalidSize size)
    · have hwidth : isWidth size = true := by rw [isWidth_eq, hw]; rfl
      obtain ⟨rfl, -⟩ := Width.bytes_of_ofBytes? hw
      simp only [Decoder.unsignedIn, Decoder.sized, hd, hw, unsignedIn, herror, if_pos hwidth]
      exact hc.runs_fixed w
  · rw [Decoder.unsignedIn_of_error (d := c.decoder) herror, unsignedIn, herror]
    exact hc.runs_pure (0 : BitVec 64)

/-- **A number of variable length** is read to its end or not at all. -/
theorem Sound.runs_varUnsigned (hc : c.Sound) :
    c.Runs c.varUnsigned (.ofNat 64 c.decoder.varUnsigned.1) c.decoder.varUnsigned.2 := by
  rcases herror : c.error with _ | fault
  · have hd : c.decoder.error = none := herror
    rcases hdecode : Varint.decode c.decoder.rest with failure | ⟨n, following⟩
    · cases failure with
      | truncated =>
        simp only [Decoder.varUnsigned, hd, hdecode, varUnsigned, herror, hc.slice_rest,
          Varint.get_eq, bind, Except.bind, pure, Except.pure, Except.map]
        exact hc.runs_fail (0 : BitVec 64) .bufferTooShort
      | overflow =>
        simp only [Decoder.varUnsigned, hd, hdecode, varUnsigned, herror, hc.slice_rest,
          Varint.get_eq, bind, Except.bind, pure, Except.pure, Except.map]
        exact hc.runs_fail (0 : BitVec 64) (.numberOverflow 8)
    · obtain ⟨row, hrow, -⟩ := Varint.exists_row_of_decodeFrom hdecode
      have hcount : c.decoder.rest.length - following.length = row.length := by
        rw [hrow, List.length_append, Nat.add_sub_cancel]
      obtain ⟨hadd, hruns⟩ := hc.runs_advance
        (show row.length ≤ c.decoder.rest.length by rw [hrow, List.length_append]; omega)
        (BitVec.ofNat 64 n)
      rw [hrow, List.drop_left] at hruns
      have hread := Decoder.varUnsigned_of_decode hd hdecode
      simp only [hread, varUnsigned, herror, hc.slice_rest, Varint.get_eq, hdecode, bind,
        Except.bind, pure, Except.pure, Except.map, hcount, hadd]
      rw [herror] at hruns
      exact hruns
  · rw [Decoder.varUnsigned_of_error (d := c.decoder) herror, varUnsigned, herror]
    exact hc.runs_pure (0 : BitVec 64)

/-- Nothing of a length is lost in a word. -/
theorem toNat_ofNat_of_word {n : Nat} (h : n < wordLimit) : (BitVec.ofNat 64 n).toNat = n :=
  Nat.mod_eq_of_lt h

/-- The payload behind a length that is a word. -/
theorem Sound.runs_prefixed (hc : c.Sound) {count : Nat} (hcount : count < wordLimit) :
    c.Runs (c.prefixed (.ofNat 64 count)) (c.decoder.take count).1 (c.decoder.take count).2 := by
  have hword := toNat_ofNat_of_word hcount
  rcases herror : c.error with _ | fault
  · simp only [prefixed, herror, hword, if_pos hcount]
    exact hc.runs_take count
  · rw [Decoder.take_of_error (d := c.decoder) herror, prefixed, herror]
    exact hc.runs_pure none

/-- **A delimiter is searched for in windows that are no longer than itself**, and the
payload ends in front of it. -/
theorem Sound.runs_delimited (hc : c.Sound) (delimiter : List UInt8) :
    c.Runs (c.delimited delimiter) (c.decoder.delimited delimiter).1
      (c.decoder.delimited delimiter).2 := by
  rcases herror : c.error with _ | fault
  · have hd : c.decoder.error = none := herror
    by_cases hempty : delimiter.isEmpty = true
    · simp only [Decoder.delimited, hd, delimited, herror, if_pos hempty]
      exact hc.runs_fail none .emptyDelimiter
    · obtain ⟨windows, hwindows, hsearch⟩ :=
        Delimiter.findIdx?_windows (by simpa using hempty) c.decoder.rest
      rcases hfind : Delimiter.find? delimiter c.decoder.rest with _ | position
      · simp only [Decoder.delimited, hd, delimited, herror, if_neg hempty, hc.slice_rest,
          hwindows, hsearch, hfind, bind, Except.bind, pure, Except.pure]
        exact hc.runs_fail none .bufferTooShort
      · obtain ⟨hle, hthere, -⟩ := (Delimiter.find?_eq_some_iff _ _ _).1 hfind
        have hlength := hthere.length_le
        rw [List.length_drop] at hlength
        obtain ⟨hadd, hruns⟩ := hc.runs_advance
          (show position + delimiter.length ≤ c.decoder.rest.length by omega)
          (some (c.decoder.rest.take position))
        have hstep : Checked.add wordLimit position delimiter.length =
            .ok (position + delimiter.length) := by
          have hword := hc.length_lt
          refine if_pos (Nat.lt_of_le_of_lt ?_ hword)
          rw [decoder, List.length_drop] at hle hlength
          omega
        have hslice : Checked.slice c.decoder.rest 0 position =
            .ok (c.decoder.rest.take position) := by
          rw [Checked.slice, if_pos ⟨Nat.zero_le _, hle⟩, List.drop_zero]
        have hread : c.decoder.delimited delimiter = (some (c.decoder.rest.take position),
            { c.decoder with rest := c.decoder.rest.drop (position + delimiter.length) }) := by
          simp only [Decoder.delimited, hd, if_neg hempty, hfind]
        simp only [hread, delimited, herror, if_neg hempty, hc.slice_rest, hwindows, hsearch,
          hfind, bind, Except.bind, pure, Except.pure, hstep, hadd, hslice]
        rw [herror] at hruns
        exact hruns
  · have hstill : c.decoder.delimited delimiter = (none, c.decoder) :=
      Decoder.payload_of_error (d := c.decoder) herror (.delimited delimiter)
    rw [hstill, delimited, herror]
    exact hc.runs_pure none

/-- **A payload is found safely**, whatever says where it ends. -/
theorem Sound.runs_payload (hc : c.Sound) (extent : Extent) :
    c.Runs (c.payload extent) (c.decoder.payload extent).1 (c.decoder.payload extent).2 := by
  cases extent with
  | exactly count => exact hc.runs_take count
  | sized size =>
    refine Runs.bind hc (hc.runs_unsignedIn size) fun next hnext hdecoder => ?_
    have hpayload : c.decoder.payload (.sized size) =
        (c.decoder.unsignedIn size).2.take (c.decoder.unsignedIn size).1 := rfl
    rw [hpayload, ← hdecoder]
    exact hnext.runs_prefixed (c.decoder.unsignedIn_lt size)
  | counted =>
    refine Runs.bind hc hc.runs_varUnsigned fun next hnext hdecoder => ?_
    have hpayload : c.decoder.payload .counted =
        c.decoder.varUnsigned.2.take c.decoder.varUnsigned.1 := rfl
    rw [hpayload, ← hdecoder]
    exact hnext.runs_prefixed c.decoder.varUnsigned_lt
  | delimited delimiter => exact hc.runs_delimited delimiter
  | rest =>
    rw [payload, hc.length_eq]
    exact hc.runs_take c.decoder.rest.length

/-- **Every read runs through** and gives what the decoder gives. -/
theorem Sound.runs_read (hc : c.Sound) (read : Read) :
    c.Runs (c.read read) (c.decoder.read read).1 (c.decoder.read read).2 := by
  cases read with
  | skip count => exact (hc.runs_take count).map fun _ => ({ value := .nothing } : Reply)
  | flag => exact (hc.runs_unsigned .one).map fun n => ({ value := .flag (n == 1) } : Reply)
  | signed width =>
    exact (hc.runs_unsigned width).map fun n => ({ value := .number n.toInt } : Reply)
  | unsigned width =>
    exact (hc.runs_unsigned width).map fun n => ({ value := .number n.toNat } : Reply)
  | signedIn size => exact (hc.runs_signedIn size).map fun i => ({ value := .number i } : Reply)
  | unsignedIn size =>
    have hruns := (hc.runs_unsignedIn size).map fun n => ({ value := .number n.toNat } : Reply)
    rw [toNat_ofNat_of_word (c.decoder.unsignedIn_lt size)] at hruns
    exact hruns
  | float32 => exact (hc.runs_unsigned .four).map fun n => ({ value := .float32 n } : Reply)
  | float64 => exact (hc.runs_unsigned .eight).map fun n => ({ value := .float64 n } : Reply)
  | varSigned =>
    refine Runs.bind hc hc.runs_varUnsigned fun next hnext hdecoder => ?_
    dsimp only
    rw [Varint.unfold_eq, toNat_ofNat_of_word c.decoder.varUnsigned_lt, Decoder.read]
    dsimp only
    rw [← hdecoder]
    exact hnext.runs_pure _
  | varUnsigned =>
    have hruns := hc.runs_varUnsigned.map fun n => ({ value := .number n.toNat } : Reply)
    rw [toNat_ofNat_of_word c.decoder.varUnsigned_lt] at hruns
    exact hruns
  | text extent copy =>
    refine Runs.bind hc (hc.runs_payload extent) fun next hnext hdecoder => ?_
    rw [Decoder.read]
    generalize c.decoder.payload extent = found at hdecoder ⊢
    obtain ⟨_ | row, d⟩ := found
    · subst hdecoder
      exact hnext.runs_pure _
    · subst hdecoder
      dsimp only
      rcases text? row with _ | s
      · exact hnext.runs_fail _ .invalidText
      · exact hnext.runs_pure _
  | bytes extent copy =>
    refine Runs.bind hc (hc.runs_payload extent) fun next hnext hdecoder => ?_
    rw [Decoder.read]
    generalize c.decoder.payload extent = found at hdecoder ⊢
    obtain ⟨_ | row, d⟩ := found
    · subst hdecoder
      exact hnext.runs_pure _
    · subst hdecoder
      exact hnext.runs_pure _

/-- **One call**, if it goes on at all: a new input is read from its start, and any other
call stays with the input. -/
theorem Sound.call_eq (hc : c.Sound) (call : ReadCall)
    (hcall : ∀ input, call = .reset input → input.length < wordLimit) :
    (∃ outcome, c.call call = .ok (.error outcome) ∧ c.decoder.call call = .error outcome) ∨
      ∃ reply next, c.call call = .ok (.ok (reply, next)) ∧
        c.decoder.call call = .ok (reply, next.decoder) ∧ next.Sound ∧
        ((∀ input, call ≠ .reset input) → c.Leads next) := by
  have hstay (reply : Reply) (next : Cursor) (hleads : c.Leads next)
      (hnext : c.call call = .ok (.ok (reply, next)))
      (hdecoder : c.decoder.call call = .ok (reply, next.decoder)) :
      ∃ reply next, c.call call = .ok (.ok (reply, next)) ∧
        c.decoder.call call = .ok (reply, next.decoder) ∧ next.Sound ∧
        ((∀ input, call ≠ .reset input) → c.Leads next) :=
    ⟨reply, next, hnext, hdecoder, hc.next hleads, fun _ => hleads⟩
  have hself := hc.leads_self
  cases call with
  | read read =>
    obtain ⟨next, hread, hleads, hdecoder⟩ := hc.runs_read read
    refine .inr (hstay (c.decoder.read read).1 next hleads ?_ ?_)
    · rw [Cursor.call, hread]
      rfl
    · rw [hdecoder]
      rfl
  | reset input =>
    refine .inr ⟨_, c.reset input, rfl, rfl, ?_, fun hne => absurd rfl (hne input)⟩
    exact ⟨Nat.zero_le _, hcall input rfl⟩
  | askRemaining =>
    refine .inr (hstay _ c hself rfl ?_)
    have hasks : c.remaining = !c.decoder.rest.isEmpty := by
      rw [remaining, decoder, Bool.eq_iff_iff]
      simp [List.drop_eq_nil_iff]
    rw [hasks]
    rfl
  | check =>
    rcases herror : c.error with _ | fault
    · refine .inr (hstay { value := .nothing } c hself ?_ ?_)
      · rw [Cursor.call, herror]
        rfl
      · rw [Decoder.call, show c.decoder.error = none from herror]
    · refine .inl ⟨.error (.fault fault), ?_, ?_⟩
      · rw [Cursor.call, herror]
        rfl
      · rw [Decoder.call, show c.decoder.error = some fault from herror]
  | fail text => exact .inl ⟨_, rfl, rfl⟩
  | stop => exact .inl ⟨_, rfl, rfl⟩
  | setOrder order =>
    exact .inr (hstay _ { c with order } ⟨rfl, hself.le_pos, hself.pos_le⟩ rfl rfl)
  | askOrder => exact .inr (hstay _ c hself rfl rfl)
  | attach =>
    exact .inr (hstay _ { c with attached := true } ⟨rfl, hself.le_pos, hself.pos_le⟩ rfl rfl)

end Cursor

end Wirepool
