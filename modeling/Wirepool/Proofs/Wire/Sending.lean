import Wirepool.Proofs.Wire.Entries

/-!
# What becomes of a row of entries

An encoder that has kept no fault accepts a number of bytes more, its *limit*: a
counting one as many as a length can still express, a writing one not more than
what is left of its destination. The limit and the order in force decide all that
becomes of a field. It is sent, and then the limit shrinks by its image; or it
cannot be sent at all, and then nothing of it is; or it is too long, and then the
parts in front of the one that is refused are sent nevertheless.

`fate` says this of a row of entries without an encoder, and
`Encoder.foldl_enter_of_ok` and `Encoder.foldl_enter_of_stop` that it is what an
encoder does. The main result reads off what a counting pass accepts.
-/

namespace Wirepool

/-! ## Limits -/

/-- A sink behind another row of bytes. -/
def Sink.advance : Sink → List UInt8 → Sink
  | .counting, _ => .counting
  | .writing done rest, row => .writing (done ++ row) (rest.drop row.length)

namespace Encoder

/-- **An encoder behind another row of bytes.** -/
def advance (e : Encoder) (row : List UInt8) : Encoder :=
  { e with length := e.length + row.length, sink := e.sink.advance row }

theorem advance_nil (e : Encoder) : e.advance [] = e := by
  unfold advance Sink.advance
  obtain ⟨sink, _, _, _, _⟩ := e
  cases sink with
  | counting => rfl
  | writing done rest => simp

theorem advance_append (e : Encoder) (front back : List UInt8) :
    e.advance (front ++ back) = (e.advance front).advance back := by
  unfold advance Sink.advance
  obtain ⟨sink, _, _, _, _⟩ := e
  cases sink with
  | counting => simp [Nat.add_assoc]
  | writing done rest => simp [Nat.add_assoc]

/-- Whether that many bytes find room. -/
def Fits (e : Encoder) (size : Nat) : Prop :=
  e.length + size < wordLimit ∧
    match e.sink with
    | .counting => True
    | .writing _ rest => size ≤ rest.length

/-- Bytes find room behind others if all of them do. -/
theorem fits_advance {e : Encoder} {row : List UInt8} (h : e.Fits row.length) (size : Nat) :
    (e.advance row).Fits size ↔ e.Fits (row.length + size) := by
  obtain ⟨sink, _, _, _, _⟩ := e
  unfold Fits advance Sink.advance at *
  cases sink with
  | counting => simp only [Nat.add_assoc]
  | writing done rest =>
    simp only [Nat.add_assoc, List.length_drop] at *
    omega

/-- **An encoder that accepts just `limit` bytes more**, and has kept no fault. -/
structure Accepts (e : Encoder) (limit : Nat) : Prop where
  error_eq : e.error = none
  fits_iff : ∀ size, e.Fits size ↔ size ≤ limit

theorem accepts_counter (order : ByteOrder) : (counter order).Accepts (wordLimit - 1) where
  error_eq := rfl
  fits_iff size := by
    have hlimit : 0 < wordLimit := by decide
    simp only [Fits, counter, and_true]
    omega

theorem accepts_writer (order : ByteOrder) (destination : List UInt8) :
    (writer order destination).Accepts (min (wordLimit - 1) destination.length) where
  error_eq := rfl
  fits_iff size := by
    have hlimit : 0 < wordLimit := by decide
    simp only [Fits, writer]
    omega

/-- Bytes that were accepted count against the limit. -/
theorem Accepts.advance {e : Encoder} {limit : Nat} (h : e.Accepts limit) {row : List UInt8}
    (hroom : row.length ≤ limit) : (e.advance row).Accepts (limit - row.length) where
  error_eq := h.error_eq
  fits_iff size := by
    rw [fits_advance ((h.fits_iff _).mpr hroom), h.fits_iff]
    omega

/-! ## Pieces and fields -/

/-- **A piece that finds room** is sent. -/
theorem take_of_fits {e : Encoder} {piece : Piece} (herror : e.error = none)
    (h : e.Fits piece.length) : e.take piece = e.advance piece.bytes := by
  obtain ⟨sink, _, _, _, _⟩ := e
  subst herror
  unfold take advance
  cases sink with
  | counting => simp [Nat.not_le.mpr h.1, Sink.advance]
  | writing done rest => simp [Nat.not_le.mpr h.1, Nat.not_lt.mpr h.2, Sink.advance]

/-- **A piece that finds none** is refused. -/
theorem take_of_not_fits {e : Encoder} {piece : Piece} (herror : e.error = none)
    (h : ¬ e.Fits piece.length) : e.take piece = e.fail .bufferTooShort := by
  obtain ⟨sink, _, _, _, _⟩ := e
  subst herror
  unfold take
  unfold Fits at h
  cases sink with
  | counting => simp_all
  | writing done rest =>
    simp only at h ⊢
    split
    · rfl
    · rw [if_pos (by omega)]

/-- **A row of pieces is sent as far as the limit reaches**, piece by piece. -/
theorem foldl_take_cases (pieces : List Piece) {e : Encoder} {limit : Nat}
    (h : e.Accepts limit) :
    ((pieces.map Piece.bytes).flatten.length ≤ limit ∧
        pieces.foldl take e = e.advance (pieces.map Piece.bytes).flatten) ∨
      ∃ sent part others, pieces.map Piece.bytes = sent ++ part :: others ∧
        sent.flatten.length ≤ limit ∧ limit < sent.flatten.length + part.length ∧
        pieces.foldl take e = (e.advance sent.flatten).fail .bufferTooShort := by
  induction pieces generalizing e limit with
  | nil => exact .inl ⟨Nat.zero_le _, e.advance_nil.symm⟩
  | cons piece pieces ih =>
    rw [List.foldl_cons, List.map_cons, List.flatten_cons, List.length_append]
    by_cases hfits : piece.length ≤ limit
    · -- The pieces behind it meet what the first one leaves of the limit.
      have hnext : (e.advance piece.bytes).Accepts (limit - piece.bytes.length) :=
        h.advance (by rwa [Piece.length_bytes])
      rw [take_of_fits h.error_eq ((h.fits_iff _).mpr hfits)]
      rw [← Piece.length_bytes] at hfits
      rcases ih hnext with ⟨hroom, heq⟩ | ⟨sent, part, others, hparts, hsent, hpart, heq⟩
      · exact .inl ⟨by omega, by rw [heq, advance_append]⟩
      · refine .inr ⟨piece.bytes :: sent, part, others, by rw [hparts]; rfl, ?_, ?_, ?_⟩
        · rw [List.flatten_cons, List.length_append]
          omega
        · rw [List.flatten_cons, List.length_append]
          omega
        · rw [heq, List.flatten_cons, advance_append]
    · refine .inr ⟨[], piece.bytes, _, rfl, Nat.zero_le _, ?_, ?_⟩
      · rw [Piece.length_bytes, List.flatten_nil, List.length_nil]
        omega
      · rw [take_of_not_fits h.error_eq (mt (h.fits_iff _).mp hfits),
          foldl_take_of_error (error_fail h.error_eq _), List.flatten_nil, advance_nil]

/-- **What becomes of one field**: its fault, its image, or the parts in front of
the first one that finds no room. -/
theorem put_cases {e : Encoder} {limit : Nat} (h : e.Accepts limit) (field : Field) :
    (∃ fault, field.fault? = some fault ∧ e.put field = e.fail fault) ∨
      (field.Sendable ∧ (field.image e.order).length ≤ limit ∧
        e.put field = e.advance (field.image e.order)) ∨
      (field.Sendable ∧ ∃ sent part others, field.parts e.order = sent ++ part :: others ∧
        sent.flatten.length ≤ limit ∧ limit < sent.flatten.length + part.length ∧
        e.put field = (e.advance sent.flatten).fail .bufferTooShort) := by
  have hcases := Field.pieces_cases e.order field
  unfold put
  rw [h.error_eq]
  cases hfault : field.fault? with
  | some fault =>
    rw [hfault] at hcases
    refine .inl ⟨fault, rfl, ?_⟩
    simp only [hcases]
  | none =>
    rw [hfault] at hcases
    obtain ⟨pieces, hpieces, hparts⟩ := hcases
    have hsendable := Field.fault?_eq_none_iff.mp hfault
    rw [Field.image, ← hparts]
    simp only [hpieces]
    rcases foldl_take_cases pieces h with hsent | hrefused
    · exact .inr (.inl ⟨hsendable, hsent⟩)
    · exact .inr (.inr ⟨hsendable, hrefused⟩)

end Encoder

/-! ## Rows of entries -/

/-- **The fate of a field** that meets a limit: its image, or a fault. -/
def Field.fate (limit : Nat) (order : ByteOrder) (field : Field) : Except Fault (List UInt8) :=
  match field.fault? with
  | some fault => .error fault
  | none =>
    if (field.image order).length ≤ limit then .ok (field.image order)
    else .error .bufferTooShort

/-- A field is sent if it can be sent and finds room. -/
theorem Field.fate_eq_ok_iff {limit : Nat} {order : ByteOrder} {field : Field} {row : List UInt8} :
    field.fate limit order = .ok row ↔
      field.Sendable ∧ row = field.image order ∧ row.length ≤ limit := by
  rw [fate, ← Field.fault?_eq_none_iff]
  cases hfault : field.fault? with
  | some fault => exact iff_of_false nofun nofun
  | none =>
    dsimp only
    split
    · next hroom =>
      constructor
      · rintro ⟨⟩
        exact ⟨rfl, rfl, hroom⟩
      · rintro ⟨-, rfl, -⟩
        rfl
    · next hroom =>
      refine iff_of_false nofun ?_
      rintro ⟨-, rfl, h⟩
      exact hroom h

namespace Entry

/-- **The fate of a row of entries** that meets a limit: its image, or the first
fault. Every field leaves less of the limit to those behind it. -/
def fate (limit : Nat) : ByteOrder → List Entry → Except Fault (List UInt8)
  | _, [] => .ok []
  | o, .field f :: entries =>
    match f.fate limit o with
    | .error fault => .error fault
    | .ok row => (fate (limit - row.length) o entries).map (row ++ ·)
  | _, .order o :: entries => fate limit o entries

/-- **A row of entries is sent** if each of them can be sent and all of them find
room. -/
theorem fate_eq_ok_iff {limit : Nat} {order : ByteOrder} {entries : List Entry}
    {row : List UInt8} :
    fate limit order entries = .ok row ↔
      (∀ entry ∈ entries, entry.Sendable) ∧ row = image order entries ∧ row.length ≤ limit := by
  induction entries generalizing limit order row with
  | nil =>
    constructor
    · rintro ⟨⟩
      exact ⟨nofun, rfl, Nat.zero_le _⟩
    · rintro ⟨-, rfl, -⟩
      rfl
  | cons entry entries ih =>
    cases entry with
    | order o =>
      rw [fate, ih, List.forall_mem_cons, image, Sendable, true_and]
    | field f =>
      rw [fate, List.forall_mem_cons, image, Sendable]
      cases hfirst : f.fate limit order with
      | error fault =>
        refine iff_of_false nofun ?_
        rintro ⟨⟨hsendable, -⟩, rfl, hroom⟩
        rw [List.length_append] at hroom
        rw [Field.fate_eq_ok_iff.mpr ⟨hsendable, rfl, by omega⟩] at hfirst
        cases hfirst
      | ok first =>
        obtain ⟨hsendable, rfl, hroom⟩ := Field.fate_eq_ok_iff.mp hfirst
        constructor
        · intro h
          obtain ⟨others, hothers, rfl⟩ := exists_of_map_eq_ok h
          obtain ⟨hall, rfl, hrest⟩ := ih.mp hothers
          exact ⟨⟨hsendable, hall⟩, rfl, by rw [List.length_append]; omega⟩
        · rintro ⟨⟨-, hall⟩, rfl, hrest⟩
          rw [List.length_append] at hrest
          dsimp only
          rw [ih.mpr ⟨hall, rfl, by omega⟩]
          rfl

/-- **A row of entries that ends with a fault** when `length` bytes of it are sent.
All entries in front of a field are sent. The field itself cannot be sent at all, or
one of its parts finds no room behind those in front of it. -/
def Stops (limit : Nat) (order : ByteOrder) (entries : List Entry) (fault : Fault)
    (length : Nat) : Prop :=
  ∃ front field back, entries = front ++ .field field :: back ∧
    (∀ entry ∈ front, entry.Sendable) ∧ (image order front).length ≤ limit ∧
    (field.fault? = some fault ∧ length = (image order front).length ∨
      field.Sendable ∧ fault = .bufferTooShort ∧ ∃ sent part others,
        field.parts (lastOrder order front) = sent ++ part :: others ∧
        length = (image order front).length + sent.flatten.length ∧
        length ≤ limit ∧ limit < length + part.length)

/-- What is sent of a row that stops is within the limit. -/
theorem Stops.length_le {limit : Nat} {order : ByteOrder} {entries : List Entry} {fault : Fault}
    {length : Nat} (h : Stops limit order entries fault length) : length ≤ limit := by
  obtain ⟨_, _, _, _, _, hroom, ⟨_, rfl⟩ | ⟨_, _, _, _, _, _, _, hle, _⟩⟩ := h
  · exact hroom
  · exact hle

/-- A change of the order does not stop a row. -/
theorem Stops.cons_order {limit : Nat} {o : ByteOrder} {entries : List Entry} {fault : Fault}
    {length : Nat} (h : Stops limit o entries fault length) (order : ByteOrder) :
    Stops limit order (.order o :: entries) fault length := by
  obtain ⟨front, field, back, rfl, hfront, hrest⟩ := h
  exact ⟨.order o :: front, field, back, rfl, List.forall_mem_cons.mpr ⟨trivial, hfront⟩, hrest⟩

/-- A field that is sent does not stop a row. -/
theorem Stops.cons_field {limit : Nat} {o : ByteOrder} {entries : List Entry} {fault : Fault}
    {length : Nat} {f : Field} (hsendable : f.Sendable) (hroom : (f.image o).length ≤ limit)
    (h : Stops (limit - (f.image o).length) o entries fault length) :
    Stops limit o (.field f :: entries) fault ((f.image o).length + length) := by
  obtain ⟨front, field, back, rfl, hfront, hsent, hstop⟩ := h
  refine ⟨.field f :: front, field, back, rfl, List.forall_mem_cons.mpr ⟨hsendable, hfront⟩, ?_⟩
  rw [image, lastOrder, List.length_append]
  refine ⟨by omega, ?_⟩
  rcases hstop with ⟨hfault, rfl⟩ | ⟨hfits, rfl, sent, part, others, hparts, rfl, hlast, hpart⟩
  · exact .inl ⟨hfault, rfl⟩
  · exact .inr ⟨hfits, rfl, sent, part, others, hparts, by omega, by omega, by omega⟩

end Entry

namespace Encoder

theorem length_fail (e : Encoder) (fault : Fault) : (e.fail fault).length = e.length := by
  unfold fail
  split <;> rfl

theorem order_fail (e : Encoder) (fault : Fault) : (e.fail fault).order = e.order := by
  unfold fail
  split <;> rfl

theorem sink_fail (e : Encoder) (fault : Fault) : (e.fail fault).sink = e.sink := by
  unfold fail
  split <;> rfl

variable {e : Encoder} {limit : Nat}

/-- A field that is to be sent is sent. -/
theorem put_of_fate_ok (h : e.Accepts limit) {field : Field} {row : List UInt8}
    (hfate : field.fate limit e.order = .ok row) : e.put field = e.advance row := by
  obtain ⟨hsendable, rfl, hroom⟩ := Field.fate_eq_ok_iff.mp hfate
  rcases put_cases h field with ⟨fault, hfault, -⟩ | ⟨-, -, hput⟩ |
    ⟨-, sent, part, others, hparts, hsent, hpart, -⟩
  · rw [Field.fault?_eq_none_iff.mpr hsendable] at hfault
    cases hfault
  · exact hput
  · rw [Field.image, hparts, List.flatten_append, List.flatten_cons, List.length_append,
      List.length_append] at hroom
    omega

/-- **A field that is not to be sent** stops the row, and what is sent of it is a front part
of its image. -/
theorem put_eq_of_fate_error (h : e.Accepts limit) {field : Field} {fault : Fault}
    (hfate : field.fate limit e.order = .error fault) (back : List Entry) :
    ∃ sent, e.put field = (e.advance sent).fail fault ∧ sent <+: field.image e.order ∧
      Entry.Stops limit e.order (.field field :: back) fault sent.length := by
  rw [Field.fate] at hfate
  rcases put_cases h field with ⟨found, hfault, hput⟩ | ⟨hsendable, hroom, -⟩ |
    ⟨hsendable, sent, part, others, hparts, hsent, hpart, hput⟩
  · rw [hfault] at hfate
    cases hfate
    refine ⟨[], by rw [hput, advance_nil], List.nil_prefix, [], field, back, rfl, nofun,
      Nat.zero_le _, .inl ⟨hfault, rfl⟩⟩
  · rw [Field.fault?_eq_none_iff.mpr hsendable] at hfate
    dsimp only at hfate
    rw [if_pos hroom] at hfate
    cases hfate
  · rw [Field.fault?_eq_none_iff.mpr hsendable] at hfate
    dsimp only at hfate
    split at hfate
    · cases hfate
    · cases hfate
      refine ⟨sent.flatten, hput, ⟨(part :: others).flatten, ?_⟩, [], field, back, rfl, nofun,
        Nat.zero_le _, .inr ⟨hsendable, rfl, sent, part, others, hparts, (Nat.zero_add _).symm,
          hsent, hpart⟩⟩
      rw [Field.image, hparts, List.flatten_append]

/-- A field that is not to be sent leaves its fault. -/
theorem put_of_fate_error (h : e.Accepts limit) {field : Field} {fault : Fault}
    (hfate : field.fate limit e.order = .error fault) : (e.put field).error = some fault := by
  obtain ⟨sent, hput, -⟩ := put_eq_of_fate_error h hfate []
  rw [hput]
  exact error_fail (e := e.advance sent) h.error_eq fault

/-- **A row that is to be sent is sent.** -/
theorem foldl_enter_of_ok {entries : List Entry} (h : e.Accepts limit) {row : List UInt8}
    (hfate : Entry.fate limit e.order entries = .ok row) :
    entries.foldl enter e =
      { e.advance row with order := Entry.lastOrder e.order entries } := by
  induction entries generalizing e limit row with
  | nil =>
    cases hfate
    exact e.advance_nil.symm
  | cons entry entries ih =>
    cases entry with
    | order o => exact ih (e := e.setOrder o) ⟨h.error_eq, h.fits_iff⟩ hfate
    | field f =>
      rw [Entry.fate] at hfate
      cases hfirst : f.fate limit e.order with
      | error fault =>
        rw [hfirst] at hfate
        cases hfate
      | ok first =>
        rw [hfirst] at hfate
        obtain ⟨others, hothers, rfl⟩ := exists_of_map_eq_ok hfate
        have hroom := (Field.fate_eq_ok_iff.mp hfirst).2.2
        show entries.foldl enter (e.put f) = _
        rw [put_of_fate_ok h hfirst, ih (e := e.advance first) (h.advance hroom) hothers,
          advance_append]
        rfl

/-- **A row that is not to be sent stops** where its fate says, behind a front part of its
image. -/
theorem foldl_enter_eq_of_stop {entries : List Entry} (h : e.Accepts limit) {fault : Fault}
    (hfate : Entry.fate limit e.order entries = .error fault) :
    ∃ sent, entries.foldl enter e = { (e.advance sent).fail fault with
        order := Entry.lastOrder e.order entries } ∧
      sent <+: Entry.image e.order entries ∧
      Entry.Stops limit e.order entries fault sent.length := by
  induction entries generalizing e limit with
  | nil => cases hfate
  | cons entry entries ih =>
    cases entry with
    | order o =>
      obtain ⟨sent, hlast, hsent, hstops⟩ := ih (e := e.setOrder o) ⟨h.error_eq, h.fits_iff⟩ hfate
      refine ⟨sent, hlast.trans ?_, hsent, hstops.cons_order e.order⟩
      rw [fail, fail, show (e.advance sent).error = none from h.error_eq,
        show ((e.setOrder o).advance sent).error = none from h.error_eq]
      rfl
    | field f =>
      rw [Entry.fate] at hfate
      show ∃ sent, entries.foldl enter (e.put f) = _ ∧ _
      cases hfirst : f.fate limit e.order with
      | error found =>
        rw [hfirst] at hfate
        cases hfate
        obtain ⟨sent, hput, hsent, hstops⟩ := put_eq_of_fate_error h hfirst entries
        refine ⟨sent, ?_, hsent.trans (List.prefix_append _ _), hstops⟩
        rw [foldl_enter_of_error (put_of_fate_error h hfirst), hput, order_fail]
        rfl
      | ok first =>
        obtain ⟨hsendable, rfl, hroom⟩ := Field.fate_eq_ok_iff.mp hfirst
        rw [hfirst] at hfate
        rw [put_of_fate_ok h hfirst]
        cases hothers : Entry.fate (limit - (f.image e.order).length) e.order entries with
        | ok row =>
          dsimp only at hfate
          rw [hothers] at hfate
          cases hfate
        | error found =>
          dsimp only at hfate
          rw [hothers] at hfate
          cases hfate
          obtain ⟨sent, hlast, hsent, hstops⟩ :=
            ih (e := e.advance (f.image e.order)) (h.advance hroom) hothers
          refine ⟨f.image e.order ++ sent, ?_, (List.prefix_append_right_inj _).mpr hsent, ?_⟩
          · rw [hlast, advance_append]
            rfl
          · rw [List.length_append]
            exact hstops.cons_field hsendable hroom

/-- A row that is not to be sent leaves its fault, and counts what is sent of it. -/
theorem foldl_enter_of_stop {entries : List Entry} (h : e.Accepts limit) {fault : Fault}
    (hfate : Entry.fate limit e.order entries = .error fault) :
    (entries.foldl enter e).error = some fault ∧
      ∃ length, Entry.Stops limit e.order entries fault length ∧
        (entries.foldl enter e).length = e.length + length := by
  obtain ⟨sent, hlast, -, hstops⟩ := foldl_enter_eq_of_stop h hfate
  rw [hlast]
  exact ⟨error_fail (e := e.advance sent) h.error_eq fault, sent.length, hstops,
    length_fail _ fault⟩

/-- An encoder that sent a row has no fault, has counted its image and has written
it in front of what its destination held. -/
theorem foldl_enter_writer {order : ByteOrder} {entries : List Entry} {destination : List UInt8}
    (hsendable : ∀ entry ∈ entries, entry.Sendable)
    (hword : (Entry.image order entries).length < wordLimit)
    (hroom : (Entry.image order entries).length ≤ destination.length) :
    let written := entries.foldl enter (writer order destination)
    written.error = none ∧ written.length = (Entry.image order entries).length ∧
      written.destination =
        Entry.image order entries ++ destination.drop (Entry.image order entries).length := by
  have hlimit : (Entry.image order entries).length ≤ min (wordLimit - 1) destination.length := by
    omega
  have hfate := Entry.fate_eq_ok_iff.mpr ⟨hsendable, rfl, hlimit⟩
  intro written
  rw [show written = _ from foldl_enter_of_ok (accepts_writer order destination) hfate]
  exact ⟨rfl, Nat.zero_add _, rfl⟩

/-- **A row of entries is sent in the format, or stops at the first that cannot be
sent.** A counting encoder ends without a fault just if every entry can be sent and
their image is not longer than a length can express. Then it has counted the image,
and any destination that holds the image gets it. Otherwise it keeps the fault of the
first field that cannot be sent or finds no room, and has counted what is sent in
front of it. -/
theorem sent_in_format_or_stopped (order : ByteOrder) (entries : List Entry) :
    let counted := (runCalls (entries.map Entry.call) (counter order)).encoder
    let image := Entry.image order entries
    (counted.error = none ↔
      (∀ entry ∈ entries, entry.Sendable) ∧ image.length < wordLimit) ∧
    (counted.error = none → counted.length = image.length ∧
      ∀ destination : List UInt8, image.length ≤ destination.length →
        let written := (runCalls (entries.map Entry.call) (writer order destination)).encoder
        written.error = none ∧ written.length = image.length ∧
          written.destination = image ++ destination.drop image.length) ∧
    ∀ fault, counted.error = some fault →
      Entry.Stops (wordLimit - 1) order entries fault counted.length := by
  intro counted image
  have hcounted : counted = entries.foldl enter (counter order) := runCalls_map_call _ _
  have hlimit : 0 < wordLimit := by decide
  cases hfate : Entry.fate (wordLimit - 1) order entries with
  | ok row =>
    obtain ⟨hsendable, rfl, hroom⟩ := Entry.fate_eq_ok_iff.mp hfate
    have hword : (Entry.image order entries).length < wordLimit := by omega
    rw [hcounted, foldl_enter_of_ok (accepts_counter order) hfate]
    refine ⟨iff_of_true rfl ⟨hsendable, hword⟩, fun _ => ⟨Nat.zero_add _, ?_⟩, nofun⟩
    intro destination hdestination
    rw [runCalls_map_call]
    exact foldl_enter_writer hsendable hword hdestination
  | error fault =>
    obtain ⟨herror, length, hstops, hlength⟩ :=
      foldl_enter_of_stop (accepts_counter order) hfate
    rw [← hcounted] at herror hlength
    refine ⟨iff_of_false ?_ ?_, ?_, ?_⟩
    · rw [herror]
      nofun
    · rintro ⟨hsendable, hword⟩
      rw [Entry.fate_eq_ok_iff.mpr ⟨hsendable, rfl, Nat.le_sub_one_of_lt hword⟩] at hfate
      cases hfate
    · rw [herror]
      nofun
    · intro found hfound
      rw [herror] at hfound
      cases hfound
      rw [hlength]
      exact (Nat.zero_add length).symm ▸ hstops

/-- A number before and behind a change of the order, and a payload with its length
in front, stand in a destination that is longer. Of two payloads the second of which
is too long for its frame, only the first is sent. -/
theorem sent_in_format_or_stopped_both :
    (runCalls ([.field (.unsigned .two 258), .order .littleEndian, .field (.unsigned .two 258),
        .field (.blob .counted (.bytes [7]))].map Entry.call)
      (writer .bigEndian [9, 9, 9, 9, 9, 9, 9])).encoder.destination = [1, 2, 2, 1, 1, 7, 9] ∧
    Entry.Stops (wordLimit - 1) .bigEndian
      [.field (.blob .counted (.bytes [7])), .field (.unsignedIn 1 256)] (.numberOverflow 1) 2 := by
  refine ⟨?_, ?_⟩
  · exact ((sent_in_format_or_stopped .bigEndian [.field (.unsigned .two 258),
      .order .littleEndian, .field (.unsigned .two 258),
      .field (.blob .counted (.bytes [7]))]).2.1 (by decide)).2 [9, 9, 9, 9, 9, 9, 9] (by decide)
      |>.2.2.trans (by decide)
  · exact (sent_in_format_or_stopped .bigEndian
      [.field (.blob .counted (.bytes [7])), .field (.unsignedIn 1 256)]).2.2
      (.numberOverflow 1) (by decide)

end Encoder

end Wirepool
