import Wirepool.Proofs.Wire.ShortDestination

/-!
# What the byte order decides

A message falls into *segments*, one for each piece of a field, and where they begin and
end does not depend on the byte order. Neither does what becomes of a field: whether it can
be sent, and whether its pieces find room. So two encoders that are made the same fields in
different orders stay *level*. They have the same length and the same fault all the time, and
the same number of bytes left.

What does depend on the order is the segments of a number of more than one byte, and of a
length in front of a payload if it is such a number. They are the other way round in the
other order, each in its place. A message is therefore the same in both orders up to these
turns, and also a message that stops somewhere, because it stops between two segments.
-/

namespace Wirepool

/-- The image of a row of entries begins with that of its front part. -/
theorem Entry.image_append (order : ByteOrder) (front back : List Entry) :
    image order (front ++ back) = image order front ++ image (lastOrder order front) back := by
  induction front generalizing order with
  | nil => rfl
  | cons entry front ih =>
    cases entry with
    | field field => rw [List.cons_append, image, image, ih, List.append_assoc]; rfl
    | order o => exact ih o

/-! ## Segments -/

/-- **A segment of a message**: what is sent for one piece of a field. -/
inductive Segment where
  /-- Bytes that are the same in both byte orders. -/
  | kept (size : Nat)
  /-- Bytes that are the other way round in the other byte order. -/
  | turned (size : Nat)
  deriving DecidableEq

namespace Segment

/-- The number of bytes. -/
def size : Segment → Nat
  | kept size | turned size => size

/-- The segment of a number in as many bytes. -/
def number (size : Nat) : Segment :=
  if size = 2 ∨ size = 4 ∨ size = 8 then turned size else kept size

/-- The bytes of a segment in the other byte order. -/
def apply : Segment → List UInt8 → List UInt8
  | kept _, row => row
  | turned _, row => row.reverse

/-- **Turns a row round in place**, segment by segment. -/
def turn : List Segment → List UInt8 → List UInt8
  | [], row => row
  | segment :: segments, row =>
    segment.apply (row.take segment.size) ++ turn segments (row.drop segment.size)

/-- The number of bytes of a row of segments. -/
def total (segments : List Segment) : Nat := (segments.map size).sum

theorem size_number (size : Nat) : (number size).size = size := by
  unfold number
  split <;> rfl

theorem apply_nil (segment : Segment) : segment.apply [] = [] := by
  cases segment <;> rfl

theorem length_apply (segment : Segment) (row : List UInt8) :
    (segment.apply row).length = row.length := by
  cases segment with
  | kept size => rfl
  | turned size => exact List.length_reverse

theorem turn_nil (segments : List Segment) : turn segments [] = [] := by
  induction segments with
  | nil => rfl
  | cons segment segments ih => rw [turn, List.take_nil, List.drop_nil, apply_nil, ih]; rfl

theorem total_append (front back : List Segment) :
    total (front ++ back) = total front + total back := by
  rw [total, List.map_append, List.sum_append]
  rfl

/-- Segments that fill the front of a row leave what is behind them to the others. -/
theorem turn_append {front : List Segment} {done : List UInt8} (h : done.length = total front)
    (back : List Segment) (row : List UInt8) :
    turn (front ++ back) (done ++ row) = turn front done ++ turn back row := by
  induction front generalizing done with
  | nil =>
    obtain rfl : done = [] := List.length_eq_zero_iff.mp h
    rfl
  | cons segment front ih =>
    have hsize : segment.size + total front = done.length := h.symm
    rw [List.cons_append, turn, turn, List.append_assoc, List.take_append_of_le_length (by omega),
      List.drop_append_of_le_length (by omega), ih (by rw [List.length_drop]; omega)]

/-- Segments behind the end of a row turn nothing. -/
theorem turn_append_nil {front : List Segment} {done : List UInt8} (h : done.length = total front)
    (back : List Segment) : turn (front ++ back) done = turn front done := by
  have hturn := turn_append h back []
  rwa [turn_nil, List.append_nil, List.append_nil] at hturn

end Segment

/-! ## The segments of a field -/

/-- The segments of a payload of a number of bytes in its frame. -/
def Frame.segments (length : Nat) : Frame → List Segment
  | .bare => [.kept length]
  | .sized size => [.number size, .kept length]
  | .counted => [.kept (Varint.size length), .kept length]
  | .delimited delimiter => [.kept length, .kept delimiter.length]

/-- **The segments of a field.** Numbers of two, four and eight bytes are turned, and so
are lengths in front of a payload that are sent in as many. -/
def Field.segments : Field → List Segment
  | .skip count => [.kept count]
  | .flag _ => [.kept 1]
  | .signed width _ | .unsigned width _ => [.number width.bytes]
  | .signedIn size _ | .unsignedIn size _ => [.number size]
  | .float32 _ => [.turned 4]
  | .float64 _ => [.turned 8]
  | .varSigned value => [.kept (Varint.size (Varint.zigzag value.toInt))]
  | .varUnsigned value => [.kept (Varint.size value.toNat)]
  | .blob frame payload => frame.segments payload.toBytes.length
  | .tail row => [.kept row.length]

namespace Piece

/-- A piece in a byte order. Only a number of fixed width has one. -/
def inOrder (o : ByteOrder) : Piece → Piece
  | .fixed width _ value => .fixed width o value
  | piece => piece

/-- The segment of a piece. -/
def segment : Piece → Segment
  | .fixed width _ _ => .number width.bytes
  | piece => .kept piece.length

theorem length_inOrder (o : ByteOrder) (piece : Piece) :
    (piece.inOrder o).length = piece.length := by
  cases piece <;> rfl

theorem size_segment (piece : Piece) : piece.segment.size = piece.length := by
  cases piece with
  | fixed width o value => exact Segment.size_number width.bytes
  | _ => rfl

/-- **A piece in the other byte order** is turned in its segment. -/
theorem bytes_littleEndian (piece : Piece) :
    (piece.inOrder .littleEndian).bytes =
      piece.segment.apply (piece.inOrder .bigEndian).bytes := by
  cases piece with
  | fixed width o value =>
    have hturned : (Digits.ofNat width.bytes value.toNat).reverse.reverse =
        Digits.ofNat width.bytes value.toNat := List.reverse_reverse _
    cases width with
    | one => rfl
    | _ => exact hturned.symm
  | _ => rfl

end Piece

/-- What a number is sent as that is to take `size` bytes is turned as one of that size. -/
theorem unsignedPiece_inOrder (size n : Nat) :
    (∃ fault, ∀ o, unsignedPiece o size n = .error fault) ∨
      ∃ piece : Piece, (∀ o, unsignedPiece o size n = .ok (piece.inOrder o)) ∧
        piece.segment = .number size := by
  unfold unsignedPiece
  rcases hw : Width.ofBytes? size with _ | w
  · exact .inl ⟨_, fun _ => rfl⟩
  obtain ⟨rfl, -⟩ := Width.bytes_of_ofBytes? hw
  by_cases hholds : w.holdsUnsigned n
  · exact .inr ⟨.fixed w .bigEndian (BitVec.ofNat w.bits n), fun o => if_pos hholds, rfl⟩
  · exact .inl ⟨_, fun o => if_neg hholds⟩

theorem signedPiece_inOrder (size : Nat) (i : Int) :
    (∃ fault, ∀ o, signedPiece o size i = .error fault) ∨
      ∃ piece : Piece, (∀ o, signedPiece o size i = .ok (piece.inOrder o)) ∧
        piece.segment = .number size := by
  unfold signedPiece
  rcases hw : Width.ofBytes? size with _ | w
  · exact .inl ⟨_, fun _ => rfl⟩
  obtain ⟨rfl, -⟩ := Width.bytes_of_ofBytes? hw
  by_cases hholds : w.holdsSigned i
  · exact .inr ⟨.fixed w .bigEndian (BitVec.ofInt w.bits i), fun o => if_pos hholds, rfl⟩
  · exact .inl ⟨_, fun o => if_neg hholds⟩

/-- The pieces of a payload in its frame. The order reaches the length in front of it. -/
theorem Frame.pieces_inOrder (frame : Frame) (payload : List UInt8) :
    (∃ fault, ∀ o, frame.pieces o payload = .error fault) ∨
      ∃ pieces : List Piece, (∀ o, frame.pieces o payload = .ok (pieces.map (Piece.inOrder o))) ∧
        pieces.map Piece.segment = frame.segments payload.length := by
  cases frame with
  | bare => exact .inr ⟨[.raw payload], fun _ => rfl, rfl⟩
  | sized size =>
    rcases unsignedPiece_inOrder size payload.length with ⟨fault, hfault⟩ | ⟨front, hfront, hturned⟩
    · exact .inl ⟨fault, fun o => by simp only [Frame.pieces, hfault o]⟩
    · refine .inr ⟨[front, .raw payload], fun o => by simp only [Frame.pieces, hfront o]; rfl, ?_⟩
      rw [List.map_cons, hturned]
      rfl
  | counted => exact .inr ⟨[.varint payload.length, .raw payload], fun _ => rfl, rfl⟩
  | delimited delimiter =>
    by_cases hempty : delimiter.isEmpty = true
    · exact .inl ⟨.emptyDelimiter, fun _ => if_pos hempty⟩
    · exact .inr ⟨[.raw payload, .raw delimiter], fun _ => if_neg hempty, rfl⟩

/-- **Whether a field can be sent does not depend on the order**, nor do its pieces, but for
the order that numbers are sent in. -/
theorem Field.pieces_inOrder (field : Field) :
    (∃ fault, ∀ o, field.pieces o = .error fault) ∨
      ∃ pieces : List Piece, (∀ o, field.pieces o = .ok (pieces.map (Piece.inOrder o))) ∧
        pieces.map Piece.segment = field.segments := by
  cases field with
  | skip count => exact .inr ⟨[.zeros count], fun _ => rfl, rfl⟩
  | flag value => exact .inr ⟨[.fixed .one .bigEndian (if value then 1 else 0)], fun _ => rfl, rfl⟩
  | signed width value | unsigned width value =>
    exact .inr ⟨[.fixed width .bigEndian value], fun _ => rfl, rfl⟩
  | signedIn size value =>
    refine (signedPiece_inOrder size value.toInt).imp ?_ ?_
    · rintro ⟨fault, hfault⟩
      exact ⟨fault, fun o => by rw [Field.pieces, hfault o]; rfl⟩
    · rintro ⟨piece, hpiece, hturned⟩
      exact ⟨[piece], fun o => by rw [Field.pieces, hpiece o]; rfl, congrArg ([·]) hturned⟩
  | unsignedIn size value =>
    refine (unsignedPiece_inOrder size value.toNat).imp ?_ ?_
    · rintro ⟨fault, hfault⟩
      exact ⟨fault, fun o => by rw [Field.pieces, hfault o]; rfl⟩
    · rintro ⟨piece, hpiece, hturned⟩
      exact ⟨[piece], fun o => by rw [Field.pieces, hpiece o]; rfl, congrArg ([·]) hturned⟩
  | float32 value => exact .inr ⟨[.fixed .four .bigEndian value], fun _ => rfl, rfl⟩
  | float64 value => exact .inr ⟨[.fixed .eight .bigEndian value], fun _ => rfl, rfl⟩
  | varSigned value =>
    exact .inr ⟨[.varint (Varint.zigzag value.toInt)], fun _ => rfl, rfl⟩
  | varUnsigned value => exact .inr ⟨[.varint value.toNat], fun _ => rfl, rfl⟩
  | blob frame payload => exact frame.pieces_inOrder payload.toBytes
  | tail row => exact .inr ⟨[.raw row], fun _ => rfl, rfl⟩

namespace Encoder

variable {b l : Encoder}

/-! ## Level encoders -/

/-- Sinks that have as much room. -/
def SinksLevel : Sink → Sink → Prop
  | .counting, .counting => True
  | .writing _ rest, .writing _ rest' => rest' = rest
  | _, _ => False

theorem SinksLevel.cases {s s' : Sink} (h : SinksLevel s s') :
    (s = .counting ∧ s' = .counting) ∨
      ∃ done done' rest, s = .writing done rest ∧ s' = .writing done' rest := by
  cases s with
  | counting =>
    cases s' with
    | counting => exact .inl ⟨rfl, rfl⟩
    | writing done' rest' => exact h.elim
  | writing done rest =>
    cases s' with
    | counting => exact h.elim
    | writing done' rest' => exact .inr ⟨done, done', rest, rfl, by rw [show rest' = rest from h]⟩

/-- **Level encoders** cannot be told apart but by their order and by what they have
written. -/
structure Level (b l : Encoder) : Prop where
  length_eq : l.length = b.length
  error_eq : l.error = b.error
  sinks : SinksLevel b.sink l.sink

theorem level_setOrder (e : Encoder) (o : ByteOrder) : Level e (e.setOrder o) := by
  refine ⟨rfl, rfl, ?_⟩
  show SinksLevel e.sink e.sink
  cases e.sink with
  | counting => trivial
  | writing done rest => rfl

theorem Level.mark_eq (h : Level b l) : l.mark = b.mark :=
  congrArg₂ Mark.mk h.length_eq h.error_eq

theorem Level.fits_iff (h : Level b l) (size : Nat) : l.Fits size ↔ b.Fits size := by
  unfold Fits
  rw [h.length_eq]
  rcases h.sinks.cases with ⟨hb, hl⟩ | ⟨done, done', rest, hb, hl⟩
  · rw [hb, hl]
  · rw [hb, hl]

theorem Level.fail (h : Level b l) (fault : Fault) : Level (b.fail fault) (l.fail fault) := by
  unfold Encoder.fail
  rw [h.error_eq]
  split
  · exact h
  · exact ⟨h.length_eq, rfl, h.sinks⟩

theorem Level.advance (h : Level b l) {row row' : List UInt8} (hrow : row'.length = row.length) :
    Level (b.advance row) (l.advance row') := by
  refine ⟨congrArg₂ (· + ·) h.length_eq hrow, h.error_eq, ?_⟩
  show SinksLevel (b.sink.advance row) (l.sink.advance row')
  rcases h.sinks.cases with ⟨hb, hl⟩ | ⟨done, done', rest, hb, hl⟩
  · rw [hb, hl]
    trivial
  · rw [hb, hl]
    exact congrArg (List.drop · rest) hrow

/-- **What becomes of a piece** on level encoders: both send it or both refuse it. -/
theorem Level.take_cases (h : Level b l) {piece piece' : Piece}
    (hpiece : piece'.length = piece.length) :
    ((b.take piece = b.advance piece.bytes ∧ l.take piece' = l.advance piece'.bytes) ∧
        b.error = none) ∨
      b.take piece = b.fail .bufferTooShort ∧ l.take piece' = l.fail .bufferTooShort := by
  rcases herror : b.error with _ | fault
  · have herror' := h.error_eq.trans herror
    by_cases hfits : b.Fits piece.length
    · refine .inl ⟨⟨take_of_fits herror hfits, take_of_fits herror' ?_⟩, rfl⟩
      rwa [h.fits_iff, hpiece]
    · refine .inr ⟨take_of_not_fits herror hfits, take_of_not_fits herror' ?_⟩
      rwa [h.fits_iff, hpiece]
  · have herror' := h.error_eq.trans herror
    refine .inr ⟨?_, ?_⟩
    · rw [take_of_error herror, Encoder.fail, herror]
    · rw [take_of_error herror', Encoder.fail, herror']

theorem Level.take (h : Level b l) {piece piece' : Piece} (hpiece : piece'.length = piece.length) :
    Level (b.take piece) (l.take piece') := by
  rcases h.take_cases hpiece with ⟨⟨hb, hl⟩, -⟩ | ⟨hb, hl⟩
  · rw [hb, hl]
    exact h.advance (by rw [Piece.length_bytes, Piece.length_bytes, hpiece])
  · rw [hb, hl]
    exact h.fail .bufferTooShort

theorem Level.foldl_take (pieces : List Piece) (o o' : ByteOrder) {b l : Encoder}
    (h : Level b l) :
    Level ((pieces.map (Piece.inOrder o)).foldl Encoder.take b)
      ((pieces.map (Piece.inOrder o')).foldl Encoder.take l) := by
  induction pieces generalizing b l with
  | nil => exact h
  | cons piece pieces ih =>
    exact ih (h.take ((piece.length_inOrder o').trans (piece.length_inOrder o).symm))

/-- **A field keeps encoders level**, whichever order each of them has in force. -/
theorem Level.put (h : Level b l) (field : Field) : Level (b.put field) (l.put field) := by
  unfold Encoder.put
  rw [h.error_eq]
  split
  · exact h
  · rcases field.pieces_inOrder with ⟨fault, hfault⟩ | ⟨pieces, hpieces, -⟩
    · rw [hfault, hfault]
      exact h.fail fault
    · rw [hpieces, hpieces]
      exact h.foldl_take pieces b.order l.order

theorem Level.enter (h : Level b l) (entry : Entry) : Level (b.enter entry) (l.enter entry) := by
  cases entry with
  | field field => exact h.put field
  | order o => exact ⟨h.length_eq, h.error_eq, h.sinks⟩

/-! ## Marks -/

theorem marks_runCalls_cons (entry : Entry) (entries : List Entry) (e : Encoder) :
    (runCalls ((entry :: entries).map Entry.call) e).marks =
      (e.enter entry).mark :: (runCalls (entries.map Entry.call) (e.enter entry)).marks := by
  cases entry <;> rfl

theorem marks_runCalls_append (front back : List Entry) (e : Encoder) :
    (runCalls ((front ++ back).map Entry.call) e).marks =
      (runCalls (front.map Entry.call) e).marks ++
        (runCalls (back.map Entry.call) (front.foldl enter e)).marks := by
  induction front generalizing e with
  | nil => rfl
  | cons entry front ih =>
    rw [List.cons_append, marks_runCalls_cons, marks_runCalls_cons, ih]
    rfl

/-- **Level encoders show the same marks** after each of the same entries. -/
theorem Level.marks_eq (entries : List Entry) {b l : Encoder} (h : Level b l) :
    (runCalls (entries.map Entry.call) l).marks = (runCalls (entries.map Entry.call) b).marks := by
  induction entries generalizing b l with
  | nil => rfl
  | cons entry entries ih =>
    rw [marks_runCalls_cons, marks_runCalls_cons, (h.enter entry).mark_eq, ih (h.enter entry)]

/-! ## What is written in the two orders -/

/-- **Two encoders that have written the same message in the two orders**, up to the point
where they stopped. That point is between two segments. -/
structure Turned (segments : List Segment) (b l : Encoder) : Prop where
  level : Level b l
  whole : ∃ front, front <+: segments ∧ b.length = Segment.total front ∧
    (b.error = none → front = segments)
  written : ∀ done rest, b.sink = .writing done rest →
    done.length = b.length ∧ l.sink = .writing (Segment.turn segments done) rest

variable {segments : List Segment}

/-- What is not sent any more makes no difference. -/
theorem Turned.fail (h : Turned segments b l) (fault : Fault) (others : List Segment) :
    Turned (segments ++ others) (b.fail fault) (l.fail fault) := by
  obtain ⟨front, ⟨back, rfl⟩, hlength, -⟩ := h.whole
  refine ⟨h.level.fail fault, ⟨front, ?_, (length_fail b fault).trans hlength, ?_⟩, ?_⟩
  · exact (List.prefix_append front back).trans (List.prefix_append _ others)
  · intro hnone
    rcases herror : b.error with _ | kept
    · rw [error_fail herror] at hnone
      cases hnone
    · rw [Encoder.fail, herror] at hnone
      cases herror.symm.trans hnone
  · intro done rest hsink
    rw [sink_fail] at hsink
    obtain ⟨hdone, hsink'⟩ := h.written done rest hsink
    have hfront : done.length = Segment.total front := hdone.trans hlength
    rw [length_fail, sink_fail, hsink', List.append_assoc, Segment.turn_append_nil hfront,
      Segment.turn_append_nil hfront]
    exact ⟨hdone, rfl⟩

/-- The next segment is sent by both. -/
theorem Turned.advance (h : Turned segments b l) (herror : b.error = none) {segment : Segment}
    {row : List UInt8} (hrow : row.length = segment.size) :
    Turned (segments ++ [segment]) (b.advance row) (l.advance (segment.apply row)) := by
  obtain ⟨front, -, hlength, hall⟩ := h.whole
  obtain rfl := hall herror
  refine ⟨h.level.advance (segment.length_apply row),
    ⟨front ++ [segment], List.prefix_refl _, ?_, fun _ => rfl⟩, ?_⟩
  · show b.length + row.length = _
    rw [Segment.total_append, hlength, hrow]
    rfl
  · intro done rest hsink
    change b.sink.advance row = _ at hsink
    rcases h.level.sinks.cases with ⟨hb, -⟩ | ⟨before, before', left, hb, -⟩
    · rw [hb] at hsink
      cases hsink
    · obtain ⟨hbefore, hl⟩ := h.written before left hb
      rw [hb] at hsink
      cases hsink
      refine ⟨?_, ?_⟩
      · rw [List.length_append, hbefore]
        rfl
      · show l.sink.advance (segment.apply row) = _
        rw [hl, Sink.advance, segment.length_apply,
          Segment.turn_append (hbefore.trans hlength) [segment] row, Segment.turn,
          List.take_of_length_le hrow.le, List.drop_of_length_le hrow.le, Segment.turn,
          List.append_nil]

/-- **A piece is sent by both in its segment**, or by none. -/
theorem Turned.take (h : Turned segments b l) (piece : Piece) :
    Turned (segments ++ [piece.segment]) (b.take (piece.inOrder .bigEndian))
      (l.take (piece.inOrder .littleEndian)) := by
  rcases h.level.take_cases ((piece.length_inOrder .littleEndian).trans
    (piece.length_inOrder .bigEndian).symm) with ⟨⟨hb, hl⟩, herror⟩ | ⟨hb, hl⟩
  · rw [hb, hl, piece.bytes_littleEndian]
    refine h.advance herror ?_
    rw [Piece.length_bytes, piece.length_inOrder, piece.size_segment]
  · rw [hb, hl]
    exact h.fail .bufferTooShort [piece.segment]

theorem Turned.foldl_take (pieces : List Piece) {segments : List Segment} {b l : Encoder}
    (h : Turned segments b l) :
    Turned (segments ++ pieces.map Piece.segment)
      ((pieces.map (Piece.inOrder .bigEndian)).foldl Encoder.take b)
      ((pieces.map (Piece.inOrder .littleEndian)).foldl Encoder.take l) := by
  induction pieces generalizing segments b l with
  | nil =>
    rw [List.map_nil, List.append_nil]
    exact h
  | cons piece pieces ih =>
    have hnext := ih (h.take piece)
    rwa [List.append_assoc] at hnext

theorem order_foldl_take (pieces : List Piece) (e : Encoder) :
    (pieces.foldl take e).order = e.order := by
  induction pieces generalizing e with
  | nil => rfl
  | cons piece pieces ih =>
    rw [List.foldl_cons, ih]
    rcases herror : e.error with _ | fault
    · by_cases hfits : e.Fits piece.length
      · rw [take_of_fits herror hfits]
        rfl
      · rw [take_of_not_fits herror hfits, order_fail]
    · rw [take_of_error herror]

/-- A field leaves the order in force. -/
theorem order_put (e : Encoder) (field : Field) : (e.put field).order = e.order := by
  unfold put
  split
  · rfl
  · split
    · exact order_foldl_take _ e
    · exact order_fail e _

/-- **A field is sent in its segments**: the one encoder sends in one order what the other
sends in the other order. -/
theorem Turned.put (h : Turned segments b l) (hb : b.order = .bigEndian)
    (hl : l.order = .littleEndian) (field : Field) :
    Turned (segments ++ field.segments) (b.put field) (l.put field) := by
  rcases herror : b.error with _ | fault
  · have herror' := h.level.error_eq.trans herror
    unfold Encoder.put
    rw [herror, herror', hb, hl]
    dsimp only
    rcases field.pieces_inOrder with ⟨fault, hfault⟩ | ⟨pieces, hpieces, hsegments⟩
    · rw [hfault, hfault]
      exact h.fail fault field.segments
    · rw [hpieces, hpieces, ← hsegments]
      exact h.foldl_take pieces
  · have herror' := h.level.error_eq.trans herror
    have hnext := h.fail fault field.segments
    rw [Encoder.fail, herror, Encoder.fail, herror'] at hnext
    rwa [put_of_error herror, put_of_error herror']

theorem Turned.foldl_put (fields : List Field) {segments : List Segment} {b l : Encoder}
    (h : Turned segments b l) (hb : b.order = .bigEndian) (hl : l.order = .littleEndian) :
    Turned (segments ++ fields.flatMap Field.segments) ((fields.map Entry.field).foldl enter b)
      ((fields.map Entry.field).foldl enter l) := by
  induction fields generalizing segments b l with
  | nil =>
    rw [List.flatMap_nil, List.append_nil]
    exact h
  | cons field fields ih =>
    have hnext := ih (h.put hb hl field) ((order_put b field).trans hb)
      ((order_put l field).trans hl)
    rwa [List.append_assoc] at hnext

/-! ## What is written stays -/

/-- **Entries only write behind what is written.** -/
theorem destination_take_of_prefix (order : ByteOrder) {front entries : List Entry}
    (h : front <+: entries) (destination : List UInt8) :
    (entries.foldl enter (writer order destination)).destination.take
        (front.foldl enter (writer order destination)).length =
      (front.foldl enter (writer order destination)).destination.take
        (front.foldl enter (writer order destination)).length := by
  obtain ⟨back, rfl⟩ := h
  have hlater := length_le_foldl_enter back (front.foldl enter (writer order destination))
  rw [← List.foldl_append] at hlater
  obtain ⟨sent, hsent, -, hsize, -⟩ := exists_sent (accepts_writer order destination) front
  have hlength : (front.foldl enter (writer order destination)).length ≤
      (Entry.image order front).length := by
    rw [hsize, writer, Nat.zero_add]
    exact hsent.length_le
  have hfront := destination_writer_eq order front destination
  have hall := destination_writer_eq order (front ++ back) destination
  dsimp only at hall hfront
  rw [Entry.image_append] at hall
  generalize front.foldl enter (writer order destination) = before at *
  generalize (front ++ back).foldl enter (writer order destination) = behind at *
  rw [hall, List.take_append_of_le_length
      (by simp only [List.length_take, List.length_append]; omega),
    List.take_take, Nat.min_eq_left hlater, List.take_append_of_le_length hlength, hfront,
    List.take_append_of_le_length (by simp only [List.length_take]; omega), List.take_take,
    Nat.min_self]

/-- A counting encoder has no destination. -/
theorem destination_counter (order : ByteOrder) (entries : List Entry) :
    (entries.foldl enter (counter order)).destination = [] := by
  obtain ⟨sent, -, -, -, hsink⟩ := exists_sent (accepts_counter order) entries
  rw [Encoder.destination, hsink]
  rfl

/-- The ways to start a message: counting, or writing into a destination. -/
def starts (destination : List UInt8) : List (ByteOrder → Encoder) :=
  [counter, fun order => writer order destination]

theorem order_start {destination : List UInt8} {start : ByteOrder → Encoder}
    (hstart : start ∈ starts destination) (order : ByteOrder) : (start order).order = order := by
  rw [starts, List.mem_cons, List.mem_singleton] at hstart
  rcases hstart with rfl | rfl <;> rfl

/-- What is written in front stays, whatever is made behind it. -/
theorem destination_take_of_start {destination : List UInt8} {start : ByteOrder → Encoder}
    (hstart : start ∈ starts destination) (order : ByteOrder) {front entries : List Entry}
    (h : front <+: entries) :
    (entries.foldl enter (start order)).destination.take (front.foldl enter (start order)).length =
      (front.foldl enter (start order)).destination.take
        (front.foldl enter (start order)).length := by
  rw [starts, List.mem_cons, List.mem_singleton] at hstart
  rcases hstart with rfl | rfl
  · rw [destination_counter, destination_counter]
  · exact destination_take_of_prefix order h destination

/-- An encoder that starts has written nothing. -/
theorem turned_start {destination : List UInt8} {start : ByteOrder → Encoder}
    (hstart : start ∈ starts destination) :
    Turned [] (start .bigEndian) (start .littleEndian) := by
  rw [starts, List.mem_cons, List.mem_singleton] at hstart
  rcases hstart with rfl | rfl
  · exact ⟨⟨rfl, rfl, trivial⟩, ⟨[], List.prefix_refl _, rfl, fun _ => rfl⟩, nofun⟩
  · refine ⟨⟨rfl, rfl, rfl⟩, ⟨[], List.prefix_refl _, rfl, fun _ => rfl⟩, ?_⟩
    rintro done rest ⟨⟩
    exact ⟨rfl, rfl⟩

/-- **The destination in the one order is that in the other order, turned.** -/
theorem Turned.destination_eq (h : Turned segments b l) :
    l.destination = Segment.turn segments (b.destination.take b.length) ++
      b.destination.drop b.length := by
  rw [Encoder.destination, Encoder.destination]
  rcases h.level.sinks.cases with ⟨hb, hl⟩ | ⟨done, done', rest, hb, -⟩
  · rw [hb, hl, List.take_nil, List.drop_nil, Segment.turn_nil]
    rfl
  · obtain ⟨hdone, hl⟩ := h.written done rest hb
    rw [hb, hl]
    dsimp only
    rw [← hdone, List.take_left, List.drop_left]

/-- **The byte order decides the direction of numbers and nothing else.** Fields that are
made in either order leave the same mark, one by one, and what is written in the one order is
what is written in the other with the numbers of two, four and eight bytes turned round in
their places, up to where it stops. A switch of the order in the middle of a message leaves
what is written in front of it, and all marks. -/
theorem order_only_turns_numbers (destination : List UInt8) :
    ∀ start ∈ starts destination,
      (∀ fields : List Field,
        let big := runCalls (fields.map Call.put) (start .bigEndian)
        let little := runCalls (fields.map Call.put) (start .littleEndian)
        little.marks = big.marks ∧
          little.encoder.destination =
            Segment.turn (fields.flatMap Field.segments)
                (big.encoder.destination.take big.encoder.length) ++
              big.encoder.destination.drop big.encoder.length) ∧
      ∀ (order next : ByteOrder) (front back : List Entry),
        let before := runCalls (front.map Entry.call) (start order)
        let plain := runCalls ((front ++ back).map Entry.call) (start order)
        let switched := runCalls ((front ++ .order next :: back).map Entry.call) (start order)
        (∃ behind, plain.marks = before.marks ++ behind ∧
          switched.marks = before.marks ++ before.encoder.mark :: behind) ∧
        plain.encoder.destination.take before.encoder.length =
          before.encoder.destination.take before.encoder.length ∧
        switched.encoder.destination.take before.encoder.length =
          before.encoder.destination.take before.encoder.length := by
  intro start hstart
  refine ⟨fun fields => ?_, fun order next front back => ?_⟩
  · intro big little
    have hcalls : fields.map Call.put = (fields.map Entry.field).map Entry.call := by
      rw [List.map_map]
      rfl
    have hstarts := turned_start hstart
    have hends := hstarts.foldl_put fields (order_start hstart _) (order_start hstart _)
    have hbig : big.encoder = _ := hcalls ▸ runCalls_map_call (fields.map Entry.field) _
    have hlittle : little.encoder = _ := hcalls ▸ runCalls_map_call (fields.map Entry.field) _
    refine ⟨?_, ?_⟩
    · show (runCalls (fields.map Call.put) _).marks = (runCalls (fields.map Call.put) _).marks
      rw [hcalls]
      exact hstarts.level.marks_eq _
    · rw [hbig, hlittle]
      exact hends.destination_eq
  · intro before plain switched
    have hbefore : before.encoder = front.foldl enter (start order) := runCalls_map_call front _
    have hplain : plain.encoder = (front ++ back).foldl enter (start order) :=
      runCalls_map_call _ _
    have hswitched : switched.encoder = (front ++ .order next :: back).foldl enter (start order) :=
      runCalls_map_call _ _
    refine ⟨⟨(runCalls (back.map Entry.call) before.encoder).marks, ?_, ?_⟩, ?_, ?_⟩
    · rw [hbefore]
      exact marks_runCalls_append front back (start order)
    · have hlevel := (level_setOrder before.encoder next).marks_eq back
      rw [← hlevel, hbefore]
      exact (marks_runCalls_append front (.order next :: back) (start order)).trans
        (congrArg (_ ++ ·) (marks_runCalls_cons _ _ _))
    · rw [hplain, hbefore]
      exact destination_take_of_start hstart order (List.prefix_append front back)
    · rw [hswitched, hbefore]
      exact destination_take_of_start hstart order (List.prefix_append front _)

/-- A number and a length are turned, and a payload that finds no room is in neither. -/
theorem order_only_turns_numbers_cut :
    let calls :=
      [Field.unsigned .two 258, .flag true, .blob (.sized 4) (.bytes [7, 8])].map Call.put
    (runCalls calls (writer .bigEndian [9, 9, 9, 9, 9, 9, 9, 9])).encoder.destination =
        [1, 2, 1, 0, 0, 0, 2, 9] ∧
      (runCalls calls (writer .littleEndian [9, 9, 9, 9, 9, 9, 9, 9])).encoder.destination =
        [2, 1, 1, 2, 0, 0, 0, 9] := by
  refine ⟨by decide, ?_⟩
  exact ((order_only_turns_numbers [9, 9, 9, 9, 9, 9, 9, 9]
    (fun order => writer order [9, 9, 9, 9, 9, 9, 9, 9]) (by simp [starts])).1
      [.unsigned .two 258, .flag true, .blob (.sized 4) (.bytes [7, 8])]).2.trans (by decide)

end Encoder

end Wirepool
