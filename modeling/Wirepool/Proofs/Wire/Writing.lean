import Wirepool.Proofs.Wire.Mirror
import Wirepool.Wire.TwoPass

/-!
# What a writing encoder has written

While an encoder that writes has kept no fault, its destination falls into the
part that is written and the part behind it, and the length it counts is the
length of the written part. Every piece it accepts moves the border by the bytes
of that piece. A fault ends this for good, so an encoder that has none at the
end had none at any time, and all that was put stands in its destination.
-/

namespace Wirepool

namespace Encoder

/-- **An encoder that has written `done` and has `rest` left**, and has kept no
fault so far. -/
structure Stands (e : Encoder) (done rest : List UInt8) : Prop where
  sink_eq : e.sink = .writing done rest
  length_eq : e.length = done.length
  length_lt : done.length < wordLimit
  error_eq : e.error = none

/-- A new writer has written nothing. -/
theorem stands_writer (order : ByteOrder) (destination : List UInt8) :
    (writer order destination).Stands [] destination :=
  ⟨rfl, rfl, by decide, rfl⟩

/-- The destination of an encoder is what it has written and what is left. -/
theorem Stands.destination_eq {e : Encoder} {done rest : List UInt8} (h : e.Stands done rest) :
    e.destination = done ++ rest := by
  rw [destination, h.sink_eq]

/-! ## A fault stays -/

/-- An encoder with a fault takes no piece. -/
theorem take_of_error {e : Encoder} {fault : Fault} (h : e.error = some fault) (piece : Piece) :
    e.take piece = e := by
  rw [take, h]

/-- An encoder with a fault takes no row of pieces. -/
theorem foldl_take_of_error {e : Encoder} {fault : Fault} (h : e.error = some fault)
    (pieces : List Piece) : pieces.foldl take e = e := by
  induction pieces with
  | nil => rfl
  | cons piece pieces ih => rw [List.foldl_cons, take_of_error h, ih]

/-- An encoder with a fault takes no field. -/
theorem put_of_error {e : Encoder} {fault : Fault} (h : e.error = some fault) (field : Field) :
    e.put field = e := by
  rw [put, h]

/-- A fault that is to be kept is kept by an encoder that has none. -/
theorem error_fail {e : Encoder} (h : e.error = none) (fault : Fault) :
    (e.fail fault).error = some fault := by
  rw [fail, h]

/-- An encoder has no fault if it has none after another row of pieces. -/
theorem error_eq_none_of_foldl {e : Encoder} {pieces : List Piece}
    (h : (pieces.foldl take e).error = none) : e.error = none := by
  cases he : e.error with
  | none => rfl
  | some fault => rw [foldl_take_of_error he, he] at h; cases h

/-! ## Pieces and fields that are accepted -/

/-- **An accepted piece** stands behind what was written before. It had room
there. -/
theorem Stands.take {e : Encoder} {done rest : List UInt8} (h : e.Stands done rest)
    {piece : Piece} (hok : (e.take piece).error = none) :
    (e.take piece).Stands (done ++ piece.bytes) (rest.drop piece.length) ∧
      (e.take piece).order = e.order ∧ piece.length ≤ rest.length := by
  rw [Encoder.take, h.error_eq] at hok ⊢
  dsimp only at hok ⊢
  split at hok
  · rw [error_fail h.error_eq] at hok
    cases hok
  · next hword =>
    rw [if_neg hword]
    rw [h.sink_eq] at hok ⊢
    dsimp only at hok ⊢
    split at hok
    · rw [error_fail h.error_eq] at hok
      cases hok
    · next hroom =>
      rw [if_neg hroom]
      have hlength : (done ++ piece.bytes).length = e.length + piece.length := by
        rw [List.length_append, Piece.length_bytes, h.length_eq]
      exact ⟨⟨rfl, hlength.symm, by omega, rfl⟩, rfl, by omega⟩

/-- **Accepted pieces** stand one behind another behind what was written
before. -/
theorem Stands.foldl_take {pieces : List Piece} {e : Encoder} {done rest : List UInt8}
    (h : e.Stands done rest) (hok : (pieces.foldl Encoder.take e).error = none) :
    (pieces.foldl Encoder.take e).Stands (done ++ Piece.image pieces)
        (rest.drop (Piece.image pieces).length) ∧
      (pieces.foldl Encoder.take e).order = e.order ∧
      (Piece.image pieces).length ≤ rest.length := by
  induction pieces generalizing e done rest with
  | nil => simpa using h
  | cons piece pieces ih =>
    rw [List.foldl_cons] at hok ⊢
    obtain ⟨hfirst, horder, hroom⟩ := h.take (error_eq_none_of_foldl hok)
    obtain ⟨hothers, horder', hroom'⟩ := ih hfirst hok
    rw [List.length_drop] at hroom'
    rw [Piece.image_cons, List.length_append, Piece.length_bytes, ← List.append_assoc,
      ← List.drop_drop]
    exact ⟨hothers, horder'.trans horder, by omega⟩

/-- **An accepted field** can be sent, and its pieces stand behind what was
written before. -/
theorem Stands.put {e : Encoder} {done rest : List UInt8} (h : e.Stands done rest)
    {field : Field} (hok : (e.put field).error = none) :
    ∃ pieces, field.pieces e.order = .ok pieces ∧
      (e.put field).Stands (done ++ Piece.image pieces)
        (rest.drop (Piece.image pieces).length) ∧
      (e.put field).order = e.order ∧ (Piece.image pieces).length ≤ rest.length := by
  rw [Encoder.put, h.error_eq] at hok ⊢
  dsimp only at hok ⊢
  split at hok
  · next pieces hpieces =>
    rw [hpieces]
    exact ⟨pieces, rfl, h.foldl_take hok⟩
  · rw [error_fail h.error_eq] at hok
    cases hok

/-- Another byte order changes nothing that is written. -/
theorem Stands.setOrder {e : Encoder} {done rest : List UInt8} (h : e.Stands done rest)
    (order : ByteOrder) : (e.setOrder order).Stands done rest :=
  ⟨h.sink_eq, h.length_eq, h.length_lt, h.error_eq⟩

end Encoder

end Wirepool
