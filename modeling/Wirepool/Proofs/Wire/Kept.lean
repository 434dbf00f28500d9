import Wirepool.Proofs.Wire.RoundTrip

/-!
# A decoder that has kept a fault

From its first fault on a decoder stands still. A read gives zero, false or
nothing and leaves the decoder as it is, so the fault that is found at the end of
a row of reads is the first one, and a row that ends without a fault had none at
any time.
-/

namespace Wirepool

/-- **What a read gives that finds nothing**: zero, false or an empty payload,
which is never a copy. -/
def Read.missed : Read → Reply
  | .skip _ => { value := .nothing }
  | .flag => { value := .flag false }
  | .signed _ | .unsigned _ | .signedIn _ | .unsignedIn _ | .varSigned | .varUnsigned =>
    { value := .number 0 }
  | .float32 => { value := .float32 0 }
  | .float64 => { value := .float64 0 }
  | .text _ _ => { value := .text "", owned := some false }
  | .bytes _ _ => { value := .bytes [], owned := some false }

/-- **A read call that answers to some call of a writer**: it takes a field, or
changes the byte order. -/
def ReadCall.Answers (read : ReadCall) : Prop := ∃ call, Mirrors call read

/-- All calls of a symmetric reading answer to a call. -/
theorem answers_of_mirrors {calls : List Call} {reads : List ReadCall}
    (hm : List.Forall₂ Mirrors calls reads) : ∀ read ∈ reads, read.Answers := by
  induction hm with
  | nil => nofun
  | cons hcall _ ih => exact List.forall_mem_cons.2 ⟨⟨_, hcall⟩, ih⟩

namespace Decoder

variable {d : Decoder} {fault : Fault}

/-- A fault that is to be kept is kept by a decoder that has none. -/
theorem error_fail (h : d.error = none) (fault : Fault) : (d.fail fault).error = some fault := by
  rw [fail, h]

/-! ## Reads that find nothing -/

theorem take_of_error (h : d.error = some fault) (count : Nat) : d.take count = (none, d) := by
  rw [take, h]

theorem fixed_of_error (h : d.error = some fault) (w : Width) : d.fixed w = (0, d) := by
  rw [fixed, take_of_error h]

theorem sized_of_error (h : d.error = some fault) (size : Nat) : d.sized size = (none, d) := by
  rw [sized, h]

theorem signedIn_of_error (h : d.error = some fault) (size : Nat) : d.signedIn size = (0, d) := by
  rw [signedIn, sized_of_error h]

theorem unsignedIn_of_error (h : d.error = some fault) (size : Nat) :
    d.unsignedIn size = (0, d) := by
  rw [unsignedIn, sized_of_error h]

theorem varUnsigned_of_error (h : d.error = some fault) : d.varUnsigned = (0, d) := by
  rw [varUnsigned, h]

/-- No payload is found, whatever says where it ends. -/
theorem payload_of_error (h : d.error = some fault) (extent : Extent) :
    d.payload extent = (none, d) := by
  cases extent with
  | exactly count => exact take_of_error h count
  | sized size => simp only [payload, unsignedIn_of_error h, take_of_error h]
  | counted => simp only [payload, varUnsigned_of_error h, take_of_error h]
  | delimited delimiter => simp only [payload, delimited, h]
  | rest => exact take_of_error h _

/-- **A decoder with a fault stands still**, and its reads find nothing. -/
theorem read_of_error (h : d.error = some fault) (read : Read) :
    d.read read = (read.missed, d) := by
  cases read with
  | signed width => simp [Decoder.read, fixed_of_error h, Read.missed]
  | unsigned width => simp [Decoder.read, fixed_of_error h, Read.missed]
  | text extent copy => simp only [Decoder.read, payload_of_error h, Read.missed]
  | bytes extent copy => simp only [Decoder.read, payload_of_error h, Read.missed]
  | _ =>
    simp only [Decoder.read, take_of_error h, fixed_of_error h, signedIn_of_error h,
      unsignedIn_of_error h, varUnsigned_of_error h]
    rfl

/-! ## Rows of reads -/

/-- A row of reads hands on no failure of its own. -/
theorem outcome_calls {reads : List ReadCall} (hreads : ∀ read ∈ reads, read.Answers)
    (d : Decoder) : (d.calls reads).outcome = .ok () := by
  induction reads generalizing d with
  | nil => rfl
  | cons read reads ih =>
    obtain ⟨⟨call, hcall⟩, hothers⟩ := List.forall_mem_cons.1 hreads
    cases hcall with
    | put field copy => exact ih hothers (d.read (field.mirror copy)).2
    | setOrder order => exact ih hothers (d.setOrder order)

/-- **A row of reads that starts with a fault keeps it.** -/
theorem error_calls {reads : List ReadCall} (hreads : ∀ read ∈ reads, read.Answers)
    (h : d.error = some fault) : (d.calls reads).decoder.error = some fault := by
  induction reads generalizing d with
  | nil => exact h
  | cons read reads ih =>
    obtain ⟨⟨call, hcall⟩, hothers⟩ := List.forall_mem_cons.1 hreads
    cases hcall with
    | put field copy =>
      rw [calls_read, read_of_error h]
      exact ih hothers h
    | setOrder order => exact ih (d := d.setOrder order) hothers h

/-- So there was no fault before a row of reads that ends without one. -/
theorem error_eq_none_of_calls {reads : List ReadCall} (hreads : ∀ read ∈ reads, read.Answers)
    (h : (d.calls reads).decoder.error = none) : d.error = none := by
  cases he : d.error with
  | none => rfl
  | some fault =>
    rw [error_calls hreads he] at h
    cases h

end Decoder

/-- **Decoding by reads that all answer to a call** comes to what the decoder finds at
the end of its input. -/
theorem decode_of_answers {reads : List ReadCall} (hreads : ∀ read ∈ reads, read.Answers)
    (order : ByteOrder) (input : List UInt8) (fallible : Bool) :
    decode order input reads fallible =
      ((Decoder.start order input).calls reads,
        ((Decoder.start order input).calls reads).decoder.finish.mapError .fault) := by
  simp only [decode, Decoder.outcome_calls hreads]

end Wirepool
