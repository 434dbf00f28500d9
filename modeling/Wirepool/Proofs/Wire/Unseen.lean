import Wirepool.Wire.Reading

/-!
# What a read does not see

A decoder carries two things for later that no read looks at: the byte order to
which it goes back on a new input, and whether an arena takes the copies. Two
decoders that differ in nothing else find the same values, move alike and keep the
same fault. That is said here once for every way to read, and it comes in two uses:
what a read does not see it does not change either, and where copies go cannot be
told from what is read.
-/

namespace Wirepool

/-- Whether a read asks for a copy of its payload. -/
def Read.copies : Read → Bool
  | .text _ copy | .bytes _ copy => copy
  | _ => false

/-- The same read with another say on whether its payload is to be a copy. -/
def Read.choosing (copy : Bool) : Read → Read
  | .text extent _ => .text extent copy
  | .bytes extent _ => .bytes extent copy
  | read => read

theorem Read.choosing_copies (read : Read) : read.choosing read.copies = read := by
  cases read <;> rfl

namespace Decoder

/-- The decoder with another byte order to go back to and another place for the
copies. -/
def under (d : Decoder) (initialOrder : ByteOrder) (attached : Bool) : Decoder :=
  { d with initialOrder, attached }

/-- A decoder stands under its own settings. -/
theorem under_self (d : Decoder) : d.under d.initialOrder d.attached = d := rfl

variable (d : Decoder) (o : ByteOrder) (b : Bool)

@[simp] theorem rest_under : (d.under o b).rest = d.rest := rfl

@[simp] theorem order_under : (d.under o b).order = d.order := rfl

@[simp] theorem error_under : (d.under o b).error = d.error := rfl

theorem fail_under (fault : Fault) : (d.under o b).fail fault = (d.fail fault).under o b := by
  rw [fail, fail, error_under]
  split <;> rfl

theorem take_under (count : Nat) :
    (d.under o b).take count = ((d.take count).1, (d.take count).2.under o b) := by
  rw [take, take, error_under, rest_under, fail_under]
  split
  · rfl
  · split <;> rfl

theorem fixed_under (w : Width) :
    (d.under o b).fixed w = ((d.fixed w).1, (d.fixed w).2.under o b) := by
  rw [fixed, fixed, take_under]
  rcases d.take w.bytes with ⟨_ | row, next⟩ <;> rfl

theorem sized_under (size : Nat) :
    (d.under o b).sized size = ((d.sized size).1, (d.sized size).2.under o b) := by
  simp only [sized, error_under, fail_under, fixed_under]
  split
  · rfl
  · split <;> rfl

theorem signedIn_under (size : Nat) :
    (d.under o b).signedIn size = ((d.signedIn size).1, (d.signedIn size).2.under o b) := by
  rw [signedIn, signedIn, sized_under]
  rcases d.sized size with ⟨_ | number, next⟩ <;> rfl

theorem unsignedIn_under (size : Nat) :
    (d.under o b).unsignedIn size = ((d.unsignedIn size).1, (d.unsignedIn size).2.under o b) := by
  rw [unsignedIn, unsignedIn, sized_under]
  rcases d.sized size with ⟨_ | number, next⟩ <;> rfl

theorem varUnsigned_under :
    (d.under o b).varUnsigned = (d.varUnsigned.1, d.varUnsigned.2.under o b) := by
  simp only [varUnsigned, error_under, rest_under, fail_under]
  split
  · rfl
  · split <;> rfl

theorem delimited_under (delimiter : List UInt8) :
    (d.under o b).delimited delimiter =
      ((d.delimited delimiter).1, (d.delimited delimiter).2.under o b) := by
  simp only [delimited, error_under, rest_under, fail_under]
  split
  · rfl
  · split
    · rfl
    · split <;> rfl

/-- **A payload is found alike**, whatever says where it ends. -/
theorem payload_under (extent : Extent) :
    (d.under o b).payload extent = ((d.payload extent).1, (d.payload extent).2.under o b) := by
  cases extent with
  | exactly count => exact d.take_under o b count
  | sized size => simp only [payload, unsignedIn_under, take_under]
  | counted => simp only [payload, varUnsigned_under, take_under]
  | delimited delimiter => exact d.delimited_under o b delimiter
  | rest => exact d.take_under o b d.rest.length

/-! ## Reads -/

/-- **A read does not see what a decoder keeps for later, nor does it matter to what
is found whether a payload is to be a copy**: the values are the same, and the
decoders behind the reads differ as those in front. -/
theorem read_choosing_under (read : Read) (copy : Bool) :
    ((d.under o b).read (read.choosing copy)).1.value = (d.read read).1.value ∧
      ((d.under o b).read (read.choosing copy)).2 = (d.read read).2.under o b := by
  cases read with
  | text extent copied =>
    simp only [Read.choosing, Decoder.read, payload_under]
    rcases d.payload extent with ⟨_ | row, next⟩
    · exact ⟨rfl, rfl⟩
    · dsimp only
      cases text? row with
      | none => exact ⟨rfl, next.fail_under o b .invalidText⟩
      | some s => exact ⟨rfl, rfl⟩
  | bytes extent copied =>
    simp only [Read.choosing, Decoder.read, payload_under]
    rcases d.payload extent with ⟨_ | row, next⟩ <;> exact ⟨rfl, rfl⟩
  | _ =>
    simp only [Read.choosing, Decoder.read, take_under, fixed_under, signedIn_under,
      unsignedIn_under, varUnsigned_under, and_self]

/-- A read leaves the order to go back to and the place for copies as they are. -/
theorem read_settings (read : Read) :
    (d.read read).2.initialOrder = d.initialOrder ∧ (d.read read).2.attached = d.attached := by
  have h := (d.read_choosing_under d.initialOrder d.attached read read.copies).2
  rw [under_self, Read.choosing_copies] at h
  exact ⟨(congrArg initialOrder h).trans rfl, (congrArg attached h).trans rfl⟩

end Decoder

end Wirepool
