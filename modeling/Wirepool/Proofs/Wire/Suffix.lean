import Wirepool.Proofs.Wire.Copies
import Wirepool.Proofs.Wire.Finding

/-!
# What follows the bytes that are read

A read that succeeds does not look behind the bytes that it takes. So if the input goes
on with more bytes, it finds the same value and leaves the same bytes with these behind
them. That is said here for every way to read, and it is the converse of what is known of
an input that is cut: there the missing bytes are noticed, here additional ones are not.

For numbers of fixed width that is a matter of counting. A varint ends with a byte of its
own. And a delimiter that is found stays the first one, because an earlier occurrence
would have to begin in front of it and so would end within the old input.

There are two reads that do look at all that is left, and no law holds for them: a payload
that is all that is left, and the question whether anything is.
-/

namespace Wirepool

namespace Varint

/-- **A number that is read is found in a longer input too**, which then goes on behind
it. -/
theorem decodeFrom_append {before n : Nat} {input rest : List UInt8}
    (h : decodeFrom before input = .ok (n, rest)) (x : List UInt8) :
    decodeFrom before (input ++ x) = .ok (n, rest ++ x) := by
  induction input generalizing before n with
  | nil => cases h
  | cons b input ih =>
    rw [decodeFrom] at h
    rw [List.cons_append, decodeFrom]
    split at h
    · cases h
    next hroom =>
    rw [if_neg hroom]
    split at h
    · next hlast =>
      cases h
      rw [if_pos hlast]
    · next hmore =>
      rw [if_neg hmore]
      split at h
      · next m following hothers =>
        cases h
        rw [ih hothers]
      · cases h

/-- **A number that is read stands in bytes of its own**, which are read as it when
nothing follows them. -/
theorem exists_row_of_decodeFrom {before n : Nat} {input rest : List UInt8}
    (h : decodeFrom before input = .ok (n, rest)) :
    ∃ row, input = row ++ rest ∧ decodeFrom before row = .ok (n, []) := by
  induction input generalizing before n with
  | nil => cases h
  | cons b input ih =>
    rw [decodeFrom] at h
    split at h
    · cases h
    next hroom =>
    split at h
    · next hlast =>
      cases h
      exact ⟨[b], rfl, by rw [decodeFrom, if_neg hroom, if_pos hlast]⟩
    · next hmore =>
      split at h
      · next m following hothers =>
        cases h
        obtain ⟨row, rfl, hrow⟩ := ih hothers
        exact ⟨b :: row, rfl, by rw [decodeFrom, if_neg hroom, if_neg hmore, hrow]⟩
      · cases h

end Varint

namespace Delimiter

/-- **The first occurrence of a delimiter stays the first one** in a longer input. -/
theorem find?_append {d input : List UInt8} {p : Nat} (h : find? d input = some p)
    (x : List UInt8) : find? d (input ++ x) = some p := by
  obtain ⟨hle, hthere, hfirst⟩ := (find?_eq_some_iff d input p).1 h
  have hlength := hthere.length_le
  rw [List.length_drop] at hlength
  rw [find?_eq_some_iff, List.length_append, List.drop_append_of_le_length hle]
  refine ⟨by omega, hthere.trans (List.prefix_append _ _), fun i hi hearlier => ?_⟩
  -- an earlier occurrence ends in front of this one's end
  rw [List.drop_append_of_le_length (by omega)] at hearlier
  exact hfirst i hi (List.prefix_of_prefix_length_le hearlier (List.prefix_append _ _)
    (by rw [List.length_drop]; omega))

end Delimiter

/-- **A read that takes no more than it needs**: every read but that of a payload that is
all that is left. -/
def Read.Local : Read → Prop
  | .text .rest _ | .bytes .rest _ => False
  | _ => True

/-- **A call that stays with its input and looks at no more of it than it takes.** Those
that do look further are a read of all that is left and the question whether anything
is. -/
def ReadCall.Local : ReadCall → Prop
  | .read r => r.Local
  | .askRemaining | .reset _ => False
  | _ => True

/-- What is seen of a call when `count` more bytes are left. -/
def Sight.extended (sight : Sight) (count : Nat) : Sight :=
  { sight with left := sight.left + count }

namespace Decoder

/-- The decoder with more input behind the unread bytes. -/
def extended (d : Decoder) (x : List UInt8) : Decoder :=
  { d with rest := d.rest ++ x }

variable {d : Decoder} (x : List UInt8)

@[simp] theorem rest_extended : (d.extended x).rest = d.rest ++ x := rfl

@[simp] theorem error_extended : (d.extended x).error = d.error := rfl

/-! ## Steps that succeed -/

section Steps

variable (he : d.error = none)
include he

theorem take_extended {count : Nat} (hok : (d.take count).2.error = none) :
    (d.extended x).take count = ((d.take count).1, (d.take count).2.extended x) := by
  obtain ⟨row, following, hrest, rfl, htake⟩ := exists_of_take he hok
  rw [htake]
  exact take_append (d := d.extended x) he (following ++ x)
    (by rw [rest_extended, hrest, List.append_assoc])

theorem fixed_extended {w : Width} (hok : (d.fixed w).2.error = none) :
    (d.extended x).fixed w = ((d.fixed w).1, (d.fixed w).2.extended x) := by
  obtain ⟨n, following, hrest, hfixed⟩ := exists_of_fixed he hok
  rw [hfixed]
  exact fixed_append (d := d.extended x) he (following ++ x) rfl
    (by rw [rest_extended, hrest, List.append_assoc]; rfl)

theorem signedIn_extended {size : Nat} (hok : (d.signedIn size).2.error = none) :
    (d.extended x).signedIn size = ((d.signedIn size).1, (d.signedIn size).2.extended x) := by
  obtain ⟨i, piece, following, hlow, hhigh, hpiece, hrest, hread⟩ := exists_of_signedIn he hok
  rw [hread]
  exact signedIn_append (d := d.extended x) he (following ++ x) rfl hpiece hlow hhigh
    (by rw [rest_extended, hrest, List.append_assoc])

theorem unsignedIn_extended {size : Nat} (hok : (d.unsignedIn size).2.error = none) :
    (d.extended x).unsignedIn size =
      ((d.unsignedIn size).1, (d.unsignedIn size).2.extended x) := by
  obtain ⟨n, piece, following, hn, hpiece, hrest, hread⟩ := exists_of_unsignedIn he hok
  rw [hread]
  exact unsignedIn_append (d := d.extended x) he (following ++ x) rfl hpiece hn
    (by rw [rest_extended, hrest, List.append_assoc])

/-- The bytes that a varint is read from need not be those it would be written as, so this
goes back to the varint. -/
theorem varUnsigned_extended (hok : d.varUnsigned.2.error = none) :
    (d.extended x).varUnsigned = (d.varUnsigned.1, d.varUnsigned.2.extended x) := by
  cases hdecode : Varint.decode d.rest with
  | error failure =>
    rw [varUnsigned, he, hdecode] at hok
    cases failure <;> cases hok.symm.trans (error_fail he _)
  | ok found =>
    obtain ⟨n, following⟩ := found
    have hlonger : Varint.decode (d.rest ++ x) = .ok (n, following ++ x) :=
      Varint.decodeFrom_append hdecode x
    rw [varUnsigned, varUnsigned, error_extended, rest_extended, he, hdecode, hlonger]
    rfl

theorem delimited_extended {delimiter : List UInt8}
    (hok : (d.delimited delimiter).2.error = none) :
    (d.extended x).delimited delimiter =
      ((d.delimited delimiter).1, (d.delimited delimiter).2.extended x) := by
  simp only [delimited, he] at hok
  split at hok
  · cases hok.symm.trans (error_fail he _)
  next hnonempty =>
  split at hok
  · next position hfind =>
    obtain ⟨hle, hthere, -⟩ := (Delimiter.find?_eq_some_iff _ _ _).1 hfind
    have hlength := hthere.length_le
    rw [List.length_drop] at hlength
    have htake : (d.rest ++ x).take position = d.rest.take position :=
      List.take_append_of_le_length hle
    have hdrop : (d.rest ++ x).drop (position + delimiter.length) =
        d.rest.drop (position + delimiter.length) ++ x :=
      List.drop_append_of_le_length (by omega)
    simp only [delimited, error_extended, rest_extended, he, if_neg hnonempty, hfind,
      Delimiter.find?_append hfind x, htake, hdrop]
    rfl
  · cases hok.symm.trans (error_fail he _)

/-- **A payload is found alike in a longer input**, unless it is all that is left. -/
theorem payload_extended {extent : Extent} (hextent : extent ≠ .rest)
    (hok : (d.payload extent).2.error = none) :
    (d.extended x).payload extent = ((d.payload extent).1, (d.payload extent).2.extended x) := by
  cases extent with
  | exactly count => exact take_extended x he hok
  | sized size =>
    have hfront : (d.unsignedIn size).2.error = none := error_eq_none_of_take hok
    simp only [payload, unsignedIn_extended x he hfront]
    exact take_extended x hfront hok
  | counted =>
    have hfront : d.varUnsigned.2.error = none := error_eq_none_of_take hok
    simp only [payload, varUnsigned_extended x he hfront]
    exact take_extended x hfront hok
  | delimited delimiter => exact delimited_extended x he hok
  | rest => exact absurd rfl hextent

/-- **A read that succeeds gives the same in a longer input** and leaves all that is new
unread. -/
theorem read_extended {read : Read} (hread : read.Local) (hok : (d.read read).2.error = none) :
    (d.extended x).read read = ((d.read read).1, (d.read read).2.extended x) := by
  cases read with
  | text extent copy =>
    have hextent : extent ≠ .rest := by
      rintro rfl
      exact hread
    obtain ⟨hpayload, htext⟩ := exists_of_read_text hok
    obtain ⟨row, hrow⟩ := Option.isSome_iff_exists.1
      ((d.isSome_payload extent).trans (Option.isNone_iff_eq_none.2 hpayload))
    have hfinds : d.payload extent = (some row, (d.payload extent).2) := Prod.ext hrow rfl
    have hlonger := payload_extended x he hextent hpayload
    obtain ⟨s, hs⟩ := htext row _ hfinds
    rw [hrow] at hlonger
    rw [read_text_of_payload hfinds copy hs, read_text_of_payload hlonger copy hs]
    rfl
  | bytes extent copy =>
    have hextent : extent ≠ .rest := by
      rintro rfl
      exact hread
    have hpayload := error_payload_of_read hok
    simp only [Decoder.read, payload_extended x he hextent hpayload]
    rcases d.payload extent with ⟨_ | row, next⟩ <;> rfl
  | skip count => simp only [Decoder.read, take_extended x he hok]
  | signedIn size => simp only [Decoder.read, signedIn_extended x he hok]
  | unsignedIn size => simp only [Decoder.read, unsignedIn_extended x he hok]
  | varSigned => simp only [Decoder.read, varUnsigned_extended x he hok]
  | varUnsigned => simp only [Decoder.read, varUnsigned_extended x he hok]
  | _ => simp only [Decoder.read, fixed_extended x he hok]

/-- **A call that is carried out without a fault** is carried out in a longer input, with
the same reply. -/
theorem call_extended_of_ok {call : ReadCall} (hcall : call.Local) {reply : Reply}
    {next : Decoder} (h : d.call call = .ok (reply, next)) (hok : next.error = none) :
    (d.extended x).call call = .ok (reply, next.extended x) := by
  cases call with
  | read read =>
    obtain ⟨rfl, rfl⟩ := Prod.mk.inj (Except.ok.inj h)
    exact congrArg Except.ok (read_extended x he hcall hok)
  | askRemaining => exact hcall.elim
  | reset input => exact hcall.elim
  | check =>
    rw [Decoder.call, he] at h
    cases h
    rw [Decoder.call, error_extended, he]
  | fail text => cases h
  | stop => cases h
  | _ =>
    cases h
    rfl

/-- A caller that leaves leaves in a longer input too. -/
theorem call_extended_of_error {call : ReadCall} {outcome : Except Failure Unit}
    (h : d.call call = .error outcome) : (d.extended x).call call = .error outcome := by
  cases call with
  | check =>
    rw [Decoder.call, he] at h
    cases h
  | fail text => exact h
  | stop => exact h
  | _ => cases h

end Steps

/-! ## Rows of calls -/

/-- A row of calls on one input that ends without a fault had none at its start. -/
theorem error_eq_none_of_unreset {calls : List ReadCall} (hcalls : ∀ input, .reset input ∉ calls)
    (hok : (d.calls calls).decoder.error = none) : d.error = none := by
  cases he : d.error with
  | none => rfl
  | some fault =>
    rw [(standsStill he hcalls).decoder_eq] at hok
    exact absurd (he.symm.trans hok) (Option.some_ne_none fault)

/-- **A row of calls without a fault sees nothing of what follows the bytes that it
reads.** -/
theorem calls_extended {calls : List ReadCall} (hcalls : ∀ call ∈ calls, call.Local)
    (hok : (d.calls calls).decoder.error = none) :
    (d.extended x).calls calls =
        { sights := (d.calls calls).sights.map (·.extended x.length)
          decoder := (d.calls calls).decoder.extended x
          outcome := (d.calls calls).outcome } ∧
      ∀ sight ∈ (d.calls calls).sights, sight.error = none := by
  induction calls generalizing d with
  | nil => exact ⟨rfl, List.forall_mem_nil _⟩
  | cons call calls ih =>
    obtain ⟨hcall, hothers⟩ := List.forall_mem_cons.1 hcalls
    have hresets (row : List ReadCall) (hrow : ∀ call ∈ row, call.Local) :
        ∀ input, .reset input ∉ row := fun input hmem => hrow _ hmem
    have he := error_eq_none_of_unreset (hresets _ hcalls) hok
    rcases hnext : d.call call with outcome | ⟨reply, next⟩
    · rw [(calls_cons_of_error hnext calls).1,
        (calls_cons_of_error (call_extended_of_error x he hnext) calls).1]
      exact ⟨rfl, List.forall_mem_nil _⟩
    · rw [(calls_cons_of_ok hnext calls).1] at hok ⊢
      have hnone := error_eq_none_of_unreset (hresets _ hothers) hok
      obtain ⟨hcallsnext, hsights⟩ := ih hothers hok
      rw [(calls_cons_of_ok (call_extended_of_ok x he hcall hnext hnone) calls).1, hcallsnext]
      refine ⟨?_, List.forall_mem_cons.2 ⟨hnone, hsights⟩⟩
      rw [List.map_cons, Sight.extended, rest_extended, List.length_append]
      rfl

end Decoder

end Wirepool
