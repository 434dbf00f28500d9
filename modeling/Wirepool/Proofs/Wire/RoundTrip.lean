import Wirepool.Message
import Wirepool.Proofs.Arena.Slice
import Wirepool.Proofs.Memory.View
import Wirepool.Proofs.Wire.Writing

/-!
# Messages are read back

A message is a row of fields with changes of the byte order in between. Its
symmetric reading takes each field by its mirror and changes the order where the
message did. This module shows that the reading gives back what was written: the
same values, from the same bytes, without a fault, to the last byte.

The invariant of the proof is a border in the finished message. The writer has
written what is left of it, the reader has what is right of it unread, and both
have the same byte order in force; every call moves the border by the bytes of
its field.
-/

namespace Wirepool

/-! ## The symmetric reading -/

/-- **A read call that answers to a call of a writer**: it takes the field that
was put, or follows a change of the byte order. -/
inductive Mirrors : Call → ReadCall → Prop
  | put (field : Field) (copy : Bool) : Mirrors (.put field) (.read (field.mirror copy))
  | setOrder (order : ByteOrder) : Mirrors (.setOrder order) (.setOrder order)

namespace Call

/-- What the answer to a call shows: the value of the field, or the order that
was put in force. -/
def value : Call → Value
  | put field => field.value
  | setOrder order => .order order
  | _ => .nothing

/-- Whether the call puts a field that ends a message. -/
def IsTail : Call → Prop
  | put field => field.IsTail
  | _ => False

/-- Whether the end of what the call puts can be found. -/
def Bounded : Call → Prop
  | put field => field.Bounded
  | _ => True

end Call

/-- **What a reading gives back** of a message of `total` bytes: the value of
every call of its writer, no fault at any time, and after every call as many
unread bytes as the writer had still to write. -/
structure Restores (calls : List Call) (marks : List Mark) (total : Nat)
    (sights : List Sight) : Prop where
  values_eq : sights.map (fun sight => sight.reply.value) = calls.map Call.value
  left_eq : List.Forall₂ (fun mark sight => mark.length + sight.left = total) marks sights
  error_eq : ∀ sight ∈ sights, sight.error = none

/-- One more call at the front is given back too. -/
theorem Restores.cons {calls : List Call} {marks : List Mark} {total : Nat} {sights : List Sight}
    (h : Restores calls marks total sights) {call : Call} {mark : Mark} {sight : Sight}
    (hvalue : sight.reply.value = call.value) (hleft : mark.length + sight.left = total)
    (herror : sight.error = none) :
    Restores (call :: calls) (mark :: marks) total (sight :: sights) where
  values_eq := by rw [List.map_cons, List.map_cons, hvalue, h.values_eq]
  left_eq := .cons hleft h.left_eq
  error_eq := List.forall_mem_cons.2 ⟨herror, h.error_eq⟩

/-- A read is seen, and the others go on where it ended. -/
theorem Decoder.calls_read (d : Decoder) (read : Read) (reads : List ReadCall) :
    d.calls (.read read :: reads) =
      { (d.read read).2.calls reads with
        sights := ⟨(d.read read).1, (d.read read).2.rest.length, (d.read read).2.error⟩ ::
          ((d.read read).2.calls reads).sights } := rfl

/-- What stands before the last one of a row still does so in a longer row. -/
theorem mem_dropLast_cons {α : Type} {a b : α} {l : List α} (h : a ∈ l.dropLast) :
    a ∈ (b :: l).dropLast := by
  cases l with
  | nil => cases h
  | cons c l => exact List.mem_cons_of_mem _ h

namespace Encoder

/-- A row of calls that only writes leaves a fault as it is. -/
theorem error_runCalls {calls : List Call} {reads : List ReadCall}
    (hm : List.Forall₂ Mirrors calls reads) {e : Encoder} {fault : Fault}
    (h : e.error = some fault) : (runCalls calls e).encoder.error = some fault := by
  induction hm generalizing e with
  | nil => exact h
  | cons hcall _ ih =>
    cases hcall with
    | put field copy => exact ih (by rw [put_of_error h, h])
    | setOrder order => exact ih h

/-- So there was no fault before a row of calls that ends without one. -/
theorem error_eq_none_of_runCalls {calls : List Call} {reads : List ReadCall}
    (hm : List.Forall₂ Mirrors calls reads) {e : Encoder}
    (h : (runCalls calls e).encoder.error = none) : e.error = none := by
  cases he : e.error with
  | none => rfl
  | some fault => rw [error_runCalls hm he] at h; cases h

/-- **What a row of calls writes is read back** by the symmetric reading, which
starts in the order that was in force and sees nothing but what was written. -/
theorem Stands.runCalls {calls : List Call} {reads : List ReadCall}
    (hm : List.Forall₂ Mirrors calls reads) {e : Encoder} {done rest : List UInt8}
    (h : e.Stands done rest) (hok : (Wirepool.runCalls calls e).encoder.error = none)
    (htail : ∀ call ∈ calls.dropLast, ¬call.IsTail) (hbounded : ∀ call ∈ calls, call.Bounded) :
    ∃ written, (Wirepool.runCalls calls e).encoder.Stands (done ++ written)
        (rest.drop written.length) ∧ written.length ≤ rest.length ∧
      (Wirepool.runCalls calls e).outcome = .ok () ∧
      ∀ d : Decoder, d.error = none → d.order = e.order → d.rest = written →
        (d.calls reads).outcome = .ok () ∧ (d.calls reads).decoder.error = none ∧
        (d.calls reads).decoder.rest = [] ∧
        Restores calls (Wirepool.runCalls calls e).marks (done ++ written).length
          (d.calls reads).sights := by
  induction hm generalizing e done rest with
  | nil =>
    refine ⟨[], by simpa [Wirepool.runCalls] using h, Nat.zero_le _, rfl, fun d he _ hr => ?_⟩
    exact ⟨rfl, he, hr, rfl, .nil, by simp [Decoder.calls]⟩
  | @cons call read calls reads hcall hcalls ih =>
    cases hcall with
    | put field copy =>
      obtain ⟨pieces, hpieces, hput, horder, hroom⟩ := h.put (error_eq_none_of_runCalls hcalls hok)
      obtain ⟨written, hstands, hroom', houtcome, hread⟩ := ih hput hok
        (fun call hc => htail call (mem_dropLast_cons hc))
        (fun call hc => hbounded call (List.mem_cons_of_mem _ hc))
      refine ⟨Piece.image pieces ++ written, ?_, ?_, houtcome, fun d he ho hr => ?_⟩
      · rw [List.length_append, ← List.append_assoc, ← List.drop_drop]
        exact hstands
      · rw [List.length_drop] at hroom'
        rw [List.length_append]
        omega
      -- the bytes that end a message are followed by nothing
      have hlast : field.IsTail → written = [] := fun hf => by
        have hnil : calls = [] := by
          by_contra hne
          exact htail (.put field) (by rw [List.dropLast_cons_of_ne_nil hne]; simp) hf
        subst hnil
        have hsink := hstands.sink_eq
        rw [Wirepool.runCalls, hput.sink_eq, Sink.writing.injEq] at hsink
        simpa using hsink.1
      have hword : (Piece.image pieces).length < wordLimit := by
        have := hput.length_lt
        rw [List.length_append] at this
        omega
      obtain ⟨hvalue, hd⟩ := Decoder.read_mirror he copy written (by rw [ho]; exact hpieces) hword
        (hbounded (.put field) List.mem_cons_self) hlast hr
      obtain ⟨hreading, herror, hempty, hrestores⟩ :=
        hread { d with rest := written } he (ho.trans horder.symm) rfl
      rw [Decoder.calls_read, hd]
      rw [List.append_assoc] at hrestores
      refine ⟨hreading, herror, hempty, hrestores.cons hvalue ?_ he⟩
      show (e.put field).length + written.length = _
      rw [hput.length_eq, ← List.length_append, List.append_assoc]
    | setOrder order =>
      obtain ⟨written, hstands, hroom, houtcome, hread⟩ := ih (h.setOrder order) hok
        (fun call hc => htail call (mem_dropLast_cons hc))
        (fun call hc => hbounded call (List.mem_cons_of_mem _ hc))
      refine ⟨written, hstands, hroom, houtcome, fun d he ho hr => ?_⟩
      obtain ⟨hreading, herror, hempty, hrestores⟩ := hread (d.setOrder order) he rfl hr
      refine ⟨hreading, herror, hempty, hrestores.cons rfl ?_ he⟩
      show e.length + d.rest.length = _
      rw [h.length_eq, hr, List.length_append]

end Encoder

/-! ## The drivers -/

namespace Script

/-- Whether a caller hands its failure on decides nothing about what is done. -/
theorem run_eq_runCalls (script : Script) (e : Encoder) :
    (script.run e).encoder = (runCalls script.calls e).encoder ∧
      (script.run e).marks = (runCalls script.calls e).marks := by
  unfold run
  cases script.fallible <;> exact ⟨rfl, rfl⟩

/-- A writing pass that succeeds has kept no fault and has filled its
destination. -/
theorem finish_of_fill {script : Script} {order : ByteOrder} {destination : List UInt8}
    (hok : (script.fill order destination).outcome = .ok ()) :
    (runCalls script.calls (.writer order destination)).encoder.error = none ∧
      (runCalls script.calls (.writer order destination)).encoder.length =
        destination.length := by
  rw [← (script.run_eq_runCalls _).1]
  simp only [fill, Encoder.finish] at hok
  split at hok
  · cases hok
  · split at hok
    · cases hok
    · next hnone =>
      split at hok
      · next hlength => exact ⟨hnone, hlength⟩
      · cases hok

/-- A destination that is full holds what was written and nothing behind it. -/
theorem fill_of_stands {script : Script} {order : ByteOrder} {destination written : List UInt8}
    (hstands : (runCalls script.calls (.writer order destination)).encoder.Stands written
      (destination.drop written.length))
    (hlength : (runCalls script.calls (.writer order destination)).encoder.length =
      destination.length) :
    written.length = destination.length ∧
      (script.fill order destination).destination = written ∧
      (script.fill order destination).marks =
        (runCalls script.calls (.writer order destination)).marks := by
  have hfull : written.length = destination.length := by
    rw [← hlength, hstands.length_eq]
  refine ⟨hfull, ?_, (script.run_eq_runCalls _).2⟩
  show (script.run (.writer order destination)).encoder.destination = written
  rw [(script.run_eq_runCalls _).1, hstands.destination_eq, hfull, List.drop_length,
    List.append_nil]

/-- **A writing pass that succeeds** fills its destination with a message that
is read back. -/
theorem fill_restores {script : Script} {order : ByteOrder} {destination : List UInt8}
    {reads : List ReadCall} (hm : List.Forall₂ Mirrors script.calls reads)
    (htail : ∀ call ∈ script.calls.dropLast, ¬call.IsTail)
    (hbounded : ∀ call ∈ script.calls, call.Bounded)
    (hok : (script.fill order destination).outcome = .ok ()) (fallible : Bool) :
    (script.fill order destination).destination.length = destination.length ∧
      (decode order (script.fill order destination).destination reads fallible).2 = .ok () ∧
      Restores script.calls (script.fill order destination).marks destination.length
        (decode order (script.fill order destination).destination reads fallible).1.sights := by
  obtain ⟨herror, hlength⟩ := finish_of_fill hok
  obtain ⟨written, hstands, -, -, hread⟩ :=
    (Encoder.stands_writer order destination).runCalls hm herror htail hbounded
  rw [List.nil_append] at hstands hread
  obtain ⟨hfull, hdestination, hmarks⟩ := fill_of_stands hstands hlength
  obtain ⟨houtcome, hnone, hempty, hrestores⟩ := hread (.start order written) rfl rfl rfl
  have hdecode : decode order written reads fallible =
      ((Decoder.start order written).calls reads, .ok ()) := by
    simp only [decode, houtcome, Decoder.finish, hnone, hempty]
    rfl
  rw [hdestination, hmarks, ← hfull, hdecode]
  exact ⟨rfl, rfl, hrestores⟩

/-- **A message of a two-pass driver**: the bytes that it made of a script and
the marks of the pass that wrote them. -/
inductive Encodes (script : Script) (order : ByteOrder) : List Mark → List UInt8 → Prop
  /-- In memory of its own, from a pool or from the system. -/
  | own {home : Option Nat} {s s' : Store} {encoded : Encoded Loan} {loan : Loan} :
    script.encode order home s = .ok encoded s' → encoded.result = .ok loan →
    Encodes script order (encoded.writing.getD []) loan.view
  /-- In memory of the caller. -/
  | into {memory : List UInt8} {length : Nat} :
    (script.encodeInto order memory).1.result = .ok length →
    Encodes script order ((script.encodeInto order memory).1.writing.getD [])
      ((script.encodeInto order memory).2.take length)
  /-- In a slice of an arena. -/
  | inArena {a a' : Arena} {s s' : Store} {encoded : Encoded Slice} {slice : Slice} :
    script.encodeInArena order (a, s) = .ok encoded (a', s') → encoded.result = .ok slice →
    Encodes script order (encoded.writing.getD []) (a'.read slice 0 slice.length)

/-- **Every driver hands out what a successful writing pass left behind.** -/
theorem Encodes.exists_fill {script : Script} {order : ByteOrder} {marks : List Mark}
    {bytes : List UInt8} (h : script.Encodes order marks bytes) :
    ∃ destination, (script.fill order destination).outcome = .ok () ∧
      marks = (script.fill order destination).marks ∧
      ((script.fill order destination).destination.length = destination.length →
        bytes = (script.fill order destination).destination) := by
  cases h with
  | @own home s s' encoded loan h hresult =>
    cases hmeasure : (script.measure order).length with
    | error failure =>
      simp only [encode, hmeasure] at h
      cases h
      cases hresult
    | ok length =>
      simp only [encode, hmeasure] at h
      obtain ⟨memory, _, -, h⟩ := exists_of_bind_eq_ok h
      cases houtcome : (script.fill order memory.view).outcome with
      | error failure =>
        -- the loan is given back, and what is answered is a failure
        simp only [houtcome] at h
        obtain ⟨-, _, -, h⟩ := exists_of_bind_eq_ok h
        obtain ⟨-, _, -, h⟩ := exists_of_bind_eq_ok h
        cases h
        cases hresult
      | ok done =>
        simp only [houtcome] at h
        cases h
        cases hresult
        exact ⟨memory.view, houtcome, rfl, fun hlength => Loan.view_write_zero hlength⟩
  | @into memory length h =>
    simp only [encodeInto] at h ⊢
    split at h
    · cases h
    · next counted hmeasure =>
      split at h
      · cases h
      · next hroom =>
        obtain ⟨done, houtcome, rfl⟩ := exists_of_map_eq_ok h
        simp only [if_neg hroom, Option.getD_some]
        refine ⟨memory.take counted, houtcome, rfl, fun hlength => ?_⟩
        rw [List.take_left' (hlength.trans (List.length_take_of_le (Nat.le_of_not_lt hroom)))]
  | @inArena a a' s s' encoded slice h hresult =>
    cases hmeasure : (script.measure order).length with
    | error failure =>
      simp only [encodeInArena, hmeasure] at h
      cases h
      cases hresult
    | ok length =>
      simp only [encodeInArena, hmeasure] at h
      obtain ⟨got, ⟨a₁, s₁⟩, hget, h⟩ := exists_of_bind_eq_ok h
      obtain rfl := Arena.length_of_get hget
      cases h
      obtain ⟨done, houtcome, rfl⟩ := exists_of_map_eq_ok hresult
      exact ⟨a₁.read got 0 got.length, houtcome, rfl,
        fun hlength => Arena.read_write_slice hlength⟩

/-- **Messages are read back.** Whatever driver has made a message, its symmetric
reading gives back every value from just the bytes that were written for it, if
every delimiter ends its payload and only the last field may be one that ends the
message.

The condition on delimiters cannot be weakened: a delimited payload is read back
exactly if its delimiter ends it, and that the payload does not contain the
delimiter is not enough. -/
theorem symmetric_reading_restores :
    (∀ (script : Script) (order : ByteOrder) (marks : List Mark) (bytes : List UInt8)
      (reads : List ReadCall) (fallible : Bool),
      script.Encodes order marks bytes → List.Forall₂ Mirrors script.calls reads →
      (∀ call ∈ script.calls.dropLast, ¬call.IsTail) →
      (∀ call ∈ script.calls, call.Bounded) →
      (decode order bytes reads fallible).2 = .ok () ∧
        Restores script.calls marks bytes.length (decode order bytes reads fallible).1.sights) ∧
    (∀ (d : Decoder) (payload delimiter following : List UInt8) (copy : Bool),
      d.error = none → delimiter ≠ [] → d.rest = payload ++ delimiter ++ following →
      ((d.read (.bytes (.delimited delimiter) copy)).1.value = .bytes payload ↔
        Delimiter.Ends delimiter payload) ∧
      (Delimiter.Ends delimiter payload →
        (d.read (.bytes (.delimited delimiter) copy)).2 = { d with rest := following })) ∧
    (∃ payload delimiter : List UInt8,
      delimiter ≠ [] ∧ ¬delimiter <:+: payload ∧ ¬Delimiter.Ends delimiter payload) := by
  refine ⟨fun script order marks bytes reads fallible hencodes hm htail hbounded => ?_,
    fun d payload delimiter following copy he hd hr => ?_, ?_⟩
  · obtain ⟨destination, houtcome, rfl, hbytes⟩ := hencodes.exists_fill
    obtain ⟨hlength, hresult, hrestores⟩ :=
      fill_restores hm htail hbounded houtcome fallible
    rw [hbytes hlength, hlength]
    exact ⟨hresult, hrestores⟩
  · have hback := fun hends => Decoder.read_delimited_append he following hd hends hr copy
    refine ⟨⟨Decoder.ends_of_read_delimited he hd hr copy, fun hends => ?_⟩, fun hends => ?_⟩
    · rw [hback hends]
      rfl
    · rw [hback hends]
  · -- a delimiter that overlaps itself starts in the payload
    exact ⟨[97], [97, 97], by decide, by decide, by decide⟩

/-- A message with a change of the byte order, a payload that ends with the first
byte of its delimiter, and a tail. -/
theorem symmetric_reading_restores_mixed :
    (Script.encodeInto ⟨[.put (.varUnsigned 300), .setOrder .littleEndian,
        .put (.signed .two (-2)), .put (.blob (.delimited [13, 10]) (.bytes [97, 13])),
        .put (.tail [7])], true⟩ .bigEndian (List.replicate 10 0)).1.result = .ok 9 ∧
      (decode .bigEndian [172, 2, 254, 255, 97, 13, 13, 10, 7] [.read .varUnsigned,
        .setOrder .littleEndian, .read (.signed .two), .read (.bytes (.delimited [13, 10]) true),
        .read (.bytes .rest false)] true).2 = .ok () := by
  have hresult : (Script.encodeInto ⟨[.put (.varUnsigned 300), .setOrder .littleEndian,
      .put (.signed .two (-2)), .put (.blob (.delimited [13, 10]) (.bytes [97, 13])),
      .put (.tail [7])], true⟩ .bigEndian (List.replicate 10 0)).1.result = .ok 9 := by decide
  have hm : List.Forall₂ Mirrors [.put (.varUnsigned 300), .setOrder .littleEndian,
      .put (.signed .two (-2)), .put (.blob (.delimited [13, 10]) (.bytes [97, 13])),
      .put (.tail [7])] [.read .varUnsigned, .setOrder .littleEndian, .read (.signed .two),
      .read (.bytes (.delimited [13, 10]) true), .read (.bytes .rest false)] :=
    .cons (.put (.varUnsigned 300) false) (.cons (.setOrder .littleEndian)
      (.cons (.put (.signed .two (-2)) false)
        (.cons (.put (.blob (.delimited [13, 10]) (.bytes [97, 13])) true)
          (.cons (.put (.tail [7]) false) .nil))))
  refine ⟨hresult,
    (symmetric_reading_restores.1 _ .bigEndian _ _ _ true (.into hresult) hm ?_ ?_).1⟩
  · simp [Call.IsTail, Field.IsTail]
  · simp only [List.forall_mem_cons, Call.Bounded, Field.Bounded, List.not_mem_nil, true_and,
      IsEmpty.forall_iff, implies_true, and_true]
    decide

end Script

end Wirepool
