import Wirepool.Proofs.Wire.Copies
import Wirepool.Proofs.Wire.Safety
import Wirepool.Message

/-!
# Texts are rows of bytes that spell something

A text is read as a row of bytes is, and looked at afterwards. So a reader of texts can be
replaced by one of bytes, and the other way round, as long as the bytes do spell a text:
one reply is the other with the text written out (`Reply.asBytes`), and the decoders behind
them are equal. This is said of a single read first, from a decoder in any state and for
any way to find the end of a payload, and of a row of calls then, where every read of a text
is replaced.

The two come apart in one case, when bytes are read that are not well-formed. By then the
whole field is behind the cursor. The reader of texts keeps the fault, gives an empty text,
and asks no arena for anything, so that no arena and no pool is touched.
-/

namespace Wirepool

/-! ## Well-formed rows -/

/-- **Well-formed UTF-8**: the codes of a row of characters, one behind the other. -/
def WellFormed (row : List UInt8) : Prop :=
  ∃ chars : List Char, row = chars.flatMap String.utf8EncodeChar

/-- **Bytes spell a text exactly if they are well-formed.** -/
theorem isSome_text?_iff (row : List UInt8) : (text? row).isSome ↔ WellFormed row := by
  have hvalid : (text? row).isSome ↔ (⟨row.toArray⟩ : ByteArray).IsValidUTF8 := by
    unfold text? String.fromUTF8?
    split <;> simp_all
  refine hvalid.trans ?_
  constructor
  · rintro ⟨chars, hchars⟩
    have hlist := congrArg (fun bytes : ByteArray => bytes.data.toList) hchars
    exact ⟨chars, by simpa [List.utf8Encode] using hlist⟩
  · rintro ⟨chars, rfl⟩
    exact ⟨chars, ByteArray.ext (by simp [List.utf8Encode])⟩

theorem text?_eq_none_iff (row : List UInt8) : text? row = none ↔ ¬WellFormed row := by
  rw [← isSome_text?_iff, Bool.not_eq_true, Option.isSome_eq_false_iff, Option.isNone_iff_eq_none]

/-! ## Texts written out -/

/-- A value with its text written out in bytes. -/
def Value.asBytes : Value → Value
  | .text s => .bytes (utf8Bytes s)
  | value => value

/-- A reply with its text written out. What became of the payload is as it was. -/
def Reply.asBytes (reply : Reply) : Reply :=
  { reply with value := reply.value.asBytes }

/-- The read that takes as bytes what another takes as a text. -/
def Read.asBytes : Read → Read
  | .text extent copy => .bytes extent copy
  | read => read

/-- The call that takes as bytes what another takes as a text. -/
def ReadCall.asBytes : ReadCall → ReadCall
  | .read r => .read r.asBytes
  | call => call

def Sight.asBytes (sight : Sight) : Sight :=
  { sight with reply := sight.reply.asBytes }

/-- What is seen of a row of calls, with its texts written out. -/
def Reading.asBytes (reading : Reading) : Reading :=
  { reading with sights := reading.sights.map Sight.asBytes }

/-- Writing a text out keeps its bytes. -/
@[simp] theorem Value.row_asBytes (value : Value) : value.asBytes.row = value.row := by
  cases value <;> rfl

/-- A row of bytes asks an arena for the same copies as the texts that it spells. -/
theorem Reading.toArena_asBytes (reading : Reading) :
    reading.asBytes.toArena = reading.toArena := by
  rw [Reading.toArena, Reading.asBytes, List.filterMap_map]
  rfl

/-! ## Copies, read by read -/

/-- Makes the copy that a reply asks an arena for, if it asks for one. -/
def Reply.copyOut (reply : Reply) : HolderM Arena Unit :=
  match reply.toArena with
  | some row => discard (Arena.copy row)
  | none => pure ()

/-- **The copies of a reading are those of its replies**, in turn. -/
theorem Reading.copyOut_eq (reading : Reading) :
    reading.copyOut = forM reading.sights fun sight => sight.reply.copyOut := by
  rw [Reading.copyOut, Reading.toArena, List.forM_eq_forM]
  induction reading.sights with
  | nil => rfl
  | cons sight sights ih =>
    rw [List.forM_cons, ← ih, Reply.copyOut, List.filterMap_cons]
    cases sight.reply.toArena with
    | none => exact (pure_bind _ _).symm
    | some row => exact List.forM_cons ..

/-! ## One read -/

namespace Decoder

/-- **A payload that is no text**: its bytes can be read, and are not well-formed. -/
def Misspelt (d : Decoder) (extent : Extent) (copy : Bool) : Prop :=
  (d.read (.bytes extent copy)).2.error = none ∧
    ¬WellFormed (d.read (.bytes extent copy)).1.value.row

/-- **A text and a row of bytes that were read alike**: the same bytes, the same news of
where they are, and the same decoder behind them. -/
structure ReadAlike (text bytes : Reply × Decoder) : Prop where
  exists_text : ∃ s, text.1.value = .text s
  asBytes_eq : text.1.asBytes = bytes.1
  decoder_eq : text.2 = bytes.2

/-- **A text that was refused** by a decoder `d` that did read its bytes. -/
structure Refused (d : Decoder) (extent : Extent) (text bytes : Reply × Decoder) : Prop where
  /-- The text is empty, on no heap, and not for an arena. -/
  reply_eq : text.1 = { value := .text "", owned := some false }
  /-- The decoders differ in the fault alone. -/
  decoder_eq : text.2 = { bytes.2 with error := some .invalidText }
  /-- The field is behind the cursor as a whole, with its length in front of the payload
  or its delimiter behind it. -/
  consumed : ∃ front behind, d.rest = front ++ bytes.1.value.row ++ behind ++ text.2.rest ∧
    extent.Frames d.order front bytes.1.value.row behind text.2.rest
  /-- An arena and its pool stay as they are. -/
  copies_nothing (t : Arena × Store) : text.1.copyOut t = .ok () t

variable (d : Decoder) (extent : Extent) (copy : Bool)

theorem read_text_of_none {next : Decoder} (h : d.payload extent = (none, next)) :
    ReadAlike (d.read (.text extent copy)) (d.read (.bytes extent copy)) := by
  simp only [read, h]
  exact ⟨⟨"", rfl⟩, rfl, rfl⟩

theorem read_text_of_some {next : Decoder} {row : List UInt8} {s : String}
    (h : d.payload extent = (some row, next)) (htext : text? row = some s) :
    ReadAlike (d.read (.text extent copy)) (d.read (.bytes extent copy)) := by
  simp only [read, h, htext]
  refine ⟨⟨s, rfl⟩, ?_, rfl⟩
  rw [deliver, deliver, Reply.asBytes, Value.asBytes, ← eq_utf8Bytes_of_text? htext]

theorem read_text_of_misspelt {next : Decoder} {row : List UInt8}
    (h : d.payload extent = (some row, next)) (htext : text? row = none) :
    d.Refused extent (d.read (.text extent copy)) (d.read (.bytes extent copy)) := by
  have hfound := d.isSome_payload extent
  rw [h] at hfound
  have herror : next.error = none := by simpa using hfound
  simp only [read, h, htext, fail, herror]
  have hframes := frames_of_payload h
  exact ⟨rfl, rfl, hframes, fun _ => rfl⟩

/-- A payload is misspelt if it is found and spells no text. -/
theorem misspelt_iff : d.Misspelt extent copy ↔
    ∃ row next, d.payload extent = (some row, next) ∧ text? row = none := by
  have hfound := d.isSome_payload extent
  rcases h : d.payload extent with ⟨_ | row, next⟩
  · rw [h] at hfound
    simp only [Misspelt, read, h, Prod.mk.injEq, reduceCtorEq, false_and, exists_false, iff_false,
      not_and]
    intro hnone
    simp [hnone] at hfound
  · rw [h] at hfound
    have herror : next.error = none := by simpa using hfound
    simp only [Misspelt, read, h, herror, true_and, deliver, Value.row, ← text?_eq_none_iff]
    constructor
    · exact fun htext => ⟨row, next, rfl, htext⟩
    · rintro ⟨_, _, heq, htext⟩
      cases heq
      exact htext

/-- **A text that can be read is read as its bytes are.** -/
theorem readAlike_of_not_misspelt (h : ¬d.Misspelt extent copy) :
    ReadAlike (d.read (.text extent copy)) (d.read (.bytes extent copy)) := by
  rcases hpayload : d.payload extent with ⟨_ | row, next⟩
  · exact d.read_text_of_none extent copy hpayload
  · rcases htext : text? row with _ | s
    · exact absurd ((d.misspelt_iff extent copy).2 ⟨row, next, hpayload, htext⟩) h
    · exact d.read_text_of_some extent copy hpayload htext

/-- **A text that is misspelt is refused behind its field.** -/
theorem refused_of_misspelt (h : d.Misspelt extent copy) :
    d.Refused extent (d.read (.text extent copy)) (d.read (.bytes extent copy)) := by
  obtain ⟨row, next, hpayload, htext⟩ := (d.misspelt_iff extent copy).1 h
  exact d.read_text_of_misspelt extent copy hpayload htext

/-- **Texts are read as bytes are.** From a decoder in any state, and wherever a payload
ends, the unread bytes behind it are the same. Unless the bytes are read and are not
well-formed, the fault and the bytes are the same as well, and so is what becomes of them;
otherwise the text is refused, and nothing else happens. -/
theorem text_reads_as_bytes :
    (d.read (.text extent copy)).2.rest = (d.read (.bytes extent copy)).2.rest ∧
      (¬d.Misspelt extent copy ∧
          ReadAlike (d.read (.text extent copy)) (d.read (.bytes extent copy)) ∨
        d.Misspelt extent copy ∧
          d.Refused extent (d.read (.text extent copy)) (d.read (.bytes extent copy))) := by
  by_cases h : d.Misspelt extent copy
  · have hrefused := d.refused_of_misspelt extent copy h
    exact ⟨(congrArg rest hrefused.decoder_eq).trans rfl, .inr ⟨h, hrefused⟩⟩
  · have halike := d.readAlike_of_not_misspelt extent copy h
    exact ⟨congrArg rest halike.decoder_eq, .inl ⟨h, halike⟩⟩

example : (start .bigEndian [1, 0xff, 7]).read (.text .counted true) =
    ({ value := .text "", owned := some false },
      { start .bigEndian [7] with error := some .invalidText }) := by decide

/-! ## Rows of calls -/

/-- A read that keeps no fault over spelling gives what its read of bytes gives. -/
theorem read_asBytes {d : Decoder} {read : Read}
    (h : (d.read read).2.error ≠ some .invalidText) :
    d.read read.asBytes = ((d.read read).1.asBytes, (d.read read).2) := by
  cases read with
  | text extent copy =>
    have hspelt : ¬d.Misspelt extent copy := fun hmisspelt =>
      h ((congrArg error (d.refused_of_misspelt extent copy hmisspelt).decoder_eq).trans rfl)
    have halike := d.readAlike_of_not_misspelt extent copy hspelt
    exact Prod.ext halike.asBytes_eq.symm halike.decoder_eq.symm
  | bytes extent copy =>
    simp only [Read.asBytes, Decoder.read]
    split <;> rfl
  | _ => rfl

theorem call_asBytes {d next : Decoder} {call : ReadCall} {reply : Reply}
    (h : d.call call = .ok (reply, next)) (herror : next.error ≠ some .invalidText) :
    d.call call.asBytes = .ok (reply.asBytes, next) := by
  cases call with
  | read read =>
    obtain ⟨rfl, rfl⟩ : (d.read read).1 = reply ∧ (d.read read).2 = next :=
      Prod.mk.inj (Except.ok.inj h)
    exact congrArg Except.ok (read_asBytes herror)
  | check =>
    simp only [ReadCall.asBytes, h]
    rw [Decoder.call] at h
    split at h
    · cases h
    · cases h
      rfl
  | fail text => cases h
  | stop => cases h
  | _ =>
    cases h
    rfl

/-- Who leaves does so whether texts or bytes are read. -/
theorem call_asBytes_of_error {d : Decoder} {call : ReadCall} {outcome : Except Failure Unit}
    (h : d.call call = .error outcome) : d.call call.asBytes = .error outcome := by
  cases call with
  | read read => cases h
  | _ => exact h

/-- **A row of calls in which no text is misspelt** shows the same with bytes in place of all
its texts, comes to the same end, and asks an arena for the same copies. -/
theorem calls_asBytes (calls : List ReadCall) (d : Decoder)
    (h : ∀ sight ∈ (d.calls calls).sights, sight.error ≠ some .invalidText) :
    d.calls (calls.map ReadCall.asBytes) = (d.calls calls).asBytes ∧
      (d.calls (calls.map ReadCall.asBytes)).copyOut = (d.calls calls).copyOut := by
  have hsame : d.calls (calls.map ReadCall.asBytes) = (d.calls calls).asBytes := by
    induction calls generalizing d with
    | nil => rfl
    | cons call calls ih =>
      rw [List.map_cons]
      rcases hcall : d.call call with outcome | ⟨reply, next⟩
      · have hbytes := call_asBytes_of_error hcall
        rw [(calls_cons_of_error hcall calls).1, (calls_cons_of_error hbytes _).1]
        rfl
      · rw [(calls_cons_of_ok hcall calls).1] at h ⊢
        have hnext := ih next fun sight hsight => h sight (List.mem_cons_of_mem _ hsight)
        have hbytes := call_asBytes hcall (h _ List.mem_cons_self)
        rw [(calls_cons_of_ok hbytes _).1, hnext]
        rfl
  refine ⟨hsame, ?_⟩
  rw [hsame, Reading.copyOut, Reading.toArena_asBytes]
  rfl

end Decoder

end Wirepool
