import Wirepool.Proofs.Wire.Standstill

/-!
# Copies are not seen in what is read

Two rows of calls that differ only in which payloads are to be copies, and in where an
arena is attached, read the same. To compare them call by call would need a way to line
them up, since one may have attachings where the other has none. Instead each is compared
with its *plain* row, which asks for no copy and attaches nothing: what is seen of a row,
copies apart, is what is seen of its plain row, and the two rows have the same one.

What the choices do decide is where a payload ends up. A read that has failed copies
nothing, whatever it asked for; one that has succeeded copies the very bytes it gives,
to the heap or to the arena that is attached by then.
-/

namespace Wirepool

/-- **A call without its say on copies**, if anything is left of it. -/
def ReadCall.plain? : ReadCall → Option ReadCall
  | .attach => none
  | .read r => some (.read (r.choosing false))
  | call => some call

/-- A row of calls without its say on copies. -/
def plain (calls : List ReadCall) : List ReadCall := calls.filterMap ReadCall.plain?

/-- **What a call shows, copies apart**: its value, and the unread bytes and the fault
behind it. To attach an arena shows nothing. -/
def ReadCall.shown? (call : ReadCall) (sight : Sight) : Option (Value × Nat × Option Fault) :=
  if call = .attach then none else some (sight.reply.value, sight.left, sight.error)

/-- What a row of calls shows, copies apart. -/
def shown (calls : List ReadCall) (reading : Reading) : List (Value × Nat × Option Fault) :=
  (calls.zip reading.sights).filterMap fun pair => pair.1.shown? pair.2

/-- The bytes of a payload. -/
def Value.row : Value → List UInt8
  | .text s => utf8Bytes s
  | .bytes row => row
  | _ => []

namespace Decoder

variable {d : Decoder}

/-! ## What is shown -/

/-- **A call that is not an attaching** shows on any arena, or none, what its plain call
shows. -/
theorem call_plain {call plain : ReadCall} (hplain : call.plain? = some plain) (d : Decoder)
    (b : Bool) :
    (∃ outcome, d.call call = .error outcome ∧
        (d.under d.initialOrder b).call plain = .error outcome) ∨
      ∃ reply next reply', d.call call = .ok (reply, next) ∧
        (d.under d.initialOrder b).call plain = .ok (reply', next.under next.initialOrder b) ∧
        reply'.value = reply.value := by
  cases call with
  | attach => cases hplain
  | read read =>
    cases hplain
    obtain ⟨hvalue, hnext⟩ := d.read_choosing_under d.initialOrder b read false
    refine .inr ⟨(d.read read).1, (d.read read).2, _, rfl, ?_, hvalue⟩
    rw [(d.read_settings read).1, ← hnext]
    rfl
  | check =>
    cases hplain
    cases h : d.error with
    | some fault =>
      exact .inl ⟨.error (.fault fault), by rw [Decoder.call, h],
        by rw [Decoder.call, error_under, h]⟩
    | none =>
      exact .inr ⟨{ value := .nothing }, d, { value := .nothing }, by rw [Decoder.call, h],
        by rw [Decoder.call, error_under, h], rfl⟩
  | fail text =>
    cases hplain
    exact .inl ⟨_, rfl, rfl⟩
  | stop =>
    cases hplain
    exact .inl ⟨_, rfl, rfl⟩
  | _ =>
    cases hplain
    exact .inr ⟨_, _, _, rfl, rfl, rfl⟩

/-- **A row of calls shows what its plain row shows**, comes to the same outcome and ends
with the same decoder, the arena apart. -/
theorem calls_plain (calls : List ReadCall) (d : Decoder) (b : Bool) :
    let reading := d.calls calls
    let other := (d.under d.initialOrder b).calls (plain calls)
    shown calls reading = shown (plain calls) other ∧ reading.outcome = other.outcome ∧
      other.decoder = reading.decoder.under reading.decoder.initialOrder b := by
  induction calls generalizing d with
  | nil => exact ⟨rfl, rfl, rfl⟩
  | cons call calls ih =>
    cases hplain : call.plain? with
    | none =>
      obtain rfl : call = .attach := by cases call <;> first | rfl | cases hplain
      obtain ⟨hshown, houtcome, hdecoder⟩ := ih { d with attached := true }
      have hattach : d.call .attach =
          .ok ({ value := .nothing }, { d with attached := true }) := rfl
      rw [(calls_cons_of_ok hattach calls).1]
      refine ⟨?_, houtcome, hdecoder⟩
      simp only [shown, List.zip_cons_cons, List.filterMap_cons, ReadCall.shown?, if_pos]
      exact hshown
    | some other =>
      have hrow : plain (call :: calls) = other :: plain calls := List.filterMap_cons_some hplain
      rw [hrow]
      rcases call_plain hplain d b with ⟨outcome, hcall, hother⟩ |
        ⟨reply, next, reply', hcall, hother, hvalue⟩
      · rw [(calls_cons_of_error hcall calls).1, (calls_cons_of_error hother _).1]
        exact ⟨rfl, rfl, rfl⟩
      · obtain ⟨hshown, houtcome, hdecoder⟩ := ih next
        have hne : call ≠ .attach := by
          rintro rfl
          cases hplain
        have hne' : other ≠ .attach := by
          rintro rfl
          cases call <;> cases hplain
        rw [(calls_cons_of_ok hcall calls).1, (calls_cons_of_ok hother _).1]
        refine ⟨?_, houtcome, hdecoder⟩
        simp only [shown, List.zip_cons_cons, List.filterMap_cons, ReadCall.shown?, if_neg hne,
          if_neg hne', hvalue]
        exact congrArg _ hshown

/-- What is found at the end of an input does not depend on the settings. -/
theorem finish_under (d : Decoder) (o : ByteOrder) (b : Bool) : (d.under o b).finish = d.finish :=
  rfl

/-! ## Where payloads end up -/

/-- Bytes are found exactly if there is no fault behind them. -/
theorem isSome_take (d : Decoder) (count : Nat) :
    (d.take count).1.isSome = (d.take count).2.error.isNone := by
  unfold take fail
  cases h : d.error with
  | some fault => simp [h]
  | none =>
    dsimp only
    split <;> simp

theorem isSome_delimited (d : Decoder) (delimiter : List UInt8) :
    (d.delimited delimiter).1.isSome = (d.delimited delimiter).2.error.isNone := by
  unfold delimited fail
  cases h : d.error with
  | some fault => simp [h]
  | none =>
    dsimp only
    split
    · simp
    · split <;> simp

/-- **A payload is found exactly if there is no fault behind it.** -/
theorem isSome_payload (d : Decoder) (extent : Extent) :
    (d.payload extent).1.isSome = (d.payload extent).2.error.isNone := by
  cases extent with
  | exactly count => exact d.isSome_take count
  | sized size => exact (d.unsignedIn size).2.isSome_take _
  | counted => exact d.varUnsigned.2.isSome_take _
  | delimited delimiter => exact d.isSome_delimited delimiter
  | rest => exact d.isSome_take _

/-- **What becomes of a payload.** It is copied only by a read that asks for a copy and
succeeds, to the arena if one is attached and to the heap if not. -/
structure Settles (attached : Bool) (read : Read) (reply : Reply) (error : Option Fault) :
    Prop where
  owned_iff : reply.owned = some true ↔ read.copies = true ∧ attached = false ∧ error = none
  toArena_eq : reply.toArena =
    if read.copies = true ∧ attached = true ∧ error = none then some reply.value.row else none

theorem settles_read (d : Decoder) (read : Read) :
    Settles d.attached read (d.read read).1 (d.read read).2.error := by
  have hnothing {value : Value} {error : Option Fault} (herror : error ≠ none) :
      Settles d.attached read { value, owned := some false } error :=
    ⟨by simp [herror], by simp [herror]⟩
  -- what is delivered is delivered by a decoder that still has the same arena
  have hdelivered {next : Decoder} {value : Value} {row : List UInt8} (hrow : value.row = row)
      (hnext : next.attached = d.attached) (herror : next.error = none) :
      Settles d.attached read (next.deliver value row read.copies) next.error := by
    rw [herror]
    refine ⟨?_, ?_⟩
    · simp [deliver, hnext]
    · simp [deliver, hnext, hrow]
  cases read with
  | text extent copy =>
    have hfound := d.isSome_payload extent
    have hsettings := (d.read_settings (.text extent copy)).2
    rw [Decoder.read] at hsettings ⊢
    generalize d.payload extent = found at hfound hsettings ⊢
    rcases found with ⟨_ | row, next⟩
    · exact hnothing fun hnone => by simp [show next.error = none from hnone] at hfound
    · have herror : next.error = none := by simpa using hfound
      dsimp only at hsettings ⊢
      cases htext : text? row with
      | none => exact hnothing (by rw [error_fail herror]; exact Option.some_ne_none _)
      | some s =>
        rw [htext] at hsettings
        exact hdelivered (eq_utf8Bytes_of_text? htext).symm hsettings herror
  | bytes extent copy =>
    have hfound := d.isSome_payload extent
    have hsettings := (d.read_settings (.bytes extent copy)).2
    rw [Decoder.read] at hsettings ⊢
    generalize d.payload extent = found at hfound hsettings ⊢
    rcases found with ⟨_ | row, next⟩
    · exact hnothing fun hnone => by simp [show next.error = none from hnone] at hfound
    · exact hdelivered rfl hsettings (by simpa using hfound)
  | _ => exact ⟨by simp [Decoder.read, Read.copies], by simp [Decoder.read, Read.copies]⟩

/-- A call that is no read copies nothing. -/
theorem toArena_call {call : ReadCall} (hcall : ∀ read, call ≠ .read read) {reply : Reply}
    {next : Decoder} (h : d.call call = .ok (reply, next)) : reply.toArena = none := by
  cases call with
  | read read => exact absurd rfl (hcall read)
  | check =>
    rw [Decoder.call] at h
    split at h <;> cases h
    rfl
  | fail text => cases h
  | stop => cases h
  | _ =>
    cases h
    rfl

/-- **What becomes of the payloads of a row.** An arena takes the copies of a read if it is
attached in front of it. -/
structure SettlesAll (attached : Bool) (calls : List ReadCall) (sights : List Sight) : Prop where
  reads (i : Nat) (read : Read) (sight : Sight) : calls[i]? = some (.read read) →
    sights[i]? = some sight →
    Settles (attached || decide (ReadCall.attach ∈ calls.take i)) read sight.reply sight.error
  others (i : Nat) (call : ReadCall) (sight : Sight) : calls[i]? = some call →
    (∀ read, call ≠ .read read) → sights[i]? = some sight → sight.reply.toArena = none

theorem settles_calls (calls : List ReadCall) (d : Decoder) :
    SettlesAll d.attached calls (d.calls calls).sights := by
  induction calls generalizing d with
  | nil => exact ⟨fun _ _ _ h => by simp at h, fun _ _ _ h => by simp at h⟩
  | cons call calls ih =>
    rcases hcall : d.call call with outcome | ⟨reply, next⟩
    · rw [(calls_cons_of_error hcall calls).1]
      exact ⟨fun _ _ _ _ h => by simp at h, fun _ _ _ _ _ h => by simp at h⟩
    · rw [(calls_cons_of_ok hcall calls).1]
      have hattached := (settings_call hcall).2
      refine ⟨fun i read sight hread hsight => ?_, fun i other sight hother hnone hsight => ?_⟩
      · cases i with
        | zero =>
          obtain rfl : call = .read read := Option.some.inj hread
          obtain rfl := Option.some.inj hsight
          have hsettles := d.settles_read read
          rw [show d.read read = (reply, next) from Except.ok.inj hcall] at hsettles
          simpa using hsettles
        | succ i =>
          have hfront : (next.attached || decide (ReadCall.attach ∈ calls.take i)) =
              (d.attached || decide (ReadCall.attach ∈ (call :: calls).take (i + 1))) := by
            simp [hattached, Bool.or_assoc]
          rw [← hfront]
          exact (ih next).reads i read sight hread hsight
      · cases i with
        | zero =>
          obtain rfl : call = other := Option.some.inj hother
          obtain rfl := Option.some.inj hsight
          exact toArena_call hnone hcall
        | succ i => exact (ih next).others i other sight hother hnone hsight

end Decoder

/-- **The copies of a reading, each with the arena that takes it**, if the attachings of
its row attach the arenas `arenas 1`, `arenas 2` and so on. It is the one that was attached
last. -/
def Reading.addressed (reading : Reading) (calls : List ReadCall) (arenas : Nat → String) :
    List (String × List UInt8) :=
  reading.sights.zipIdx.filterMap fun entry =>
    entry.1.reply.toArena.map fun row => (arenas ((calls.take entry.2).count .attach), row)

/-- Every copy has an address. -/
theorem Reading.map_snd_addressed (reading : Reading) (calls : List ReadCall)
    (arenas : Nat → String) :
    (reading.addressed calls arenas).map Prod.snd = reading.toArena := by
  have hrows : reading.toArena =
      (reading.sights.zipIdx.map Prod.fst).filterMap fun sight => sight.reply.toArena := by
    rw [List.zipIdx_map_fst, Reading.toArena]
  rw [hrows, Reading.addressed, List.map_filterMap, List.filterMap_map]
  refine List.filterMap_congr fun entry _ => ?_
  simp [Option.map_map, Function.comp_def]

/-! ## Decoding -/

/-- A decoded input is a row of calls on it. -/
theorem fst_decode (order : ByteOrder) (input : List UInt8) (calls : List ReadCall)
    (fallible : Bool) :
    (decode order input calls fallible).1 = (Decoder.start order input).calls calls := by
  unfold decode
  dsimp only
  split <;> rfl

/-- What decoding comes to, if the calls come to `outcome` and the end of the input to
`finish`. -/
def comesTo (outcome finish : Except Failure Unit) (fallible : Bool) : Except Failure Unit :=
  match outcome, fallible with
  | .error failure, true => .error failure
  | _, _ => finish

theorem snd_decode (order : ByteOrder) (input : List UInt8) (calls : List ReadCall)
    (fallible : Bool) :
    let reading := (Decoder.start order input).calls calls
    (decode order input calls fallible).2 =
      comesTo reading.outcome (reading.decoder.finish.mapError .fault) fallible := by
  unfold decode
  generalize (Decoder.start order input).calls calls = reading
  rcases reading with ⟨sights, d, failure | ⟨⟩⟩ <;> cases fallible <;> rfl

/-- **Rows that differ only in their say on copies decode to the same result**, and show
the same on the way. -/
theorem decode_of_plain_eq {calls others : List ReadCall} (hplain : plain calls = plain others)
    (order : ByteOrder) (input : List UInt8) :
    let reading := (Decoder.start order input).calls calls
    let other := (Decoder.start order input).calls others
    shown calls reading = shown others other ∧ reading.outcome = other.outcome ∧
      ∀ fallible, (decode order input calls fallible).2 =
        (decode order input others fallible).2 := by
  intro reading other
  obtain ⟨hshown, houtcome, hdecoder⟩ :=
    Decoder.calls_plain calls (Decoder.start order input) false
  obtain ⟨hshown', houtcome', hdecoder'⟩ :=
    Decoder.calls_plain others (Decoder.start order input) false
  rw [← hplain] at hshown' houtcome' hdecoder'
  have hsame : reading.outcome = other.outcome := houtcome.trans houtcome'.symm
  have hfinish : reading.decoder.finish = other.decoder.finish := by
    have hunder := congrArg Decoder.finish (hdecoder.symm.trans hdecoder')
    rwa [Decoder.finish_under, Decoder.finish_under] at hunder
  refine ⟨hshown.trans hshown'.symm, hsame, fun fallible => ?_⟩
  rw [snd_decode, snd_decode, ← hfinish, ← hsame]

end Wirepool
