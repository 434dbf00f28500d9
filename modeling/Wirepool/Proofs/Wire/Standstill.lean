import Mathlib.Data.List.Forall2
import Wirepool.Message
import Wirepool.Proofs.Wire.Entries
import Wirepool.Proofs.Wire.Kept
import Wirepool.Proofs.Wire.Unseen
import Wirepool.Wire.Manual

/-!
# Standing still until a fresh start

An encoder or decoder that has kept a fault takes every further call and answers
nothing. That has to be read in two directions. Forwards: whatever follows, only the
order in force and the place for copies move, so no later fault takes the place of the
first one, and no byte of a destination or of an arena does either. Backwards: once a
new destination or a new input is there, none of what happened can be told any more.

The second direction is not a matter of faults. What comes of a fresh start depends on
the order to go back to and on whether an arena is attached, and these two are exactly
what no put and no read ever sees; so a fresh start gives the same state after every
history, with a fault or without.
-/

namespace Wirepool

/-! ## Encoders -/

namespace Encoder

/-- An encoder that has just been made. -/
inductive Fresh (order : ByteOrder) : Encoder → Prop where
  | counting : Fresh order (counter order)
  | writing (destination : List UInt8) : Fresh order (writer order destination)

/-- **The encoder behind a row of actions.** -/
def after (e : Encoder) : List Action → Encoder
  | [] => e
  | .rewind destination :: actions => (e.rewind destination).after actions
  | .call call :: actions => (call.run e).1.after actions

/-- The entries that calls make when nobody leaves. -/
def entries (e : Encoder) (calls : List Call) : List Entry :=
  calls.flatMap fun call => (call.made e).toList

/-- **An encoder that stands still**, driven by hand or by a caller that may leave. -/
structure StandsStill (e : Encoder) : Prop where
  /-- Only the changes of the order are followed: the fault, the length and the
  destination with the border in it are what they were. -/
  after_eq (calls : List Call) :
    e.after (calls.map .call) = e.setOrder (Entry.lastOrder e.order (e.entries calls))
  /-- So after each call the same length and the same fault are seen. -/
  looks (calls : List Call) : ∀ look ∈ (e.drive (calls.map .call)).1, look.mark = e.mark
  /-- No byte of the destination has changed. -/
  destinations (calls : List Call) : (e.drive (calls.map .call)).2 = e.destination?
  /-- A caller that may leave finds the same. -/
  pass_eq (calls : List Call) :
    (runCalls calls e).encoder = e.setOrder (Entry.lastOrder e.order (entriesOf calls e))
  marks (calls : List Call) : ∀ mark ∈ (runCalls calls e).marks, mark = e.mark

/-- **An encoder that a new destination makes as good as new**, after the actions
`before`. -/
structure StartsAfresh (order : ByteOrder) (e : Encoder) (before : List Action) : Prop where
  after_eq (destination : List UInt8) (later : List Action) :
    e.after (before ++ .rewind destination :: later) = (writer order destination).after later
  /-- What is seen and written from there on is what a new writer shows and writes. -/
  drive_eq (destination : List UInt8) (later : List Action) :
    e.drive (before ++ .rewind destination :: later) =
      ((e.drive before).1 ++ (writer order destination).look none ::
          ((writer order destination).drive later).1,
        (e.drive before).2 ++ ((writer order destination).drive later).2)

end Encoder

/-- What a call makes depends on which pass it is, and on nothing else. -/
theorem Call.made_congr {e e' : Encoder} (h : e'.isCounting = e.isCounting) (call : Call) :
    call.made e' = call.made e := by
  induction call with
  | whenCounting call ih => rw [made, made, h, ih]
  | whenWriting call ih => rw [made, made, h, ih]
  | _ => rfl

/-- A call leaves the encoder on which its entry is made, whether it leaves or not. -/
theorem Call.fst_run (call : Call) (e : Encoder) :
    (call.run e).1 = (call.made e).toList.foldl Encoder.enter e := by
  induction call with
  | whenCounting call ih =>
    rw [run, made]
    split
    · exact ih
    · rfl
  | whenWriting call ih =>
    rw [run, made]
    split
    · rfl
    · exact ih
  | check =>
    rw [run]
    split <;> rfl
  | _ => rfl

namespace Encoder

/-! ### The order to go back to -/

theorem initialOrder_take (e : Encoder) (piece : Piece) :
    (e.take piece).initialOrder = e.initialOrder := by
  unfold take fail
  split
  · rfl
  · split
    · split <;> rfl
    · split
      · rfl
      · split
        · split <;> rfl
        · rfl

theorem initialOrder_foldl_take (pieces : List Piece) (e : Encoder) :
    (pieces.foldl take e).initialOrder = e.initialOrder := by
  induction pieces generalizing e with
  | nil => rfl
  | cons piece pieces ih => exact (ih _).trans (e.initialOrder_take piece)

theorem initialOrder_enter (e : Encoder) (entry : Entry) :
    (e.enter entry).initialOrder = e.initialOrder := by
  cases entry with
  | order o => rfl
  | field f =>
    show (e.put f).initialOrder = _
    unfold put fail
    split
    · rfl
    · split
      · exact initialOrder_foldl_take _ e
      · split <;> rfl

/-- **No action changes the order to go back to.** -/
theorem initialOrder_after (actions : List Action) (e : Encoder) :
    (e.after actions).initialOrder = e.initialOrder := by
  induction actions generalizing e with
  | nil => rfl
  | cons action actions ih =>
    cases action with
    | rewind destination => exact ih _
    | call call =>
      refine (ih _).trans ?_
      rw [call.fst_run]
      cases call.made e with
      | none => rfl
      | some entry => exact e.initialOrder_enter entry

theorem Fresh.initialOrder_eq {order : ByteOrder} {e : Encoder} (h : e.Fresh order) :
    e.initialOrder = order := by
  cases h <;> rfl

/-! ### Rows of actions -/

/-- A call is seen first, and then what follows it. -/
theorem drive_call (call : Call) (actions : List Action) (e : Encoder) :
    ∃ returned, e.drive (.call call :: actions) =
      ((call.run e).1.look returned :: ((call.run e).1.drive actions).1,
        ((call.run e).1.drive actions).2) :=
  ⟨_, rfl⟩

/-- **What is seen of a row of actions** is what is seen of its front, and then what
is seen of the rest when it starts from there. A destination is left behind only by a
new one, so at the border the one in use belongs to the rest. -/
theorem drive_append (before later : List Action) (e : Encoder) :
    e.after (before ++ later) = (e.after before).after later ∧
      (e.drive (before ++ later)).1 = (e.drive before).1 ++ ((e.after before).drive later).1 ∧
      ∃ left, (e.drive before).2 = left ++ (e.after before).destination? ∧
        (e.drive (before ++ later)).2 = left ++ ((e.after before).drive later).2 := by
  induction before generalizing e with
  | nil => exact ⟨rfl, rfl, [], rfl, rfl⟩
  | cons action before ih =>
    cases action with
    | rewind destination =>
      obtain ⟨hafter, hlooks, left, hbefore, hall⟩ := ih (e.rewind destination)
      refine ⟨hafter, congrArg _ hlooks, e.destination? ++ left, ?_, ?_⟩
      · rw [List.append_assoc, after, ← hbefore]
        rfl
      · rw [List.append_assoc, after, ← hall]
        rfl
    | call call =>
      obtain ⟨hafter, hlooks, left, hbefore, hall⟩ := ih (call.run e).1
      exact ⟨hafter, congrArg _ hlooks, left, hbefore, hall⟩

/-- **After a new destination nothing of what came before can be told.** -/
theorem Fresh.startsAfresh {order : ByteOrder} {e : Encoder} (h : e.Fresh order)
    (before : List Action) : e.StartsAfresh order before := by
  have hrewind (destination : List UInt8) :
      (e.after before).rewind destination = writer order destination := by
    rw [rewind, initialOrder_after, h.initialOrder_eq]
  constructor
  · intro destination later
    rw [(drive_append before _ e).1, after, hrewind]
  · intro destination later
    obtain ⟨-, hlooks, left, hbefore, hall⟩ :=
      drive_append before (.rewind destination :: later) e
    rw [drive, hrewind] at hlooks hall
    refine Prod.ext hlooks ?_
    rw [hall, hbefore, List.append_assoc]

/-! ### Standing still -/

/-- Calls by hand make their entries one after another, since no entry turns one pass
into the other. -/
theorem after_map_call (calls : List Call) (e : Encoder) :
    e.after (calls.map .call) = (e.entries calls).foldl enter e := by
  induction calls generalizing e with
  | nil => rfl
  | cons call calls ih =>
    have hcounting : (call.run e).1.isCounting = e.isCounting := by
      rw [call.fst_run]
      cases call.made e with
      | none => rfl
      | some entry => exact e.isCounting_enter entry
    have hentries : (call.run e).1.entries calls = e.entries calls := by
      simp only [entries, Call.made_congr hcounting]
    rw [List.map_cons, after, ih, hentries, call.fst_run, ← List.foldl_append]
    rfl

section Faulty

variable {e : Encoder} {fault : Fault} (h : e.error = some fault)
include h

/-- A call on an encoder with a fault changes the order at most. -/
theorem fst_run_of_error (call : Call) :
    (call.run e).1 = e.setOrder (Entry.lastOrder e.order (call.made e).toList) := by
  rw [call.fst_run, foldl_enter_of_error h]
  rfl

theorem mark_of_drive (calls : List Call) :
    ∀ look ∈ (e.drive (calls.map .call)).1, look.mark = e.mark := by
  induction calls generalizing e with
  | nil => exact List.forall_mem_nil _
  | cons call calls ih =>
    obtain ⟨returned, hdrive⟩ := drive_call call (calls.map .call) e
    rw [List.map_cons, hdrive, fst_run_of_error h]
    exact List.forall_mem_cons.2 ⟨rfl, ih (e := e.setOrder _) h⟩

theorem destinations_of_drive (calls : List Call) :
    (e.drive (calls.map .call)).2 = e.destination? := by
  induction calls generalizing e with
  | nil => rfl
  | cons call calls ih =>
    obtain ⟨returned, hdrive⟩ := drive_call call (calls.map .call) e
    rw [List.map_cons, hdrive, fst_run_of_error h]
    exact ih (e := e.setOrder _) h

theorem mark_of_runCalls (calls : List Call) :
    ∀ mark ∈ (runCalls calls e).marks, mark = e.mark := by
  induction calls generalizing e with
  | nil => exact List.forall_mem_nil _
  | cons call calls ih =>
    rw [runCalls]
    rcases call.run_cases e with ⟨outcome, hrun⟩ | hrun
    · rw [hrun]
      exact List.forall_mem_nil _
    · rw [hrun, foldl_enter_of_error h]
      exact List.forall_mem_cons.2 ⟨rfl, ih (e := e.setOrder _) h⟩

/-- **From its first fault on an encoder stands still.** -/
theorem standsStill : e.StandsStill where
  after_eq calls := by
    rw [after_map_call, foldl_enter_of_error h]
    rfl
  looks := mark_of_drive h
  destinations := destinations_of_drive h
  pass_eq calls := by
    rw [encoder_runCalls, foldl_enter_of_error h]
    rfl
  marks := mark_of_runCalls h

end Faulty

end Encoder
/-! ## Decoders -/

/-- The order in force behind a row of calls in which no new input is given. -/
def ReadCall.lastOrder : ByteOrder → List ReadCall → ByteOrder
  | o, [] => o
  | _, .setOrder o :: calls => lastOrder o calls
  | o, _ :: calls => lastOrder o calls

theorem ReadCall.lastOrder_cons (o : ByteOrder) (call : ReadCall) (calls : List ReadCall) :
    lastOrder o (call :: calls) = lastOrder (lastOrder o [call]) calls := by
  cases call <;> rfl

namespace Decoder

/-- The calls of a row that are made: those in front of the one that leaves. -/
def made (d : Decoder) (calls : List ReadCall) : List ReadCall :=
  calls.take (d.calls calls).sights.length

/-- **What is seen of one call on a decoder that stands still.** -/
structure Stale (d : Decoder) (call : ReadCall) (sight : Sight) : Prop where
  left_eq : sight.left = d.rest.length
  error_eq : sight.error = d.error
  /-- A read gives zero, false or nothing, which is no copy. -/
  reply_eq (read : Read) : call = .read read → sight.reply = read.missed
  /-- No copy is asked of an arena. -/
  toArena_eq : sight.reply.toArena = none

/-- **A decoder that stands still** as long as no new input is given. -/
structure StandsStill (d : Decoder) (later : List ReadCall) : Prop where
  /-- Only the changes of the order and the attaching of an arena are followed: the
  fault and the unread bytes are what they were. -/
  decoder_eq : (d.calls later).decoder =
    { d with
      order := ReadCall.lastOrder d.order (d.made later)
      attached := d.attached || decide (ReadCall.attach ∈ d.made later) }
  sights : List.Forall₂ d.Stale (d.made later) (d.calls later).sights
  /-- No copy is asked of an arena, so it stays as it is, and every pool with it. -/
  toArena_eq : (d.calls later).toArena = []

/-- **A decoder that a new input makes as good as new**, after the calls `before`. Only
the arena is still there. -/
structure StartsAfresh (order : ByteOrder) (d : Decoder) (before : List ReadCall) : Prop where
  reset_eq (input : List UInt8) :
    (d.calls before).decoder.reset input =
      { start order input with attached := decide (ReadCall.attach ∈ d.made before) }
  /-- What is read from there on is what a new decoder with that arena reads. -/
  calls_eq (hmade : d.made before = before) (input : List UInt8) (later : List ReadCall) :
    d.calls (before ++ .reset input :: later) =
      let fresh := { start order input with attached := decide (ReadCall.attach ∈ before) }
      { fresh.calls later with
        sights := (d.calls before).sights ++
          ⟨{ value := .nothing }, input.length, none⟩ :: (fresh.calls later).sights }

/-! ### Rows of calls -/

section Calls

variable {d : Decoder} {call : ReadCall}

theorem calls_cons_of_ok {reply : Reply} {next : Decoder} (h : d.call call = .ok (reply, next))
    (calls : List ReadCall) :
    d.calls (call :: calls) =
        { next.calls calls with
          sights := ⟨reply, next.rest.length, next.error⟩ :: (next.calls calls).sights } ∧
      d.made (call :: calls) = call :: next.made calls := by
  have hcalls : d.calls (call :: calls) =
      { next.calls calls with
        sights := ⟨reply, next.rest.length, next.error⟩ :: (next.calls calls).sights } := by
    rw [Decoder.calls, h]
  exact ⟨hcalls, by rw [made, hcalls]; rfl⟩

theorem calls_cons_of_error {outcome : Except Failure Unit} (h : d.call call = .error outcome)
    (calls : List ReadCall) :
    d.calls (call :: calls) = ⟨[], d, outcome⟩ ∧ d.made (call :: calls) = [] := by
  have hcalls : d.calls (call :: calls) = ⟨[], d, outcome⟩ := by rw [Decoder.calls, h]
  exact ⟨hcalls, by rw [made, hcalls]; rfl⟩

/-- No call changes the order to go back to, and an arena stays attached. -/
theorem settings_call {reply : Reply} {next : Decoder} (h : d.call call = .ok (reply, next)) :
    next.initialOrder = d.initialOrder ∧
      next.attached = (d.attached || decide (ReadCall.attach ∈ [call])) := by
  cases call with
  | read read =>
    obtain rfl : (d.read read).2 = next := congrArg Prod.snd (Except.ok.inj h)
    simpa using d.read_settings read
  | attach =>
    cases h
    simp
  | check =>
    rw [Decoder.call] at h
    split at h
    · cases h
    · cases h
      simp
  | fail text => cases h
  | stop => cases h
  | _ =>
    cases h
    simp [setOrder, reset, start]

/-- **No row of calls changes the order to go back to.** -/
theorem settings_calls (calls : List ReadCall) (d : Decoder) :
    (d.calls calls).decoder.initialOrder = d.initialOrder ∧
      (d.calls calls).decoder.attached =
        (d.attached || decide (ReadCall.attach ∈ d.made calls)) := by
  induction calls generalizing d with
  | nil => exact ⟨rfl, (Bool.or_false _).symm⟩
  | cons call calls ih =>
    rcases h : d.call call with outcome | ⟨reply, next⟩
    · obtain ⟨hcalls, hmade⟩ := calls_cons_of_error h calls
      rw [hcalls, hmade]
      exact ⟨rfl, (Bool.or_false _).symm⟩
    · obtain ⟨hcalls, hmade⟩ := calls_cons_of_ok h calls
      obtain ⟨horder, hattached⟩ := settings_call h
      rw [hcalls, hmade]
      refine ⟨(ih next).1.trans horder, (ih next).2.trans ?_⟩
      simp [hattached, Bool.or_assoc]

/-- **A row of calls** is its front, and then, if nobody has left there, the rest from
where the front ends. -/
theorem calls_append (before later : List ReadCall) (d : Decoder) :
    d.calls (before ++ later) =
      if d.made before = before then
        { (d.calls before).decoder.calls later with
          sights := (d.calls before).sights ++ ((d.calls before).decoder.calls later).sights }
      else d.calls before := by
  induction before generalizing d with
  | nil => rfl
  | cons call before ih =>
    rw [List.cons_append]
    rcases h : d.call call with outcome | ⟨reply, next⟩
    · rw [(calls_cons_of_error h _).1, (calls_cons_of_error h _).1, (calls_cons_of_error h _).2,
        if_neg (by simp)]
    · rw [(calls_cons_of_ok h _).1, (calls_cons_of_ok h _).1, (calls_cons_of_ok h _).2, ih next]
      by_cases hmade : next.made before = before
      · rw [if_pos hmade, if_pos (by rw [hmade])]
        rfl
      · rw [if_neg hmade, if_neg (by simpa using hmade)]

end Calls

/-- **After a new input nothing of what came before can be told**, the arena apart. -/
theorem startsAfresh (order : ByteOrder) (input : List UInt8) (before : List ReadCall) :
    (start order input).StartsAfresh order before := by
  obtain ⟨horder, hattached⟩ := settings_calls before (start order input)
  have hreset (input' : List UInt8) :
      ((start order input).calls before).decoder.reset input' =
        { start order input' with
          attached := decide (ReadCall.attach ∈ (start order input).made before) } := by
    rw [reset, horder, hattached]
    rfl
  refine ⟨hreset, fun hmade input' later => ?_⟩
  rw [calls_append, if_pos hmade, (calls_cons_of_ok rfl later).1, hreset, hmade]
  rfl

/-! ### Standing still -/

section Faulty

variable {d : Decoder} {fault : Fault} (h : d.error = some fault)
include h

/-- One call on a decoder with a fault. -/
theorem call_of_error {call : ReadCall} (hcall : ∀ input, call ≠ .reset input) {reply : Reply}
    {next : Decoder} (hnext : d.call call = .ok (reply, next)) :
    next =
        { d with
          order := ReadCall.lastOrder d.order [call]
          attached := d.attached || decide (ReadCall.attach ∈ [call]) } ∧
      d.Stale call ⟨reply, next.rest.length, next.error⟩ := by
  cases call with
  | read read =>
    rw [Decoder.call, read_of_error h] at hnext
    cases hnext
    refine ⟨by simp [ReadCall.lastOrder], rfl, rfl, ?_, ?_⟩
    · rintro _ ⟨⟩
      rfl
    · cases read <;> rfl
  | reset input => exact absurd rfl (hcall input)
  | check =>
    rw [Decoder.call, h] at hnext
    cases hnext
  | fail text => cases hnext
  | stop => cases hnext
  | _ =>
    cases hnext
    exact ⟨by simp [ReadCall.lastOrder, setOrder], rfl, rfl, nofun, rfl⟩

/-- **From its first fault on a decoder stands still** until it is given a new input. -/
theorem standsStill {later : List ReadCall} (hlater : ∀ input, .reset input ∉ later) :
    d.StandsStill later := by
  have hrow : (d.calls later).decoder =
        { d with
          order := ReadCall.lastOrder d.order (d.made later)
          attached := d.attached || decide (ReadCall.attach ∈ d.made later) } ∧
      List.Forall₂ d.Stale (d.made later) (d.calls later).sights := by
    induction later generalizing d with
    | nil => exact ⟨by simp [Decoder.calls, made, ReadCall.lastOrder], .nil⟩
    | cons call later ih =>
      rcases hcall : d.call call with outcome | ⟨reply, next⟩
      · obtain ⟨hcalls, hmade⟩ := calls_cons_of_error hcall later
        rw [hcalls, hmade]
        exact ⟨by simp [ReadCall.lastOrder], .nil⟩
      · obtain ⟨hcalls, hmade⟩ := calls_cons_of_ok hcall later
        obtain ⟨hnext, hstale⟩ := call_of_error h
          (fun input heq => hlater input (heq ▸ List.mem_cons_self)) hcall
        obtain ⟨hdecoder, hsights⟩ := ih (d := next) (by rw [hnext]; exact h)
          fun input hmem => hlater input (List.mem_cons_of_mem _ hmem)
        rw [hcalls, hmade, ReadCall.lastOrder_cons]
        refine ⟨hdecoder.trans ?_, .cons hstale (hsights.imp fun _ _ hsight => ?_)⟩
        · rw [hnext]
          simp [Bool.or_assoc]
        · obtain ⟨hleft, herror, hreply, harena⟩ := hsight
          exact ⟨by rw [hleft, hnext], by rw [herror, hnext], hreply, harena⟩
  refine ⟨hrow.1, hrow.2, List.filterMap_eq_nil_iff.2 fun sight hsight => ?_⟩
  obtain ⟨i, hi, rfl⟩ := List.getElem_of_mem hsight
  exact (hrow.2.get (by rw [hrow.2.length_eq]; exact hi) hi).toArena_eq

end Faulty

/-- So when copies are made for a whole row, those of its front are made and no
others. -/
theorem copyOut_append_of_error {d : Decoder} {before later : List ReadCall} {fault : Fault}
    (h : (d.calls before).decoder.error = some fault) (hlater : ∀ input, .reset input ∉ later) :
    (d.calls (before ++ later)).copyOut = (d.calls before).copyOut := by
  have hnone := (standsStill h hlater).toArena_eq
  rw [calls_append]
  split
  · rw [Reading.toArena] at hnone
    simp only [Reading.copyOut, Reading.toArena, List.filterMap_append, hnone, List.append_nil]
  · rfl

end Decoder

/-- **The first fault is kept until a fresh start.** An encoder that has just been made,
counting or writing, stands still after any actions that leave it with a fault, and so
does a decoder after any calls: all later calls leave the fault, the length, the
destination, the unread bytes, the arena and the pools as they are, reads find nothing,
and only changes of the order (and of the place for copies) are followed. A new
destination or a new input, with a fault or without, gives what a new writer or a new
decoder of the same first order gives. -/
theorem fault_kept_until_fresh_start (order : ByteOrder) :
    (∀ (e : Encoder) (before : List Action), e.Fresh order →
      ((e.after before).error ≠ none → (e.after before).StandsStill) ∧
        e.StartsAfresh order before) ∧
    (∀ (input : List UInt8) (before : List ReadCall),
      (∀ later : List ReadCall, ((Decoder.start order input).calls before).decoder.error ≠ none →
        (∀ input', .reset input' ∉ later) →
          ((Decoder.start order input).calls before).decoder.StandsStill later ∧
            ((Decoder.start order input).calls (before ++ later)).copyOut =
              ((Decoder.start order input).calls before).copyOut) ∧
        (Decoder.start order input).StartsAfresh order before) := by
  refine ⟨fun e before hfresh => ⟨fun herror => ?_, hfresh.startsAfresh before⟩,
    fun input before => ⟨fun later herror hlater => ?_, Decoder.startsAfresh order input before⟩⟩
  · obtain ⟨fault, hfault⟩ := Option.ne_none_iff_exists'.1 herror
    exact Encoder.standsStill hfault
  · obtain ⟨fault, hfault⟩ := Option.ne_none_iff_exists'.1 herror
    exact ⟨Decoder.standsStill hfault hlater, Decoder.copyOut_append_of_error hfault hlater⟩

/-- A payload that is refused behind its length stops a writer, and a number that is cut
short stops a decoder; both stand still from there. -/
theorem fault_kept_behind_length :
    let refused : List Action := [.call (.put (.blob .counted (.bytes [8, 9])))]
    let short : List ReadCall := [.read (.unsigned .four)]
    let later : List ReadCall := [.setOrder .littleEndian, .attach, .read (.bytes .rest true)]
    ((Encoder.writer .bigEndian [0, 0]).after refused).error ≠ none ∧
      ((Encoder.writer .bigEndian [0, 0]).after refused).StandsStill ∧
      ((Decoder.start .bigEndian [1, 2]).calls short).decoder.error ≠ none ∧
      ((Decoder.start .bigEndian [1, 2]).calls short).decoder.StandsStill later := by
  refine ⟨by decide, ?_, by decide, ?_⟩
  · exact ((fault_kept_until_fresh_start .bigEndian).1 _ _ (.writing [0, 0])).1 (by decide)
  · exact (((fault_kept_until_fresh_start .bigEndian).2 [1, 2] _).1 _ (by decide) (by simp)).1

end Wirepool
