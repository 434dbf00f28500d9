import Wirepool.Proofs.Wire.Format
import Wirepool.Proofs.Wire.Writing

/-!
# Messages as rows of entries

What a caller asks of an encoder, its decisions apart, is a row of *entries*:
fields, and changes of the byte order between them. A row has a wire image, that
of its fields one behind another, each in the order in force where it stands.

A caller decides as it goes: it may look which pass it is in, look at the kept
fault, leave early. What is left of all this in one pass is a *turn*, the entries
that it made and the outcome that it handed on. Every turn is one that some caller
takes, and the two turns of a caller need have nothing in common.
-/

namespace Wirepool

/-- **One entry of a message**: a field or a change of the byte order. -/
inductive Entry where
  | field (field : Field)
  | order (order : ByteOrder)
  deriving DecidableEq

namespace Entry

/-- The call that makes an entry. -/
def call : Entry → Call
  | field f => .put f
  | order o => .setOrder o

/-- **The wire image of a row of entries** that starts in the given order. -/
def image : ByteOrder → List Entry → List UInt8
  | _, [] => []
  | o, field f :: entries => f.image o ++ image o entries
  | _, order o :: entries => image o entries

/-- An entry that can be sent. The order can be changed at any time. -/
def Sendable : Entry → Prop
  | field f => f.Sendable
  | order _ => True

/-- The order in force behind a row of entries. -/
def lastOrder : ByteOrder → List Entry → ByteOrder
  | o, [] => o
  | o, field _ :: entries => lastOrder o entries
  | _, order o :: entries => lastOrder o entries

end Entry

namespace Encoder

/-- **Makes one entry.** -/
def enter (e : Encoder) : Entry → Encoder
  | .field f => e.put f
  | .order o => e.setOrder o

/-- An encoder with a fault only follows the changes of the order. -/
theorem foldl_enter_of_error {e : Encoder} {fault : Fault} (h : e.error = some fault)
    (entries : List Entry) :
    entries.foldl enter e = { e with order := Entry.lastOrder e.order entries } := by
  induction entries generalizing e with
  | nil => rfl
  | cons entry entries ih =>
    cases entry with
    | field f =>
      show entries.foldl enter (e.put f) = _
      rw [put_of_error h, ih h]
      rfl
    | order o => exact ih (e := e.setOrder o) h

end Encoder

/-! ## What a caller does in one pass -/

/-- **The entry that a call makes** on an encoder, if it makes one. -/
def Call.made : Call → Encoder → Option Entry
  | .put field, _ => some (.field field)
  | .setOrder order, _ => some (.order order)
  | .whenCounting call, e => if e.isCounting then call.made e else none
  | .whenWriting call, e => if e.isCounting then none else call.made e
  | _, _ => none

/-- **The entries that a row of calls makes** until one of them leaves. -/
def entriesOf : List Call → Encoder → List Entry
  | [], _ => []
  | call :: calls, e =>
    match call.run e with
    | (_, .leave _) => []
    | (next, .next) => (call.made e).toList ++ entriesOf calls next

/-- **What a caller does in one pass**: the entries it makes and the outcome it
hands on. -/
structure Turn where
  entries : List Entry
  outcome : Except Failure Unit

/-- The turn of a caller on an encoder. -/
def Script.turn (script : Script) (e : Encoder) : Turn :=
  ⟨entriesOf script.calls e, (script.run e).outcome⟩

/-- A call that leaves does nothing, and one that does not makes its entry. -/
theorem Call.run_cases (call : Call) (e : Encoder) :
    (∃ outcome, call.run e = (e, .leave outcome)) ∨
      call.run e = ((call.made e).toList.foldl Encoder.enter e, .next) := by
  induction call with
  | put field => exact .inr rfl
  | setOrder order => exact .inr rfl
  | whenCounting call ih =>
    rw [run, made]
    split
    · exact ih
    · exact .inr rfl
  | whenWriting call ih =>
    rw [run, made]
    split
    · exact .inr rfl
    · exact ih
  | fail text => exact .inl ⟨_, rfl⟩
  | raise fault => exact .inl ⟨_, rfl⟩
  | check =>
    rw [run]
    split
    · exact .inl ⟨_, rfl⟩
    · exact .inr rfl
  | stop => exact .inl ⟨_, rfl⟩

/-- A call after which the next one follows has made its entry. -/
theorem Call.run_of_next {call : Call} {e : Encoder} (h : (call.run e).2 = .next) :
    call.run e = ((call.made e).toList.foldl Encoder.enter e, .next) := by
  refine (call.run_cases e).resolve_left ?_
  rintro ⟨outcome, hleave⟩
  rw [hleave] at h
  cases h

/-- **A row of calls does to an encoder what its entries do.** -/
theorem encoder_runCalls (calls : List Call) (e : Encoder) :
    (runCalls calls e).encoder = (entriesOf calls e).foldl Encoder.enter e := by
  induction calls generalizing e with
  | nil => rfl
  | cons call calls ih =>
    rw [runCalls, entriesOf]
    rcases call.run_cases e with ⟨outcome, hrun⟩ | hrun
    · rw [hrun]
      rfl
    · rw [hrun, List.foldl_append]
      exact ih _

/-- **The encoder behind a pass** is that of the entries of the turn. -/
theorem Script.encoder_run (script : Script) (e : Encoder) :
    (script.run e).encoder = (script.turn e).entries.foldl Encoder.enter e := by
  rw [turn, ← encoder_runCalls]
  unfold run
  split <;> rfl

/-- The calls that make entries make just these, and never leave. -/
theorem runCalls_map_call (entries : List Entry) (e : Encoder) :
    (runCalls (entries.map Entry.call) e).encoder = entries.foldl Encoder.enter e := by
  induction entries generalizing e with
  | nil => rfl
  | cons entry entries ih =>
    cases entry with
    | field f => exact ih (e.put f)
    | order o => exact ih (e.setOrder o)

/-- **Encoders that no call tells apart** see the same turn. What holds of the two
may depend on the calls that are still to come. -/
theorem turn_eq_of_alike (alike : List Call → Encoder → Encoder → Prop)
    (hcall : ∀ call calls c w, alike (call :: calls) c w →
      call.made w = call.made c ∧ (call.run w).2 = (call.run c).2 ∧
        ((call.run c).2 = .next → alike calls (call.run c).1 (call.run w).1))
    (calls : List Call) {c w : Encoder} (h : alike calls c w) :
    entriesOf calls w = entriesOf calls c ∧
      (runCalls calls w).outcome = (runCalls calls c).outcome := by
  induction calls generalizing c w with
  | nil => exact ⟨rfl, rfl⟩
  | cons call calls ih =>
    obtain ⟨hmade, hverdict, hnext⟩ := hcall call calls c w h
    rcases hc : call.run c with ⟨c', verdict⟩
    rcases hw : call.run w with ⟨w', verdict'⟩
    rw [hc, hw] at hverdict hnext
    cases hverdict
    cases verdict with
    | leave outcome => simp only [entriesOf, runCalls, hc, hw, and_self]
    | next =>
      obtain ⟨hentries, houtcome⟩ := ih (hnext rfl)
      simp only [entriesOf, runCalls, hc, hw, hmade]
      exact ⟨congrArg _ hentries, houtcome⟩

/-- Whether a caller hands its failure on does not depend on the encoder. -/
theorem Script.turn_congr {script : Script} {c w : Encoder}
    (h : entriesOf script.calls w = entriesOf script.calls c ∧
      (runCalls script.calls w).outcome = (runCalls script.calls c).outcome) :
    script.turn w = script.turn c := by
  refine congrArg₂ Turn.mk h.1 ?_
  unfold run
  split
  · exact h.2
  · rfl

/-! ## Every turn is taken -/

/-- A call that leaves with an outcome. -/
def Call.leaving : Except Failure Unit → Call
  | .ok () => .stop
  | .error (.own text) => .fail text
  | .error (.fault fault) => .raise fault

/-- **The calls of a turn**: its entries, and then it leaves. -/
def Turn.calls (turn : Turn) : List Call :=
  turn.entries.map Entry.call ++ [Call.leaving turn.outcome]

/-- **A caller that takes one turn while counting and another one while
writing.** -/
def Script.ofTurns (counted written : Turn) : Script :=
  { calls := counted.calls.map .whenCounting ++ written.calls.map .whenWriting }

namespace Encoder

/-- No piece turns one pass into the other. -/
theorem isCounting_take (e : Encoder) (piece : Piece) :
    (e.take piece).isCounting = e.isCounting := by
  unfold take fail
  split
  · rfl
  · split
    · split <;> rfl
    · split
      · next h => rw [isCounting, isCounting, h]
      · next h =>
        split
        · split <;> rfl
        · rw [isCounting, isCounting, h]

theorem isCounting_foldl_take (pieces : List Piece) (e : Encoder) :
    (pieces.foldl take e).isCounting = e.isCounting := by
  induction pieces generalizing e with
  | nil => rfl
  | cons piece pieces ih => exact (ih _).trans (e.isCounting_take piece)

/-- **No entry turns one pass into the other.** -/
theorem isCounting_enter (e : Encoder) (entry : Entry) :
    (e.enter entry).isCounting = e.isCounting := by
  cases entry with
  | order o => rfl
  | field f =>
    show (e.put f).isCounting = _
    unfold put fail
    split
    · rfl
    · split
      · exact isCounting_foldl_take _ e
      · split <;> rfl

end Encoder

/-- Leaving calls leave. -/
theorem Call.run_leaving (outcome : Except Failure Unit) (e : Encoder) :
    (Call.leaving outcome).run e = (e, .leave outcome) := by
  match outcome with
  | .ok () => rfl
  | .error (.own text) => rfl
  | .error (.fault fault) => rfl

/-- A row of calls that starts with a turn takes that turn. -/
theorem runCalls_turn_append (turn : Turn) (wrap : Call → Call) (others : List Call)
    {e : Encoder}
    (hrun : ∀ call e', e'.isCounting = e.isCounting → (wrap call).run e' = call.run e')
    (hentry : ∀ call e', e'.isCounting = e.isCounting → (wrap call).made e' = call.made e') :
    entriesOf (turn.calls.map wrap ++ others) e = turn.entries ∧
      (runCalls (turn.calls.map wrap ++ others) e).outcome = turn.outcome := by
  obtain ⟨entries, outcome⟩ := turn
  induction entries generalizing e with
  | nil =>
    have hleave := (hrun (Call.leaving outcome) e rfl).trans (Call.run_leaving outcome e)
    simp only [Turn.calls, List.map_nil, List.nil_append, List.map_cons, List.cons_append,
      entriesOf, runCalls, hleave, and_self]
  | cons entry entries ih =>
    have hnext : (wrap entry.call).run e = (e.enter entry, .next) := by
      rw [hrun _ e rfl]
      cases entry <;> rfl
    have hmade : (wrap entry.call).made e = some entry := by
      rw [hentry _ e rfl]
      cases entry <;> rfl
    have hcounting := e.isCounting_enter entry
    obtain ⟨hentries, houtcome⟩ := ih (e := e.enter entry)
      (fun call e' h => hrun call e' (h.trans hcounting))
      (fun call e' h => hentry call e' (h.trans hcounting))
    simp only [Turn.calls, List.map_cons, List.cons_append, entriesOf, runCalls, hnext, hmade] at *
    exact ⟨congrArg (entry :: ·) hentries, houtcome⟩

/-- Calls for the other pass are passed over. -/
theorem runCalls_skip_append (calls others : List Call) (wrap : Call → Call) {e : Encoder}
    (hrun : ∀ call, (wrap call).run e = (e, .next)) (hentry : ∀ call, (wrap call).made e = none) :
    entriesOf (calls.map wrap ++ others) e = entriesOf others e ∧
      (runCalls (calls.map wrap ++ others) e).outcome = (runCalls others e).outcome := by
  induction calls with
  | nil => exact ⟨rfl, rfl⟩
  | cons call calls ih =>
    simp only [List.map_cons, List.cons_append, entriesOf, runCalls, hrun, hentry]
    exact ih

/-- **Any two turns are those of a caller**, whatever the orders and the
destination. -/
theorem Script.turn_ofTurns (counted written : Turn) (order : ByteOrder)
    (destination : List UInt8) :
    (ofTurns counted written).turn (.counter order) = counted ∧
      (ofTurns counted written).turn (.writer order destination) = written := by
  constructor
  · obtain ⟨hentries, houtcome⟩ := runCalls_turn_append counted .whenCounting
      (written.calls.map .whenWriting) (e := .counter order)
      (fun call e' h => if_pos h) (fun call e' h => if_pos h)
    exact congrArg₂ Turn.mk hentries houtcome
  · have hskip := runCalls_skip_append counted.calls (written.calls.map .whenWriting) .whenCounting
      (e := .writer order destination) (fun _ => rfl) (fun _ => rfl)
    have htake := runCalls_turn_append written .whenWriting [] (e := .writer order destination)
      (fun call e' h => if_neg (by rw [h]; nofun)) (fun call e' h => if_neg (by rw [h]; nofun))
    rw [List.append_nil] at htake
    exact congrArg₂ Turn.mk (hskip.1.trans htake.1) (hskip.2.trans htake.2)

end Wirepool
