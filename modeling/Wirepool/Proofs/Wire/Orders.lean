import Wirepool.Proofs.Wire.Standstill

/-!
# The order to go back to

The byte order in force and the one to go back to are kept apart, because they are given
back at different times: the first changes with every switch, the second only says how a
new input begins. A row of calls that stays with its input therefore does not depend on
the second at all, and neither does it change it.
-/

namespace Wirepool

namespace Decoder

/-- The decoder with another byte order to go back to. -/
def returningTo (d : Decoder) (order : ByteOrder) : Decoder :=
  { d with initialOrder := order }

variable (d : Decoder) (o : ByteOrder)

@[simp] theorem order_returningTo : (d.returningTo o).order = d.order := rfl

@[simp] theorem error_returningTo : (d.returningTo o).error = d.error := rfl

theorem payload_returningTo (extent : Extent) :
    (d.returningTo o).payload extent =
      ((d.payload extent).1, (d.payload extent).2.returningTo o) := by
  have hattached : (d.payload extent).2.attached = d.attached := by
    have h := congrArg (fun found => found.2.attached)
      (d.payload_under d.initialOrder d.attached extent)
    rwa [under_self] at h
  rw [show d.returningTo o = d.under o d.attached from rfl, payload_under, ← hattached]
  rfl

/-- **A read does not see to which order its decoder goes back**: its reply is the same,
and what becomes of a payload too. -/
theorem read_returningTo (read : Read) :
    (d.returningTo o).read read = ((d.read read).1, (d.read read).2.returningTo o) := by
  obtain ⟨hvalue, hnext⟩ := d.read_choosing_under o d.attached read read.copies
  rw [Read.choosing_copies] at hvalue hnext
  have hdecoder : (d.read read).2.under o d.attached = (d.read read).2.returningTo o := by
    rw [← (d.read_settings read).2]
    rfl
  refine Prod.ext ?_ (hnext.trans hdecoder)
  cases read with
  | text extent copy =>
    rw [Decoder.read, Decoder.read, payload_returningTo]
    rcases d.payload extent with ⟨_ | row, next⟩
    · rfl
    · dsimp only
      rcases text? row with _ | s <;> rfl
  | bytes extent copy =>
    rw [Decoder.read, Decoder.read, payload_returningTo]
    rcases d.payload extent with ⟨_ | row, next⟩ <;> rfl
  | _ => exact congrArg (fun value => ({ value } : Reply)) hvalue

variable {d o}

theorem call_returningTo_of_ok {call : ReadCall} (hcall : ∀ input, call ≠ .reset input)
    {reply : Reply} {next : Decoder} (h : d.call call = .ok (reply, next)) :
    (d.returningTo o).call call = .ok (reply, next.returningTo o) := by
  cases call with
  | read read =>
    rw [Decoder.call, read_returningTo, show d.read read = (reply, next) from Except.ok.inj h]
  | reset input => exact absurd rfl (hcall input)
  | check =>
    rw [Decoder.call] at h
    rw [Decoder.call, error_returningTo]
    split at h
    · cases h
    · cases h
      rfl
  | fail text => cases h
  | stop => cases h
  | _ =>
    cases h
    rfl

theorem call_returningTo_of_error {call : ReadCall} {outcome : Except Failure Unit}
    (h : d.call call = .error outcome) : (d.returningTo o).call call = .error outcome := by
  cases call with
  | check =>
    rw [Decoder.call] at h
    rw [Decoder.call, error_returningTo]
    split at h
    · exact h
    · cases h
  | fail text => exact h
  | stop => exact h
  | _ => cases h

/-- **A row of calls that stays with its input does not see to which order its decoder goes
back.** -/
theorem calls_returningTo {calls : List ReadCall} (hcalls : ∀ input, .reset input ∉ calls) :
    (d.returningTo o).calls calls =
        { d.calls calls with decoder := (d.calls calls).decoder.returningTo o } := by
  induction calls generalizing d with
  | nil => rfl
  | cons call calls ih =>
    have hcall (input : List UInt8) : call ≠ .reset input := fun heq =>
      hcalls input (heq ▸ List.mem_cons_self)
    rcases h : d.call call with outcome | ⟨reply, next⟩
    · rw [(calls_cons_of_error h calls).1,
        (calls_cons_of_error (call_returningTo_of_error h) calls).1]
    · rw [(calls_cons_of_ok h calls).1, (calls_cons_of_ok (call_returningTo_of_ok hcall h) calls).1,
        ih fun input hmem => hcalls input (List.mem_cons_of_mem _ hmem)]
      rfl

end Decoder

end Wirepool
