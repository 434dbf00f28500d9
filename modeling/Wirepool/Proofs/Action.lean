import Wirepool.Pool.Store

/-!
# Actions taken apart

An action that is made of several ends well only if each of them does. Proofs
about actions take them apart by the lemmas here and never look into the monad.

What holds at the end of an action is said by two predicates at once, one for
the case that it answers and one for the case that it aborts, because an abort
leaves a state behind too.
-/

namespace Wirepool

variable {ε σ α β : Type}

/-- **Two actions in turn** end well only if the first one does and the second
one does after it. -/
theorem exists_of_bind_eq_ok {x : EStateM ε σ α} {f : α → EStateM ε σ β} {s s' : σ} {b : β}
    (h : (x >>= f) s = .ok b s') : ∃ a t, x s = .ok a t ∧ f a t = .ok b s' := by
  simp only [bind, EStateM.bind] at h
  split at h
  · next a t hx => exact ⟨a, t, hx, h⟩
  · cases h

/-- **How an action ends**: with an answer and a state as in `good`, or with an
abort and a state as in `bad`. -/
def Ends (result : EStateM.Result ε σ α) (good : α → σ → Prop) (bad : ε → σ → Prop) : Prop :=
  match result with
  | .ok a s => good a s
  | .error e s => bad e s

namespace Ends

variable {good good' : α → σ → Prop} {bad bad' : ε → σ → Prop} {further : β → σ → Prop} {s : σ}

/-- What follows from how an action ends. -/
theorem mono {result : EStateM.Result ε σ α} (h : Ends result good bad)
    (hgood : ∀ a s, good a s → good' a s) (hbad : ∀ e s, bad e s → bad' e s) :
    Ends result good' bad' := by
  cases result with
  | ok a s => exact hgood a s h
  | error e s => exact hbad e s h

/-- What is known of an abort beside anything else is that it is this one. -/
theorem abort_eq {result : EStateM.Result ε σ α} (h : Ends result good bad) :
    Ends result good fun e s => bad e s ∧ result = .error e s := by
  cases result with
  | ok a s => exact h
  | error e s => exact ⟨h, rfl⟩

/-- What was said of how an action ends in two ways holds together. -/
theorem and {result : EStateM.Result ε σ α} (h : Ends result good bad)
    (h' : Ends result good' bad') :
    Ends result (fun a s => good a s ∧ good' a s) fun e s => bad e s ∧ bad' e s := by
  cases result with
  | ok a s => exact ⟨h, h'⟩
  | error e s => exact ⟨h, h'⟩

/-- **Two actions in turn** end as the second one does after the first one. -/
theorem bind {x : EStateM ε σ α} {f : α → EStateM ε σ β} (hx : Ends (x s) good bad)
    (hf : ∀ a t, good a t → Ends (f a t) further bad) : Ends ((x >>= f) s) further bad := by
  show Ends (EStateM.bind x f s) further bad
  unfold EStateM.bind
  cases hresult : x s with
  | ok a t =>
    rw [hresult] at hx
    exact hf a t hx
  | error e t =>
    rw [hresult] at hx
    exact hx

/-- An action with its answer changed. -/
theorem map {x : EStateM ε σ α} {f : α → β} (hx : Ends (x s) good bad)
    (hf : ∀ a t, good a t → further (f a) t) : Ends ((f <$> x) s) further bad := by
  show Ends (EStateM.map f x s) further bad
  unfold EStateM.map
  cases hresult : x s with
  | ok a t =>
    rw [hresult] at hx
    exact hf a t hx
  | error e t =>
    rw [hresult] at hx
    exact hx

/-- An action that never aborts has an answer. -/
theorem exists_ok {result : EStateM.Result ε σ α} (h : Ends result good fun _ _ => False) :
    ∃ a s, result = .ok a s ∧ good a s := by
  cases result with
  | ok a s => exact ⟨a, s, rfl, h⟩
  | error e s => exact h.elim

/-- **An action for each of a row of things**, in turn. What holds before and
after each is about the things that are still to come. -/
theorem forM (inv : List α → σ → Prop) {f : α → EStateM ε σ PUnit}
    (hf : ∀ a as s, inv (a :: as) s → Ends (f a s) (fun _ t => inv as t) bad) (as : List α)
    {s : σ} (h : inv as s) : Ends (as.forM f s) (fun _ t => inv [] t) bad := by
  induction as generalizing s with
  | nil => exact h
  | cons a as ih =>
    rw [List.forM_eq_forM, List.forM_cons]
    exact (hf a as s h).bind fun _ t ht => ih ht

end Ends

namespace HolderM

variable {ω : Type} {good : α → Store → Prop} {bad : Abort → Store → Prop}

/-- **An action on the store** leaves the holder as it is. -/
theorem ends_onStore {action : StoreM α} {holder : ω} {s : Store} (h : Ends (action s) good bad) :
    Ends (onStore action (holder, s)) (fun a t => good a t.2 ∧ t.1 = holder)
      fun abort t => bad abort t.2 ∧ t.1 = holder := by
  unfold onStore
  cases hresult : action s with
  | ok a t =>
    rw [hresult] at h
    exact ⟨h, rfl⟩
  | error abort t =>
    rw [hresult] at h
    exact ⟨h, rfl⟩

end HolderM

end Wirepool
