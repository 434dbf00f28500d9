import Mathlib.Data.Nat.Find
import Wirepool.Wire.Delimiter

/-!
# When a delimiter ends a payload

A reader stops at the first occurrence of the delimiter. It finds the payload
again exactly if nothing earlier is an occurrence: the delimiter must not start
inside the payload, not even where it reaches over the payload's end into
itself. A payload that does not contain the delimiter is therefore not yet
safe.
-/

namespace Wirepool

namespace Delimiter

variable {d payload : List UInt8}

/-- **The delimiter ends the payload**: in the payload with the delimiter behind
it, no occurrence of the delimiter starts before the payload's end. -/
def Ends (d payload : List UInt8) : Prop :=
  ∀ i < payload.length, ¬d <+: (payload ++ d).drop i

instance (d payload : List UInt8) : Decidable (Ends d payload) :=
  inferInstanceAs (Decidable (∀ i < payload.length, ¬d <+: (payload ++ d).drop i))

/-- Searching finds the first occurrence and nothing else. -/
theorem findFrom_eq_some_iff (d : List UInt8) (before : Nat) (input : List UInt8) (p : Nat) :
    findFrom d before input = some p ↔
      ∃ k, p = before + k ∧ k ≤ input.length ∧ d <+: input.drop k ∧
        ∀ i < k, ¬d <+: input.drop i := by
  induction input generalizing before with
  | nil =>
    unfold findFrom
    split
    · next hd =>
      rw [List.isEmpty_iff] at hd
      subst hd
      constructor
      · rintro ⟨⟩
        exact ⟨0, rfl, Nat.le_refl _, List.nil_prefix, fun i hi => absurd hi (Nat.not_lt_zero i)⟩
      · rintro ⟨k, rfl, hk, -, -⟩
        rw [Nat.le_zero.mp hk]
        rfl
    · next hd =>
      constructor
      · rintro ⟨⟩
      · rintro ⟨k, -, -, hpre, -⟩
        rw [List.drop_nil, List.prefix_nil] at hpre
        exact absurd hpre (by simpa using hd)
  | cons b rest ih =>
    -- the delimiter stands at the first position, or the search goes on behind it
    unfold findFrom
    split
    · next hd =>
      rw [List.isPrefixOf_iff_prefix] at hd
      constructor
      · rintro ⟨⟩
        exact ⟨0, rfl, Nat.zero_le _, hd, fun i hi => absurd hi (Nat.not_lt_zero i)⟩
      · rintro ⟨k, rfl, -, -, hfirst⟩
        rcases Nat.eq_zero_or_pos k with rfl | hk
        · rfl
        · exact absurd hd (hfirst 0 hk)
    · next hd =>
      rw [List.isPrefixOf_iff_prefix] at hd
      rw [ih]
      constructor
      · rintro ⟨k, rfl, hk, hpre, hfirst⟩
        refine ⟨k + 1, by omega, Nat.succ_le_succ hk, hpre, fun i hi => ?_⟩
        cases i with
        | zero => exact hd
        | succ i => exact hfirst i (Nat.lt_of_succ_lt_succ hi)
      · rintro ⟨k, rfl, hk, hpre, hfirst⟩
        cases k with
        | zero => exact absurd hpre hd
        | succ k =>
          exact ⟨k, by omega, Nat.le_of_succ_le_succ hk, hpre,
            fun i hi => hfirst (i + 1) (Nat.succ_lt_succ hi)⟩

/-- **The position that is found** is that of the first occurrence. -/
theorem find?_eq_some_iff (d input : List UInt8) (p : Nat) :
    find? d input = some p ↔
      p ≤ input.length ∧ d <+: input.drop p ∧ ∀ i < p, ¬d <+: input.drop i := by
  rw [find?, findFrom_eq_some_iff]
  constructor
  · rintro ⟨k, rfl, h⟩
    rwa [Nat.zero_add]
  · exact fun h => ⟨p, (Nat.zero_add p).symm, h⟩

/-- What follows the delimiter neither makes nor hides an occurrence in front
of it. -/
theorem prefix_drop_append_iff {i : Nat} (hi : i ≤ payload.length) (following : List UInt8) :
    d <+: (payload ++ d ++ following).drop i ↔ d <+: (payload ++ d).drop i := by
  rw [List.drop_append_of_le_length (by simp; omega)]
  constructor
  · intro h
    exact List.prefix_of_prefix_length_le h (List.prefix_append _ _) (by simp; omega)
  · exact fun h => h.trans (List.prefix_append _ _)

/-- The delimiter occurs where it was put. -/
theorem prefix_drop_length (d payload following : List UInt8) :
    d <+: (payload ++ d ++ following).drop payload.length := by
  rw [List.append_assoc, List.drop_left]
  exact List.prefix_append _ _

/-- **A payload is found again** exactly if the delimiter ends it, whatever
follows. -/
theorem find?_append_eq_some_iff (following : List UInt8) :
    find? d (payload ++ d ++ following) = some payload.length ↔ Ends d payload := by
  rw [find?_eq_some_iff]
  constructor
  · rintro ⟨-, -, hfirst⟩ i hi
    rw [← prefix_drop_append_iff (Nat.le_of_lt hi) following]
    exact hfirst i hi
  · intro h
    refine ⟨by simp, prefix_drop_length d payload following, fun i hi => ?_⟩
    rw [prefix_drop_append_iff (Nat.le_of_lt hi)]
    exact h i hi

/-- Some occurrence is found, since the delimiter stands behind the payload at
the latest. -/
theorem exists_find?_append (d payload following : List UInt8) :
    ∃ p ≤ payload.length, find? d (payload ++ d ++ following) = some p := by
  classical
  have hthere : ∃ p, d <+: (payload ++ d ++ following).drop p :=
    ⟨payload.length, prefix_drop_length d payload following⟩
  have hle : Nat.find hthere ≤ payload.length :=
    Nat.find_min' hthere (prefix_drop_length d payload following)
  refine ⟨Nat.find hthere, hle, ?_⟩
  rw [find?_eq_some_iff]
  refine ⟨?_, Nat.find_spec hthere, fun i hi => Nat.find_min hthere hi⟩
  rw [List.length_append, List.length_append]
  omega

end Delimiter

end Wirepool
