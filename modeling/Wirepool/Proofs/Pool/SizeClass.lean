import Mathlib.Algebra.Group.Nat.Defs
import Mathlib.Data.Nat.Log
import Mathlib.Order.Bounds.Basic
import Wirepool.Memory.Limits
import Wirepool.Pool.SizeClass

/-!
# The class that serves a length

The class of a length is read off a bit length, and it is the one that anybody would choose:
of all classes whose pages hold the length, the first. What ties the two is the exponent of
the power of two that the length is rounded up to. A page holds a length exactly if its own
exponent is no less than that, and the bit length of the number before is that exponent.

No page comes near what addresses can span.
-/

namespace Wirepool

namespace SizeClass

variable {len : Nat} {c : SizeClass}

/-- The size of a page is a power of two. -/
theorem capacity_eq (c : SizeClass) : c.capacity = 2 ^ (c.val + 10) := by
  rw [capacity, Nat.shiftLeft_eq, Nat.pow_add, Nat.mul_comm]

/-- **No page comes near the limit of addresses.** -/
theorem capacity_lt_addressLimit (c : SizeClass) : c.capacity < addressLimit := by
  rw [capacity_eq, addressLimit, Nat.one_shiftLeft]
  have hposition : c.val < 16 := c.isLt
  exact Nat.pow_lt_pow_right Nat.one_lt_two (by omega)

/-! ## The exponent of a length -/

/-- **A page holds a length** if its exponent is no less than that of the length. -/
theorem le_capacity_iff : len ≤ c.capacity ↔ Nat.clog 2 len ≤ c.val + 10 := by
  rw [capacity_eq, Nat.clog_le_iff_le_pow Nat.one_lt_two]

theorem le_maxLength_iff : len ≤ maxLength ↔ Nat.clog 2 len ≤ 25 := by
  rw [Nat.clog_le_iff_le_pow Nat.one_lt_two]
  rfl

/-- The exponent is the bit length of the number before. -/
theorem log2_pred {n : Nat} (h : 1 < n) : (n - 1).log2 + 1 = Nat.clog 2 n := by
  refine eq_of_forall_ge_iff fun k => ?_
  rw [Nat.clog_le_iff_le_pow Nat.one_lt_two, Nat.succ_le_iff, Nat.log2_lt (by omega)]
  omega

/-- **The class of a length, by the exponent.** -/
theorem ofLength?_eq_some_iff :
    ofLength? len = some c ↔
      minLength ≤ len ∧ len ≤ maxLength ∧ c.val = Nat.clog 2 len - 10 := by
  have hmin : minLength = 9 := rfl
  have hcount : classCount = 16 := rfl
  unfold ofLength?
  by_cases hlen : minLength ≤ len ∧ len ≤ maxLength
  · have hlog := log2_pred (n := len) (by omega)
    have hexponent := le_maxLength_iff.1 hlen.2
    rw [if_pos hlen, dif_pos (by omega), Option.some_inj, Fin.ext_iff]
    simp only [hlen, true_and]
    omega
  · rw [if_neg hlen]
    exact iff_of_false (Option.some_ne_none _).symm fun h => hlen ⟨h.1, h.2.1⟩

/-- **The lengths that are served from a page.** -/
theorem isSome_ofLength?_iff (len : Nat) :
    (ofLength? len).isSome ↔ minLength ≤ len ∧ len ≤ maxLength := by
  rw [Option.isSome_iff_exists]
  constructor
  · rintro ⟨c, hc⟩
    obtain ⟨hmin, hmax, -⟩ := ofLength?_eq_some_iff.1 hc
    exact ⟨hmin, hmax⟩
  · rintro ⟨hmin, hmax⟩
    have hexponent := le_maxLength_iff.1 hmax
    have hplace : Nat.clog 2 len - 10 < classCount := by
      show _ < 16
      omega
    exact ⟨⟨_, hplace⟩, ofLength?_eq_some_iff.2 ⟨hmin, hmax, rfl⟩⟩

/-- A length that is too long for the largest page has no class. -/
theorem ofLength?_eq_none (h : maxLength < len) : ofLength? len = none :=
  Option.not_isSome_iff_eq_none.1 fun hsome =>
    absurd ((isSome_ofLength?_iff len).1 hsome).2 h.not_ge

/-- **The class of a length is the first one whose pages hold it.** -/
theorem ofLength?_eq_some_iff_isLeast :
    ofLength? len = some c ↔ minLength ≤ len ∧ IsLeast {d : SizeClass | len ≤ d.capacity} c := by
  have hcount : classCount = 16 := rfl
  have hplace := c.isLt
  rw [ofLength?_eq_some_iff, le_maxLength_iff]
  refine and_congr_right fun _ =>
    ⟨fun ⟨hmax, hc⟩ => ⟨?_, fun d hd => ?_⟩, fun ⟨hheld, hfirst⟩ => ?_⟩
  · exact le_capacity_iff.2 (by omega)
  · have hexponent := le_capacity_iff.1 hd
    exact Fin.le_def.2 (by omega)
  · -- the class with the exponent of the length holds it, so it is not before the first
    have hexponent := le_capacity_iff.1 hheld
    have hle : c ≤ ⟨Nat.clog 2 len - 10, by omega⟩ :=
      hfirst (le_capacity_iff.2 (by show _ ≤ Nat.clog 2 len - 10 + 10; omega))
    have hval : c.val ≤ Nat.clog 2 len - 10 := hle
    omega

/-- **A page of the class that serves a length** holds that length. -/
theorem le_capacity_of_ofLength? (h : ofLength? len = some c) : len ≤ c.capacity :=
  (ofLength?_eq_some_iff_isLeast.1 h).2.1

/-- **A page is less than twice as long as needed**, unless it is of the smallest class. -/
theorem capacity_lt_two_mul (h : ofLength? len = some c) (hlen : 1024 < len) :
    c.capacity < 2 * len := by
  obtain ⟨-, -, hfirst⟩ := ofLength?_eq_some_iff_isLeast.1 h
  have hplace := c.isLt
  rcases hval : c.val with _ | before
  · rw [capacity_eq, hval]
    omega
  · -- the class before is too small, and this one is twice as large
    have hshort : ¬len ≤ capacity ⟨before, by omega⟩ := fun hheld =>
      absurd (Fin.le_def.1 (hfirst hheld)) (by rw [hval]; exact Nat.not_succ_le_self before)
    have hhalf : capacity ⟨before, by omega⟩ = 2 ^ (before + 10) := capacity_eq _
    rw [capacity_eq, hval, Nat.add_right_comm, Nat.pow_succ']
    omega

end SizeClass

end Wirepool
