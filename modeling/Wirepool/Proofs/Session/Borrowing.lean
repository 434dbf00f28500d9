import Wirepool.Proofs.Pool.Fitting
import Wirepool.Proofs.Session.Ownership

/-!
# Whoever borrows gets memory that fits

Which page serves a length is settled by the length alone. That a page of that class is lent
is not: the page on top of a shelf could be of another size, or be out on loan under another
generation. In a session that can be reached every page is in one place, and a page on a
shelf is of the class of the shelf and on a slot without a generation. So borrowing fails for
one reason only, which is that addresses cannot span the length.
-/

namespace Wirepool

namespace Session

variable {s : Session} {number : Nat} {len : BitVec 64}

/-- **A pool of a session lends memory that fits**, if addresses can span it. -/
theorem Sound.borrow_fits (h : s.Sound) (number : Nat) (hlen : len.toNat < addressLimit)
    (zero : Bool) :
    ∃ loan t, Store.borrow number len.toNat zero s.store = .ok loan t ∧ loan.Fits len := by
  cases hclass : SizeClass.ofLength? len.toNat with
  | none =>
    exact ⟨_, _, Store.borrow_bypassed hclass hlen number zero _, Loan.fits_unpooled hclass rfl⟩
  | some c =>
    obtain ⟨q, lease, events, hborrow, -, -, hlease, hpage, -⟩ :=
      (h.pool number).placed.borrow hclass number zero (s.store.tracking || s.store.tracing)
    exact ⟨_, _, Store.borrow_of_ok hborrow, Loan.fits_pooled hclass hpage hlease⟩

/-- **Borrowed memory fits**, in every session that can be reached by any commands, whichever
pool is asked. If addresses can span the length, whoever borrows gets memory: a page exactly
if the length is from 9 bytes to 32 MiB, and then of the class that the machine selects, which
is the smallest of the sixteen that holds the length; otherwise memory of just that length,
which has no generation. All of the length is seen in either way, and nothing overflows
meanwhile. Whoever asks for it under a name is told so, and has it under that name. What
addresses cannot span is refused. -/
theorem borrowed_memory_fits (commands : List Command) (number : Nat) (len : BitVec 64)
    (zero : Bool) :
    let s := (({} : Session).play commands).2
    (len.toNat < 2 ^ 63 → ∃ loan t, Store.borrow number len.toNat zero s.store = .ok loan t ∧
      loan.Fits len ∧
      ∀ pool name, s.pools.get? pool = some number →
        s.step (.pool (.borrow pool len.toNat zero name)) =
          (.loan loan.info, { s with store := t }.enterLoan name loan)) ∧
    (2 ^ 63 ≤ len.toNat →
      ∃ t, Store.borrow number len.toNat zero s.store = .error .capacityOverflow t) := by
  intro s
  have hsound : s.Sound := sound_play commands
  refine ⟨fun hlen => ?_, fun hlen => ?_⟩
  · obtain ⟨loan, t, hborrow, hfits⟩ := hsound.borrow_fits number hlen zero
    exact ⟨loan, t, hborrow, hfits, fun pool name hpool => step_borrow_of_ok hpool hborrow name⟩
  · have hclass := SizeClass.ofLength?_eq_none (Nat.lt_of_lt_of_le (by decide) hlen)
    exact ⟨_, Store.borrow_refused hclass hlen.not_gt number zero _⟩

/-- One byte more than half of the largest page, asked of a pool that has lent a small one, and
as many bytes as addresses cannot span. -/
theorem borrowed_memory_fits_half :
    let s := (({} : Session).play
      [.pool (.make "pool"), .pool (.borrow "pool" 9 false "small")]).2
    s.pools.get? "pool" = some 0 ∧
      (∃ loan t, Store.borrow 0 16777217 true s.store = .ok loan t ∧ loan.isPooled = true ∧
        loan.capacity = 33554432 ∧ loan.view.length = 16777217 ∧
        (s.step (.pool (.borrow "pool" 16777217 true "large"))).1 = .loan loan.info) ∧
      ∃ t, Store.borrow 0 9223372036854775808 true s.store = .error .capacityOverflow t := by
  intro s
  have hpool : s.pools.get? "pool" = some 0 := by rfl
  obtain ⟨loan, t, hborrow, hfits, hstep⟩ :=
    (borrowed_memory_fits [.pool (.make "pool"), .pool (.borrow "pool" 9 false "small")] 0
      16777217 true).1 (by decide)
  have hpooled : loan.isPooled = true := hfits.isPooled_iff.2 (by decide)
  obtain ⟨c, hselect, -, hcapacity, -⟩ := hfits.exists_class hpooled
  have hclass : SizeClass.ofLength? 16777217 = some ⟨15, by decide⟩ := by decide
  rw [SizeClass.select_eq, show (16777217 : BitVec 64).toNat = 16777217 by rfl, hclass] at hselect
  cases hselect
  exact ⟨hpool, ⟨loan, t, hborrow, hpooled, hcapacity, hfits.view.2,
    congrArg Prod.fst (hstep "pool" "large" hpool)⟩,
    (borrowed_memory_fits _ 0 (BitVec.intMin 64) true).2 (by decide)⟩

end Session

end Wirepool
