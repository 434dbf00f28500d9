import Wirepool.Proofs.Pool.Accounts
import Wirepool.Proofs.Session.Ownership

/-!
# Pages are conserved

What a pool tells of itself agrees with what is held of it. Between two commands, the
pages of a class that were made are those on its shelf and those that are lent, in
whosever hands they are and wherever they are parked. And a class never has a page more
than were lent at once: a page is made only when all others are out.

The last is about all that has happened, and not only between commands: a message that
cannot be written takes a page and gives it back within one command. So what is stated
is that there is a history of the pool, one row of deals for each command, that passes
all sessions between the commands, and that the counters, the generations and the pages
that were made can be read off it.
-/

namespace Wirepool

/-- Whether memory is a page of a class of the pool with a number. -/
def Loan.isOf (number : Nat) (c : SizeClass) : Loan → Bool
  | unpooled _ => false
  | pooled lease => lease.home = number ∧ lease.page.sizeClass = c

/-- Pages of a class are held by loans of it. -/
theorem countP_deedsAt (number : Nat) (c : SizeClass) (loans : Multiset Loan) :
    (deedsAt number loans).countP (fun deed => deed.page.1 = c) =
      loans.countP fun loan => loan.isOf number c := by
  induction loans using Multiset.induction_on with
  | empty => rfl
  | cons loan loans ih =>
    rw [Multiset.countP_cons, ← ih]
    cases loan with
    | unpooled block =>
      rw [deedsAt_cons_unpooled]
      exact (Nat.add_zero _).symm
    | pooled lease =>
      by_cases hhome : lease.home = number
      · subst hhome
        rw [deedsAt_cons_pooled, Multiset.countP_cons]
        by_cases hc : lease.page.sizeClass = c
        · simp [Loan.isOf, Lease.deed, Page.id, hc]
        · simp [Loan.isOf, Lease.deed, Page.id, hc]
      · rw [deedsAt_cons_of_ne number hhome]
        simp [Loan.isOf, hhome]

namespace Session

variable {s : Session}

/-- **The number of pages of a class that are lent**: those that somebody holds, by
itself or as a chunk of an arena or a buffer, and those that are parked. -/
def lent (s : Session) (number : Nat) (c : SizeClass) : Nat :=
  s.holdings.countP (fun loan => loan.isOf number c) + (s.store.pool number).parkedCount c

theorem lentCount_holdings (s : Session) (number : Nat) (c : SizeClass) :
    (s.store.pool number).lentCount (deedsAt number s.holdings) c = s.lent number c := by
  rw [Pool.lentCount, countP_deedsAt, lent]

/-- **What a pool tells of itself** agrees with what is held of it. -/
structure Conserves (s : Session) (number : Nat) : Prop where
  /-- Pages that were made are on the shelf or lent. -/
  created : ∀ c, ((s.store.pool number).shelf c).created =
    ((s.store.pool number).shelf c).free.length + s.lent number c
  /-- Pages that were borrowed are lent, or they came back. -/
  borrowed : (s.store.pool number).borrowed =
    ∑ c, s.lent number c + (s.store.pool number).released
  outstanding : (s.store.pool number).outstanding = ∑ c, s.lent number c
  /-- Loans that were lost came back. -/
  leaked_le : (s.store.pool number).leaked ≤ (s.store.pool number).released
  /-- Generations count the pages that were borrowed. -/
  generation : (s.store.pool number).generation = (s.store.pool number).borrowed

/-- **A chronicle of the pool with a number**: the deals that each command makes. -/
structure Chronicle (commands : List Command) (number : Nat) (rows : List (List Deal)) :
    Prop where
  length_eq : rows.length = commands.length
  /-- The deals of the first commands lead to the pool that these commands lead to. -/
  turns : ∀ k, ({} : Pool).Turns (rows.take k).flatten
    ((({} : Session).play (commands.take k)).2.store.pool number)

/-- Every pool has a chronicle. -/
theorem exists_chronicle (commands : List Command) (number : Nat) :
    ∃ rows, Chronicle commands number rows := by
  induction commands using List.reverseRecOn with
  | nil =>
    refine ⟨[], rfl, fun k => ?_⟩
    rw [List.take_nil, List.take_nil]
    exact .nil
  | append_singleton commands command ih =>
    obtain ⟨rows, hlength, hturns⟩ := ih
    obtain ⟨row, hrow⟩ := ((sound_play commands).obeys_step command).trail number
    refine ⟨rows ++ [row], by simp [hlength], fun k => ?_⟩
    rcases Nat.lt_or_ge commands.length k with hall | hfirst
    · have hlast := hturns commands.length
      rw [List.take_of_length_le (Nat.le_of_eq hlength), List.take_length] at hlast
      rw [List.take_of_length_le (by simp; omega), List.take_of_length_le (by simp; omega),
        List.flatten_append, play_concat]
      exact hlast.append (by simpa using hrow)
    · rw [List.take_append_of_le_length (Nat.le_trans hfirst (Nat.le_of_eq hlength.symm)),
        List.take_append_of_le_length hfirst]
      exact hturns k

namespace Chronicle

variable {commands : List Command} {number : Nat} {rows : List (List Deal)}

/-- All deals lead to the pool that all commands lead to. -/
theorem turns_all (h : Chronicle commands number rows) : ({} : Pool).Turns rows.flatten
    ((({} : Session).play commands).2.store.pool number) := by
  have hturns := h.turns commands.length
  rwa [List.take_of_length_le (Nat.le_of_eq h.length_eq), List.take_length] at hturns

/-- **Between two commands** as many pages are lent as the deals leave. -/
theorem leaves (h : Chronicle commands number rows) (k : Nat) (c : SizeClass) :
    Pool.Leaves c (rows.take k).flatten
      ((({} : Session).play (commands.take k)).2.lent number c) := by
  have hplaced := ((sound_play (commands.take k)).pool number).placed
  rw [← lentCount_holdings]
  exact (h.turns k).leaves_lentCount hplaced c

/-- A session with a chronicle conserves pages. -/
theorem conserves (h : Chronicle commands number rows) :
    (({} : Session).play commands).2.Conserves number := by
  have hturns := h.turns_all
  obtain ⟨hborrowed, hreleased, hleaked, hgeneration⟩ := hturns.counters
  have hplaced := ((sound_play commands).pool number).placed
  have hlent (c : SizeClass) : Pool.Leaves c rows.flatten
      ((({} : Session).play commands).2.lent number c) := by
    rw [← lentCount_holdings]
    exact hturns.leaves_lentCount hplaced c
  have hsum : (((({} : Session).play commands).2.store.pool number).borrowed) =
      ∑ c, (({} : Session).play commands).2.lent number c +
        ((({} : Session).play commands).2.store.pool number).released := by
    rw [hborrowed, hreleased, ← Deal.sum_countP_lends, ← Deal.sum_countP_regains,
      ← Finset.sum_add_distrib]
    exact Finset.sum_congr rfl fun c _ => (hlent c).symm
  refine ⟨fun c => ?_, hsum, ?_, ?_, hgeneration.trans hborrowed.symm⟩
  · rw [← lentCount_holdings]
    exact hplaced.created_eq c
  · rw [Pool.outstanding, hsum, Nat.add_sub_cancel]
  · rw [hleaked, hreleased]
    exact Deal.countP_isLoss_le _

end Chronicle

/-- **Nothing is parked** on a slot that no ticket is out for. -/
theorem parked_eq_none_of_no_ticket {commands : List Command} {number slot : Nat}
    (h : ∀ generation,
      .page number slot generation ∉ (({} : Session).play commands).2.tickets.values) :
    (((({} : Session).play commands).2.store.pool number).slotAt slot).parked = none := by
  obtain ⟨rows, hrows⟩ := exists_chronicle commands number
  refine hrows.turns_all.attended slot ?_
  rw [((sound_play commands).pool number).tickets_eq, Multiset.count_eq_zero]
  intro hslot
  obtain ⟨stub, hstub, rfl⟩ := Multiset.mem_map.mp hslot
  exact h stub.generation (mem_stubsAt.mp hstub)

/-- **Pages are conserved, and no more are made than were ever lent at once.** In any
session that can be reached by any commands, the figures of every pool agree with what
is held of it. The pool has a chronicle: a row of transactions for each command. Between
two commands as many pages are lent as it leaves, and within a command every page is in
one place as well. Each class has as many pages as were lent at the same time at the
moment when most of them were; and the loans have the generations one, two and so on,
whatever came between. -/
theorem pages_conserved (commands : List Command) (number : Nat) :
    let s := (({} : Session).play commands).2
    s.Conserves number ∧ ∃ rows, Chronicle commands number rows ∧
      (∀ k c, Pool.Leaves c (rows.take k).flatten
        ((({} : Session).play (commands.take k)).2.lent number c)) ∧
      (∀ before, before <+: rows.flatten → ∃ p deeds, ({} : Pool).Turns before p ∧
        p.Placed deeds ∧ ∀ c, Pool.Leaves c before (p.lentCount deeds c)) ∧
      (∀ c, IsGreatest
        { count | ∃ before, before <+: rows.flatten ∧ Pool.Leaves c before count }
        ((s.store.pool number).shelf c).created) ∧
      rows.flatten.filterMap Deal.generation? =
        List.range' 1 (s.store.pool number).borrowed := by
  intro s
  obtain ⟨rows, hrows⟩ := exists_chronicle commands number
  have hturns := hrows.turns_all
  refine ⟨hrows.conserves, rows, hrows, hrows.leaves, fun before hbefore => ?_,
    hturns.isGreatest_created, ?_⟩
  · obtain ⟨p, hp, -⟩ := hturns.exists_before hbefore
    obtain ⟨deeds, hplaced⟩ := hp.exists_placed
    exact ⟨p, deeds, hp, hplaced, hp.leaves_lentCount hplaced⟩
  · rw [hturns.generations, hrows.conserves.generation]

end Session

end Wirepool
