import Wirepool.Proofs.Session.Conservation
import Wirepool.Proofs.Session.Redeemed
import Wirepool.Proofs.Session.Tenants

/-!
# The diary of a pool

There is a diary of each pool: the rows of moves of all commands, from the pool that was made
to the pool there is. What a page holds when it is lent can be read off it, and so can every
change of a byte of any page, in whosever hands it is or in nobody's.

A diary may contain no other moves than the commands may make, but that would also be true
if a page were left where it is when it ought to come back. So it is said of a diary as well
how pages come back by it: with the loan that is given back or lost, with the ticket that is
accepted, with the last ticket that is gone, and however else they are let go of. In each case
it can be told from the depots before and after the command what the row must have been.
-/

namespace Wirepool

namespace Session

variable {s : Session} {number : Nat}

/-! ## Diaries -/

/-- There is nothing in the depots of a session that has just begun. -/
theorem depot_empty (number : Nat) : ({} : Session).depot number = {} := by
  refine Depot.ext (funext fun c => ?_) (funext fun c => ?_) rfl rfl
  · show (({} : Pool).shelf c).free.map Shelved.page = []
    rw [Pool.shelf_empty]
    rfl
  · show (({} : Pool).shelf c).created = 0
    rw [Pool.shelf_empty]

/-- **The session before the command with a number**, or after all of them. -/
def stage (commands : List Command) (k : Nat) : Session :=
  (({} : Session).play (commands.take k)).2

/-- **A diary of the pool with a number**: the moves of each command, which are moves that
the command may make. -/
structure Diary (commands : List Command) (number : Nat) (rows : List (List Move)) : Prop where
  length_eq : rows.length = commands.length
  /-- The moves of a command lead from the depot before it to the depot behind it. -/
  goes : ∀ k row, rows[k]? = some row →
    ((stage commands k).depot number).Goes row ((stage commands (k + 1)).depot number)
  within : ∀ k command (row : List Move), commands[k]? = some command → rows[k]? = some row →
    ∀ move ∈ row, move.Within ((stage commands k).permit number command)

section Stages

variable {commands : List Command}

theorem stage_succ {k : Nat} {command : Command} (h : commands[k]? = some command) :
    stage commands (k + 1) = ((stage commands k).step command).2 := by
  rw [stage, List.take_add_one, h]
  exact play_concat _ _ _

/-- What comes later is nothing to the sessions before it. -/
theorem stage_append {k : Nat} (later : List Command) (hk : k ≤ commands.length) :
    stage (commands ++ later) k = stage commands k := by
  rw [stage, List.take_append_of_le_length hk, stage]

end Stages

/-- **Every pool has a diary.** -/
theorem exists_diary (commands : List Command) (number : Nat) :
    ∃ rows, Diary commands number rows := by
  induction commands using List.reverseRecOn with
  | nil => exact ⟨[], rfl, nofun, nofun⟩
  | append_singleton commands command ih =>
    obtain ⟨rows, hlength, hgoes, hwithin⟩ := ih
    obtain ⟨row, hrow, hallowed⟩ :=
      (sound_play (commands.take commands.length)).becomes_step number command
    have hlast : (commands ++ [command])[commands.length]? = some command := by simp
    -- a row is one of those before, or it is the last one
    have hcases {k : Nat} {other : List Move} (hother : (rows ++ [row])[k]? = some other) :
        k < commands.length ∧ rows[k]? = some other ∨ k = commands.length ∧ other = row := by
      rcases Nat.lt_or_ge k rows.length with hk | hk
      · rw [List.getElem?_append_left hk] at hother
        exact .inl ⟨hlength ▸ hk, hother⟩
      · rw [List.getElem?_append_right hk, List.getElem?_singleton] at hother
        split at hother
        · cases hother
          exact .inr ⟨by omega, rfl⟩
        · cases hother
    refine ⟨rows ++ [row], by simp [hlength], fun k other hother => ?_,
      fun k own other hown hother => ?_⟩
    · rcases hcases hother with ⟨hk, hother⟩ | ⟨rfl, rfl⟩
      · rw [stage_append _ (Nat.le_of_lt hk), stage_append _ hk]
        exact hgoes k other hother
      · rw [stage_succ hlast, stage_append _ (Nat.le_refl _)]
        exact hrow
    · rcases hcases hother with ⟨hk, hother⟩ | ⟨rfl, rfl⟩
      · rw [List.getElem?_append_left hk] at hown
        rw [stage_append _ (Nat.le_of_lt hk)]
        exact hwithin k own other hown hother
      · cases hlast.symm.trans hown
        rw [stage_append _ (Nat.le_refl _)]
        exact hallowed

namespace Diary

variable {commands : List Command} {rows : List (List Move)}

/-- **The moves of the commands between** two of them. -/
theorem goes_between (h : Diary commands number rows) {j k : Nat} (hjk : j ≤ k) :
    ((stage commands j).depot number).Goes ((rows.take k).drop j).flatten
      ((stage commands k).depot number) := by
  induction k, hjk using Nat.le_induction with
  | base =>
    rw [List.drop_eq_nil_of_le (List.length_take_le j rows)]
    exact .nil
  | succ k hjk ih =>
    cases hrow : rows[k]? with
    | none =>
      -- behind the last command there is no other stage
      have hk : rows.length ≤ k := List.getElem?_eq_none_iff.mp hrow
      have hsame : stage commands (k + 1) = stage commands k := by
        rw [stage, stage, List.take_of_length_le (Nat.le_succ_of_le (h.length_eq ▸ hk)),
          List.take_of_length_le (h.length_eq ▸ hk)]
      rw [hsame, List.take_of_length_le (Nat.le_succ_of_le hk)]
      rw [List.take_of_length_le hk] at ih
      exact ih
    | some row =>
      have hk : k < rows.length := (List.getElem?_eq_some_iff.mp hrow).1
      have hj : j ≤ (rows.take k).length := by rw [List.length_take]; omega
      rw [List.take_add_one, hrow, List.drop_append_of_le_length hj, List.flatten_append]
      refine ih.append ?_
      rw [Option.toList_some, List.flatten_singleton]
      exact h.goes k row hrow

/-- **The moves of the first commands** lead to the depot behind them. -/
theorem goes_take (h : Diary commands number rows) (k : Nat) :
    ({} : Depot).Goes (rows.take k).flatten ((stage commands k).depot number) := by
  rw [← depot_empty number]
  exact h.goes_between (Nat.zero_le k)

/-- All moves lead to the depot behind all commands. -/
theorem goes_all (h : Diary commands number rows) :
    ({} : Depot).Goes rows.flatten ((stage commands rows.length).depot number) := by
  have hgoes := h.goes_take rows.length
  rwa [List.take_length] at hgoes

/-- **A page that a command changes** is lent with zeros by it, or it is a page that the
command may write to, and somebody holds it already or it is lent by the command. -/
theorem has_or_changes (h : Diary commands number rows) {k : Nat} {command : Command}
    {row : List Move} {page : Page} (hcommand : commands[k]? = some command)
    (hrow : rows[k]? = some row) (hpage : ((stage commands k).depot number).Has page) :
    ((stage commands (k + 1)).depot number).Has page ∨
      (∃ lease, .lend lease true ∈ row ∧ lease.page.id = page.id) ∨
      ((stage commands k).permit number command).writes page.id ∧
        ((∃ holder lease, (stage commands k).held holder = some (.pooled lease) ∧
            lease.home = number ∧ lease.page.id = page.id) ∨
          ∃ lease zero, .lend lease zero ∈ row ∧ lease.page.id = page.id) := by
  by_cases hkeeps : ∀ move ∈ row, ¬move.Changes page.id
  · exact .inl ((h.goes k row hrow).has hpage hkeeps)
  · push Not at hkeeps
    obtain ⟨move, hmove, hchanges⟩ := hkeeps
    cases move with
    | lend lease zero =>
      obtain ⟨rfl, hid⟩ := hchanges
      exact .inr (.inl ⟨lease, hmove, hid⟩)
    | write before after =>
      have hid : before.page.id = page.id := hchanges
      rw [← hid]
      refine .inr (.inr ⟨h.within k command row hcommand hrow _ hmove, ?_⟩)
      rcases (h.goes k row hrow).held_of_write hmove with ⟨lease, hlease, hsame⟩ | hlent
      · obtain ⟨hheld, hhome⟩ := mem_leasesAt.mp hlease
        obtain ⟨holder, hholder⟩ := mem_holdings.mp hheld
        exact .inl ⟨holder, lease, hholder, hhome, hsame⟩
      · exact .inr hlent
    | detach lease => cases hchanges
    | regain lease => cases hchanges
    | collect lease => cases hchanges

end Diary

/-! ## What one command brings back -/

/-- **A loan that is asked for** is of the page on top, and stands under its name. -/
theorem Sound.exists_borrowed (h : s.Sound) {pool name : String} {len : Nat} {zero : Bool}
    {c : SizeClass} (hpool : s.pools.get? pool = some number)
    (hclass : SizeClass.ofLength? len = some c) :
    ∃ lease, (s.step (.pool (.borrow pool len zero name))).2.loans.get? name =
        some (.pooled lease) ∧ lease.home = number ∧ lease.len = len ∧
      lease.page = if zero then ((s.depot number).top c).clear len
        else (s.depot number).top c := by
  have hplaced := (h.pool number).placed
  obtain ⟨q, lease, events, hborrow, hhome, hlen, -⟩ :=
    hplaced.makes_borrow hclass number zero (s.store.tracking || s.store.tracing)
  refine ⟨lease, ?_, hhome, hlen, Pool.page_of_borrow hplaced hclass hborrow _⟩
  rw [step_borrow_of_ok hpool (Store.borrow_of_ok hborrow)]
  exact Table.get?_put_self _ _ _

/-- The depot of a session whose store was changed at one pool. -/
theorem depot_of_commit {t : Session} {q : Pool} {events : List Event}
    (hnumber : number < s.store.pools.length) (hstore : t.store = s.store.commit number q events) :
    t.depot number = q.depot number (leasesAt number t.holdings) := by
  rw [depot, Store.depot, hstore, Store.pool_commit_self q events hnumber]

section Loans

variable {name : String} {lease : Lease} (h : s.Sound)
  (hloan : s.loans.get? name = some (.pooled lease))

include h hloan

/-- What a pool does with the loan that is taken out is done in the depot. -/
theorem Sound.makes_of_pool {move : Move} {q : Pool} {events : List Event} {t : Session}
    (ht : t = { s with
      loans := s.loans.erase name
      store := s.store.commit lease.home q events })
    (hmakes : ((s.store.pool lease.home).depot lease.home
      (lease ::ₘ leasesAt lease.home t.holdings)).Makes move
        (q.depot lease.home (leasesAt lease.home t.holdings))) :
    (s.depot lease.home).Makes move (t.depot lease.home) := by
  have hhome := h.store_sound.home_lt (mem_holdings_of_get? hloan)
  have hheld : s.holdings = .pooled lease ::ₘ t.holdings := by
    rw [ht]
    exact holdings_erase_loan hloan
  have hafter : t.depot lease.home = q.depot lease.home (leasesAt lease.home t.holdings) :=
    depot_of_commit hhome (congrArg store ht)
  rw [hafter, depot, Store.depot, hheld, leasesAt_cons_pooled]
  exact hmakes

/-- The page of the loan is placed in its pool. -/
theorem Sound.placed_of_get? :
    ∃ deeds, (s.store.pool lease.home).Placed (lease.deed ::ₘ deeds) := by
  exact ⟨_, (h.store_erase_loan hloan).placed_of_pooled⟩

/-- **A loan that is given back** leaves its page on top. -/
theorem Sound.makes_release : (s.depot lease.home).Makes (.regain lease)
    ((s.step (.loan (.release name))).2.depot lease.home) := by
  obtain ⟨deeds, hplaced⟩ := h.placed_of_get? hloan
  obtain ⟨q, hreclaim, hmakes⟩ := hplaced.makes_reclaim lease.home
    (leasesAt lease.home { s with loans := s.loans.erase name }.holdings)
  have hrelease : Store.release (.pooled lease) s.store =
      .ok () (s.store.commit lease.home q []) := by
    show Store.onPool lease.home (fun p => p.reclaim lease) s.store = _
    exact Store.onPool_of_ok hreclaim
  have hstep : s.step (.loan (.release name)) =
      (.done, { s with
        loans := s.loans.erase name
        store := s.store.commit lease.home q [] }) := by
    show s.expect (s.loans.get? name) _ = _
    rw [hloan]
    exact run_of_ok (s := { s with loans := s.loans.erase name }) hrelease _
  exact h.makes_of_pool hloan (congrArg Prod.snd hstep) (by rw [hstep]; exact hmakes)

/-- **So does a loan that is lost.** -/
theorem Sound.makes_drop : (s.depot lease.home).Makes (.regain lease)
    ((s.step (.loan (.drop name))).2.depot lease.home) := by
  obtain ⟨deeds, hplaced⟩ := h.placed_of_get? hloan
  obtain ⟨q, events, hlose, hmakes⟩ := hplaced.makes_lose lease.home
    (leasesAt lease.home { s with loans := s.loans.erase name }.holdings)
  have hlost : Store.lose (.pooled lease) s.store =
      .ok () (s.store.commit lease.home q events) := by
    show Store.onPool lease.home (fun p => p.lose lease) s.store = _
    exact Store.onPool_of_ok hlose
  have hstep : s.step (.loan (.drop name)) =
      (.done, { s with
        loans := s.loans.erase name
        store := s.store.commit lease.home q events }) := by
    show s.expect (s.loans.get? name) _ = _
    rw [hloan]
    exact run_of_ok (s := { s with loans := s.loans.erase name }) hlost _
  exact h.makes_of_pool hloan (congrArg Prod.snd hstep) (by rw [hstep]; exact hmakes)

end Loans

section Tickets

variable {name : String} {slot generation : Nat} (h : s.Sound)
  (hticket : s.tickets.get? name = some (.page number slot generation))

include h hticket

/-- **A ticket that is accepted** brings back what is parked for it. -/
theorem Sound.makes_redeem (hdone : (s.step (.ticket (.redeem name))).1 = .done) :
    ∃ lease, (s.depot number).parked slot = some lease ∧ lease.slot = slot ∧
      lease.generation = generation ∧
      (s.depot number).Makes (.collect lease)
        ((s.step (.ticket (.redeem name))).2.depot number) := by
  have hmem := Table.mem_values_of_get? hticket
  have hnumber := h.store_sound.stub_home_lt hmem
  have hstep := step_redeem_of_get? hticket
  by_cases hgood : ((s.store.pool number).slotAt slot).generation = generation
  · have hstub : ⟨slot, generation⟩ ∈ stubsAt number s.tickets.values := mem_stubsAt.mpr hmem
    obtain ⟨parked, q, hparked, hredeem, hback⟩ :=
      (h.store_sound.pool number).redeem_of_eq hstub hgood
    have hhanded : Store.redeem (.page number slot generation) s.store =
        .ok () (s.store.commit number q []) := by
      show Store.onPool number (fun p => p.redeem slot generation) s.store = _
      exact Store.onPool_of_ok hredeem
    rw [run_of_ok (s := { s with tickets := s.tickets.erase name }) hhanded] at hstep
    refine ⟨_, congrArg (Option.map _) hparked, rfl, hgood, ?_⟩
    have hafter : (s.step (.ticket (.redeem name))).2.depot number =
        q.depot number (leasesAt number s.holdings) := by
      rw [hstep]
      exact depot_of_commit hnumber rfl
    rw [hafter]
    exact Pool.makes_collect hparked hback.shelf (congrArg Slot.parked hback.slotAt_self)
      hback.slotAt_of_ne number _
  · -- a ticket that is not good for anything is not accepted
    have hpool := (h.store_erase_ticket hticket).pool number
    rw [stubsAt_cons_page] at hpool
    obtain ⟨q, events, hredeem, -⟩ := hpool.redeem
    rw [if_neg hgood] at hredeem
    have hrefused : Store.redeem (.page number slot generation) s.store =
        .error .generationMismatch (s.store.commit number q events) := by
      show Store.onPool number (fun p => p.redeem slot generation) s.store = _
      exact Store.onPool_of_error hredeem
    rw [hstep, run_of_error (s := { s with tickets := s.tickets.erase name }) hrefused] at hdone
    cases hdone

/-- **The last ticket for a slot** that is thrown away brings back what is parked there. -/
theorem Sound.makes_discard
    (hlast : ∀ generation, .page number slot generation ∉ (s.tickets.erase name).values)
    {lease : Lease} (hparked : (s.depot number).parked slot = some lease) :
    (s.depot number).Makes (.collect lease)
      ((s.step (.ticket (.discard name))).2.depot number) := by
  have hnumber := h.store_sound.stub_home_lt (Table.mem_values_of_get? hticket)
  have hpool := (h.store_erase_ticket hticket).pool number
  rw [stubsAt_cons_page] at hpool
  obtain ⟨q, events, hdiscard, -, hempties⟩ :=
    hpool.empties_discardTicket number (leasesAt number s.holdings)
  have hthrown : Store.discardTicket (.page number slot generation) s.store =
      .ok () (s.store.commit number q events) := by
    show Store.onPool number (fun p => p.discardTicket slot) s.store = _
    exact Store.onPool_of_ok hdiscard
  have hstep : s.step (.ticket (.discard name)) =
      (.done, { s with
        tickets := s.tickets.erase name
        store := s.store.commit number q events }) := by
    show s.expect (s.tickets.get? name) _ = _
    rw [hticket]
    exact run_of_ok (s := { s with tickets := s.tickets.erase name }) hthrown _
  have hafter : (s.step (.ticket (.discard name))).2.depot number =
      q.depot number (leasesAt number s.holdings) := by
    rw [hstep]
    exact depot_of_commit hnumber rfl
  rw [hafter]
  refine (hempties fun hslot => ?_).makes hparked
  obtain ⟨stub, hstub, hsame⟩ := Multiset.mem_map.mp hslot
  refine hlast stub.generation ?_
  rw [show slot = stub.slot from hsame.symm]
  exact mem_stubsAt.mp hstub

end Tickets

/-! ## How pages come back -/

/-- **Pages come back when they are let go of**, by rows of moves, one for each command. -/
structure BringsBack (commands : List Command) (number : Nat) (rows : List (List Move)) :
    Prop where
  /-- A loan that is given back or lost leaves its page on top as it was held. -/
  loan : ∀ k name lease, commands[k]? = some (.loan (.release name)) ∨
      commands[k]? = some (.loan (.drop name)) →
    (stage commands k).loans.get? name = some (.pooled lease) → lease.home = number →
    rows[k]? = some [.regain lease]
  /-- A ticket that is accepted brings back what is parked for it. -/
  redeem : ∀ k name slot generation, commands[k]? = some (.ticket (.redeem name)) →
    (stage commands k).tickets.get? name = some (.page number slot generation) →
    ((stage commands k).step (.ticket (.redeem name))).1 = .done →
    ∃ lease, ((stage commands k).depot number).parked slot = some lease ∧ lease.slot = slot ∧
      lease.generation = generation ∧ rows[k]? = some [.collect lease]
  /-- The last ticket for a slot that is thrown away brings back what is parked there. -/
  discard : ∀ k name slot generation lease, commands[k]? = some (.ticket (.discard name)) →
    (stage commands k).tickets.get? name = some (.page number slot generation) →
    (∀ other, .page number slot other ∉ ((stage commands k).tickets.erase name).values) →
    ((stage commands k).depot number).parked slot = some lease →
    rows[k]? = some [.collect lease]
  /-- So does every other command behind which no ticket for the slot is left. -/
  last : ∀ k row slot lease, rows[k]? = some row →
    ((stage commands k).depot number).parked slot = some lease →
    (∀ generation,
      .page number slot generation ∉ (stage commands (k + 1)).tickets.values) →
    .collect lease ∈ row
  /-- All in all, a page that is neither held nor parked any more has come back. -/
  all : ∀ k row page, rows[k]? = some row → ((stage commands k).depot number).Out page →
    ¬((stage commands (k + 1)).depot number).Out page →
    ∃ move ∈ row, ∃ back, move.returned? = some back ∧ back.id = page

namespace Diary

variable {commands : List Command} {rows : List (List Move)} {k : Nat} {command : Command}
  {lease : Lease}

/-- There is a row for each command. -/
theorem exists_row (h : Diary commands number rows) (hcommand : commands[k]? = some command) :
    ∃ row, rows[k]? = some row := by
  have hk := (List.getElem?_eq_some_iff.mp hcommand).1
  rw [← h.length_eq] at hk
  exact ⟨rows[k], List.getElem?_eq_getElem hk⟩

/-- **What a command must have done** that may only give back. -/
theorem eq_regain (h : Diary commands number rows) (hcommand : commands[k]? = some command)
    (hpermit : (stage commands k).permit number command = { regains := true })
    (hmakes : ((stage commands k).depot number).Makes (.regain lease)
      (((stage commands k).step command).2.depot number)) : rows[k]? = some [.regain lease] := by
  obtain ⟨row, hrow⟩ := h.exists_row hcommand
  have hgoes := h.goes k row hrow
  rw [stage_succ hcommand] at hgoes
  rw [hrow, hgoes.eq_regain (fun move hmove => ?_) hmakes]
  exact Move.exists_regain (hpermit ▸ h.within k command row hcommand hrow move hmove)

/-- What a command must have done that may only collect. -/
theorem eq_collect (h : Diary commands number rows) (hcommand : commands[k]? = some command)
    (hpermit : (stage commands k).permit number command = { collects := true })
    (hmakes : ((stage commands k).depot number).Makes (.collect lease)
      (((stage commands k).step command).2.depot number)) : rows[k]? = some [.collect lease] := by
  obtain ⟨row, hrow⟩ := h.exists_row hcommand
  have hgoes := h.goes k row hrow
  rw [stage_succ hcommand] at hgoes
  rw [hrow, hgoes.eq_collect (fun move hmove => ?_) hmakes]
  exact Move.exists_collect (hpermit ▸ h.within k command row hcommand hrow move hmove)

/-- **Pages come back** by every diary. -/
theorem bringsBack (h : Diary commands number rows) : BringsBack commands number rows where
  loan k name lease hcommand hloan hhome := by
    subst hhome
    have hsound := sound_play (commands.take k)
    rcases hcommand with hcommand | hcommand
    · exact h.eq_regain hcommand rfl (hsound.makes_release hloan)
    · exact h.eq_regain hcommand rfl (hsound.makes_drop hloan)
  redeem k name slot generation hcommand hticket hdone := by
    obtain ⟨lease, hparked, hslot, hgeneration, hmakes⟩ :=
      (sound_play (commands.take k)).makes_redeem hticket hdone
    exact ⟨lease, hparked, hslot, hgeneration, h.eq_collect hcommand rfl hmakes⟩
  discard k name slot generation lease hcommand hticket hlast hparked :=
    h.eq_collect hcommand rfl
      ((sound_play (commands.take k)).makes_discard hticket hlast hparked)
  last k row slot lease hrow hparked hlast := by
    refine ((h.goes k row hrow).parked_or_collected hparked).resolve_left fun hstays => ?_
    have hnone : ((stage commands (k + 1)).depot number).parked slot = none :=
      Pool.lease?_of_none (parked_eq_none_of_no_ticket hlast)
    cases hnone.symm.trans hstays
  all k row page hrow hout hgone :=
    ((h.goes k row hrow).out_or_returned hout).resolve_left hgone

end Diary

/-- **A page passes from tenant to tenant with all its bytes.** In every run each pool has a
diary, and this holds of every diary of it. Whoever is lent a page is lent the page of its
class that came back last and was not lent again, in whatever way it came back, or a page of
zeros that was never lent if there is none; and is shown what the last tenant left, or zeros
as far as can be seen if they are asked for, while all that cannot be seen is as it was left.
So it is with what is borrowed under a name, at the command that borrows it. A page comes back
at the command that gives its loan back, loses it, or hands in a ticket that is accepted for
it, or behind which no ticket for its slot is left. A page keeps its bytes, wherever it is,
until a move changes it; and a command changes it only if it lends it with zeros, or if it may
write to it for whoever holds it or is lent it. -/
theorem pages_pass_from_tenant_to_tenant (commands : List Command) (number : Nat) :
    (∃ rows, Diary commands number rows) ∧ ∀ rows, Diary commands number rows →
      (∀ before lease zero later, rows.flatten = before ++ .lend lease zero :: later →
        ∃ c page, SizeClass.ofLength? lease.len = some c ∧ Move.Next c before page ∧
          lease.Shows page zero) ∧
      (∀ k pool len zero name c,
        commands[k]? = some (.pool (.borrow pool len zero name)) →
        (stage commands k).pools.get? pool = some number →
        SizeClass.ofLength? len = some c →
        ∃ lease page, (stage commands (k + 1)).loans.get? name = some (.pooled lease) ∧
          lease.home = number ∧ lease.len = len ∧
          Move.Next c (rows.take k).flatten page ∧ lease.Shows page zero) ∧
      BringsBack commands number rows ∧
      (∀ j k page, j ≤ k → ((stage commands j).depot number).Has page →
        (∀ move ∈ ((rows.take k).drop j).flatten, ¬move.Changes page.id) →
        ((stage commands k).depot number).Has page) ∧
      (∀ k command row page, commands[k]? = some command → rows[k]? = some row →
        ((stage commands k).depot number).Has page →
        ((stage commands (k + 1)).depot number).Has page ∨
          (∃ lease, .lend lease true ∈ row ∧ lease.page.id = page.id) ∨
          ((stage commands k).permit number command).writes page.id ∧
            ((∃ holder lease, (stage commands k).held holder = some (.pooled lease) ∧
                lease.home = number ∧ lease.page.id = page.id) ∨
              ∃ lease zero, .lend lease zero ∈ row ∧ lease.page.id = page.id)) := by
  refine ⟨exists_diary commands number, fun rows h => ⟨fun before lease zero later hrows => ?_,
    fun k pool len zero name c hcommand hpool hclass => ?_, h.bringsBack,
    fun j k page hjk hpage hkeeps => ?_,
    fun k command row page hcommand hrow hpage => h.has_or_changes hcommand hrow hpage⟩⟩
  · have hgoes := h.goes_all
    rw [hrows] at hgoes
    exact hgoes.exists_shows
  · obtain ⟨lease, hloan, hhome, rfl, hlease⟩ :=
      (sound_play (commands.take k)).exists_borrowed hpool hclass
    obtain ⟨hnext, hshows⟩ := (h.goes_take k).shows hclass hlease
    rw [stage_succ hcommand]
    exact ⟨lease, _, hloan, hhome, rfl, hnext, hshows⟩
  · exact (h.goes_between hjk).has hpage hkeeps

end Session

end Wirepool
