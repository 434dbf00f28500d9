import Wirepool.Proofs.Session.Detached

/-!
# Tickets are honoured once

A loan that is detached may leave any number of tickets behind, all of them the same.
The first one that is handed in brings the page back; every other one is refused, however
often the page was lent again in between, and to whomever.

The slot of the page tells which it is. While a ticket is out and none like it was
honoured, its generation stays on the slot; once one was honoured, the generation is gone
from there, and it never comes back, because every loan gets one that was never given
before. A ticket that is refused goes as if it had been thrown away, and nobody notices.
-/

namespace Wirepool

namespace Session

variable {s : Session} {lease : Lease} {command : Command}

/-- **A ticket was honoured** by one of the commands, carried out in turn. -/
def Honoured (commands : List Command) (ticket : Ticket) : Prop :=
  ∃ before command after, commands = before ++ command :: after ∧
    (({} : Session).play before).2.Redeems command ticket ∧
    ((({} : Session).play before).2.step command).1 = .done

/-- What was honoured stays so. -/
theorem Honoured.concat {commands : List Command} {ticket : Ticket} (h : Honoured commands ticket)
    (last : Command) : Honoured (commands ++ [last]) ticket := by
  obtain ⟨before, command, after, rfl, hredeems, hdone⟩ := h
  exact ⟨before, command, after ++ [last], by simp, hredeems, hdone⟩

/-! ## One ticket -/

/-- **A session accepts the ticket with a name** for a loan: the page of the loan comes
back, nothing is told, and everybody holds what he held. -/
structure Accepts (s : Session) (name : String) (lease : Lease) : Prop where
  answer : (s.step (.ticket (.redeem name))).1 = .done
  store : s.store.TakesBack lease (s.step (.ticket (.redeem name))).2.store
  held : ∀ holder, (s.step (.ticket (.redeem name))).2.held holder = s.held holder

/-- **A session rejects the ticket with a name** for a loan: it aborts, the ticket goes as
if it had been thrown away, and everybody holds what he held. -/
structure Rejects (s : Session) (name : String) (lease : Lease) : Prop where
  answer : (s.step (.ticket (.redeem name))).1 = .aborted .generationMismatch
  /-- That is what people are shown. -/
  message : ∀ abort, (s.step (.ticket (.redeem name))).1 = .aborted abort →
    abort.message = "fpack: generation mismatch"
  discards : (s.step (.ticket (.redeem name))).2 = (s.step (.ticket (.discard name))).2
  /-- Nothing else happens, unless the ticket is the last one of a slot on which a page is
  parked that nobody can return. -/
  store : (∃ generation, .page lease.home lease.slot generation ∈
      (s.tickets.erase name).values) ∨
        ((s.store.pool lease.home).slotAt lease.slot).parked = none →
    s.store.CountsOut lease (s.step (.ticket (.redeem name))).2.store
  held : ∀ holder, (s.step (.ticket (.redeem name))).2.held holder = s.held holder

/-- Handing a ticket in is nothing to those who hold loans. -/
theorem held_step_redeem (s : Session) (name : String) (holder : Holder) :
    (s.step (.ticket (.redeem name))).2.held holder = s.held holder := by
  refine (s.spares_step _).held holder ?_
  cases holder with
  | loan other => exact id
  | chunk arena position =>
    rintro (hnames | ⟨_, _, _, _, heq, -⟩)
    · exact hnames
    · cases heq
  | piece buffer position => exact id

/-- **While the page of a loan is parked**, a ticket for it is accepted. -/
theorem Sound.accepts (h : s.Sound) {name : String}
    (hticket : s.tickets.get? name = some lease.ticket) (hparks : s.Parks lease) :
    s.Accepts name lease := by
  obtain ⟨t, hredeem, hback⟩ :=
    h.store_sound.takesBack_redeem (Table.mem_values_of_get? hticket) hparks
  have hstep := (step_redeem_of_get? hticket).trans (run_of_ok (by exact hredeem) _)
  refine ⟨?_, ?_, s.held_step_redeem name⟩
  · rw [hstep]
  · rw [hstep]
    exact hback

/-- **When the generation of a loan is not on its slot**, a ticket for it is rejected. -/
theorem Sound.rejects (h : s.Sound) {name : String}
    (hticket : s.tickets.get? name = some lease.ticket)
    (hgone : ((s.store.pool lease.home).slotAt lease.slot).generation ≠ lease.generation) :
    s.Rejects name lease := by
  have hstore := h.store_erase_ticket hticket
  have hredeem := hstore.redeem_of_not_honours hgone
  have hstep := (step_redeem_of_get? hticket).trans (run_of_error (by exact hredeem) _)
  refine ⟨by rw [hstep], fun abort habort => ?_, ?_, fun hkeeps => ?_, s.held_step_redeem name⟩
  · rw [hstep] at habort
    cases habort
    rfl
  · obtain ⟨_, t, hdiscard, -⟩ := hstore.discardTicket.exists_ok
    have hthrown : s.step (.ticket (.discard name)) =
        { s with tickets := s.tickets.erase name }.run (Store.discardTicket lease.ticket)
          fun () s => (.done, s) := by
      show s.expect (s.tickets.get? name) _ = _
      rw [hticket]
      rfl
    rw [hstep, hthrown.trans (run_of_ok (by exact hdiscard) _), Store.after, hdiscard]
  · rw [hstep]
    exact hstore.countsOut_discardTicket hkeeps

/-! ## While no ticket was honoured -/

/-- **Every ticket for a page** that is out is for a loan that was detached on the way. -/
theorem exists_detach_of_ticket (commands : List Command) {home slot generation : Nat}
    (hout : .page home slot generation ∈ (({} : Session).play commands).2.tickets.values) :
    ∃ before detach after lease, commands = before ++ detach :: after ∧
      (({} : Session).play before).2.Detaches detach lease ∧
      lease.ticket = .page home slot generation := by
  induction commands using List.reverseRecOn with
  | nil => cases hout
  | append_singleton commands command ih =>
    rw [play_concat] at hout
    rcases (sound_play commands).ticket_origin hout with hin | hidle | ⟨lease, hdetaches, hsame⟩
    · obtain ⟨before, detach, after, lease, rfl, hdetaches, hsame⟩ := ih hin
      exact ⟨before, detach, after ++ [command], lease, by simp, hdetaches, hsame⟩
    · cases hidle
    · exact ⟨commands, command, [], lease, rfl, hdetaches, hsame.symm⟩

/-- The generation of a loan that was detached on the way is taken. -/
theorem binds_of_detached {before : List Command} {detach : Command}
    (hdetaches : (({} : Session).play before).2.Detaches detach lease) (after : List Command) :
    (({} : Session).play (before ++ detach :: after)).2.Binds lease := by
  have hdetached := ((sound_play before).obeys_step detach).sound
  rw [play_append]
  exact hdetached.binds_play
    (hdetached.binds_of_parks ((sound_play before).parks_detach hdetaches)) after

/-- **No two loans leave the same tickets**: a ticket tells when its loan was detached. -/
theorem detached_once {before after before' after' : List Command} {detach detach' : Command}
    {other : Lease} (hcommands : before ++ detach :: after = before' ++ detach' :: after')
    (hdetaches : (({} : Session).play before).2.Detaches detach lease)
    (hdetaches' : (({} : Session).play before').2.Detaches detach' other)
    (hsame : other.ticket = lease.ticket) : before' = before := by
  rcases List.append_eq_append_iff.mp hcommands with ⟨between, rfl, hrest⟩ | ⟨between, rfl, hrest⟩
  · cases between with
    | nil => exact List.append_nil before
    | cons first between =>
      obtain ⟨rfl, -⟩ := List.cons.inj hrest
      exact absurd hdetaches' ((sound_play _).not_detaches_of_binds
        (binds_of_detached hdetaches between) hsame)
  · cases between with
    | nil => exact (List.append_nil before').symm
    | cons first between =>
      obtain ⟨rfl, -⟩ := List.cons.inj hrest
      exact absurd hdetaches ((sound_play _).not_detaches_of_binds
        (binds_of_detached hdetaches' between) hsame.symm)

/-- **While a ticket for a loan is out and none was honoured**, the page of the loan is
parked. -/
theorem parks_of_not_honoured {before : List Command} {detach : Command}
    (hdetaches : (({} : Session).play before).2.Detaches detach lease) (after : List Command)
    (hout : lease.ticket ∈ (({} : Session).play (before ++ detach :: after)).2.tickets.values)
    (hnot : ¬Honoured (before ++ detach :: after) lease.ticket) :
    (({} : Session).play (before ++ detach :: after)).2.Parks lease := by
  induction after using List.reverseRecOn with
  | nil =>
    rw [play_concat]
    exact (sound_play before).parks_detach hdetaches
  | append_singleton after command ih =>
    rw [← List.cons_append, ← List.append_assoc] at hout hnot ⊢
    rw [play_concat] at hout ⊢
    have hsound := sound_play (before ++ detach :: after)
    have hparks (hin) := ih hin fun h => hnot (h.concat command)
    refine hsound.parks_step (binds_of_detached hdetaches after) hparks ?_ hout
    -- a ticket that is handed in now would be honoured
    rintro ⟨name, rfl, hticket⟩
    have haccepts := hsound.accepts hticket (hparks (Table.mem_values_of_get? hticket))
    exact hnot ⟨_, _, [], rfl, ⟨name, rfl, hticket⟩, haccepts.answer⟩

/-! ## Once one was honoured -/

/-- **A generation that was given** and is on a slot after commands was there before
them. -/
theorem Sound.generation_of_play (h : s.Sound) {number slot generation : Nat}
    (hne : generation ≠ 0) (hle : generation ≤ (s.store.pool number).generation)
    {commands : List Command}
    (hafter : (((s.play commands).2.store.pool number).slotAt slot).generation = generation) :
    ((s.store.pool number).slotAt slot).generation = generation := by
  induction commands generalizing s with
  | nil => exact hafter
  | cons command commands ih =>
    have hobeys := h.obeys_step command
    have hnext := ih hobeys.sound (Nat.le_trans hle (hobeys.generation_le number)) hafter
    rcases h.slot_of_generation hne hle hnext with
      hkeeps | ⟨lease, ⟨loan, name, -, hloan⟩, rfl, rfl, rfl⟩
    · exact hkeeps.2.symm.trans hnext
    · exact (h.slot_of_held (mem_holdings_of_get? hloan)).1

/-- **Once a ticket for a loan was honoured**, the generation of the loan is not on its
slot. -/
theorem generation_ne_of_honoured {commands : List Command}
    (h : Honoured commands lease.ticket) :
    (((({} : Session).play commands).2.store.pool lease.home).slotAt lease.slot).generation ≠
      lease.generation := by
  obtain ⟨before, command, after, rfl, ⟨name, rfl, hticket⟩, hdone⟩ := h
  have hsound := sound_play before
  have hobeys := hsound.obeys_step (.ticket (.redeem name))
  have hmem := Table.mem_values_of_get? hticket
  obtain ⟨hne, hle⟩ := (hsound.store_sound.pool lease.home).stub_made
    ⟨lease.slot, lease.generation⟩ (mem_stubsAt.mpr hmem)
  intro hlast
  rw [play_append] at hlast
  -- the generation would be on the slot right after the ticket was handed in
  have hnext := hobeys.sound.generation_of_play hne
    (Nat.le_trans hle (hobeys.generation_le lease.home)) hlast
  by_cases hgood : (((({} : Session).play before).2.store.pool lease.home).slotAt
      lease.slot).generation = lease.generation
  · obtain ⟨front, detach, back, other, rfl, hdetaches, hsame⟩ :=
      exists_detach_of_ticket before hmem
    obtain ⟨hhome, hslot, hequal⟩ := Ticket.page.inj hsame
    rw [← hhome, ← hslot, ← hequal] at hgood
    rw [← hhome, ← hslot] at hnext
    have hparks := (binds_of_detached hdetaches back).parks hgood
    have haccepts := hsound.accepts (hticket.trans (congrArg some hsame.symm)) hparks
    have hzero := congrArg Slot.generation haccepts.store.pool.slotAt_self
    exact hne (hnext.symm.trans hzero)
  · rw [(hsound.rejects hticket hgood).answer] at hdone
    cases hdone

/-- **Tickets are honoured once.** In any session that can be reached, with any commands
on any number of pools, a ticket for a page is for one loan that was detached on the way.
Handing it in works just if no ticket for that loan was honoured before, and then the page
that was detached is back. Otherwise it is refused, whoever holds or has parked the page by
then, and goes as if it had been thrown away. -/
theorem tickets_honoured_once (commands : List Command) (name : String)
    (home slot generation : Nat)
    (hticket : (({} : Session).play commands).2.tickets.get? name =
      some (.page home slot generation)) :
    let s := (({} : Session).play commands).2
    ∃ before detach after lease, commands = before ++ detach :: after ∧
      (({} : Session).play before).2.Detaches detach lease ∧
      lease.ticket = .page home slot generation ∧
      (∀ before' detach' after' other, commands = before' ++ detach' :: after' →
        (({} : Session).play before').2.Detaches detach' other → other.ticket = lease.ticket →
          before' = before) ∧
      ((s.step (.ticket (.redeem name))).1 = .done ↔ ¬Honoured commands lease.ticket) ∧
      (¬Honoured commands lease.ticket → s.Accepts name lease) ∧
      (Honoured commands lease.ticket → s.Rejects name lease) := by
  intro s
  have hsound : s.Sound := sound_play commands
  have hmem : .page home slot generation ∈ s.tickets.values := Table.mem_values_of_get? hticket
  obtain ⟨before, detach, after, lease, hcommands, hdetaches, hsame⟩ :=
    exists_detach_of_ticket commands hmem
  subst hcommands
  rw [← hsame] at hticket hmem
  have haccepts (hnot : ¬Honoured (before ++ detach :: after) lease.ticket) :
      s.Accepts name lease :=
    hsound.accepts hticket (parks_of_not_honoured hdetaches after hmem hnot)
  have hrejects (h : Honoured (before ++ detach :: after) lease.ticket) : s.Rejects name lease :=
    hsound.rejects hticket (generation_ne_of_honoured h)
  refine ⟨before, detach, after, lease, rfl, hdetaches, hsame, ?_, ?_, haccepts, hrejects⟩
  · intro before' detach' after' other hcommands hdetaches' hother
    exact detached_once hcommands hdetaches hdetaches' hother
  · refine ⟨fun hdone hhonoured => ?_, fun hnot => (haccepts hnot).answer⟩
    rw [(hrejects hhonoured).answer] at hdone
    cases hdone

/-- A copy of a ticket that was honoured is refused, while the page is lent again. -/
theorem tickets_honoured_once_lent :
    let s := (({} : Session).play [.pool (.make "pool"), .pool (.borrow "pool" 100 false "loan"),
      .loan (.detach "loan" "ticket"), .ticket (.clone "ticket" "copy"),
      .ticket (.redeem "ticket"), .pool (.borrow "pool" 200 false "other")]).2
    ∃ lease, lease.ticket = .page 0 0 1 ∧ s.Rejects "copy" lease := by
  intro s
  obtain ⟨-, -, -, lease, -, -, hsame, -, hdone, -, hrejects⟩ := tickets_honoured_once
    [.pool (.make "pool"), .pool (.borrow "pool" 100 false "loan"),
      .loan (.detach "loan" "ticket"), .ticket (.clone "ticket" "copy"),
      .ticket (.redeem "ticket"), .pool (.borrow "pool" 200 false "other")]
    "copy" 0 0 1 (by decide)
  have hanswer : (s.step (.ticket (.redeem "copy"))).1 = .aborted .generationMismatch := by rfl
  refine ⟨lease, hsame, hrejects (by_contra fun hnot => ?_)⟩
  cases hanswer.symm.trans (hdone.mpr hnot)

end Session

end Wirepool
