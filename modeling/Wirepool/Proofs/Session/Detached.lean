import Wirepool.Proofs.Session.Sound

/-!
# Loans that are detached and lost

A loan that is detached lives on in its tickets: as long as one of them is out,
its page is parked and can be given back. When the last one is thrown away the
loan is lost. Whether anybody notices is another matter. A slot does not count
the tickets of one loan but all tickets that were ever made for it and are still
out, and it is only when none is left that it is looked at. A ticket that is
spent, of an earlier loan of the same page, keeps it from being looked at.

So the loss of a loan is noticed at once if and only if its last ticket is the
last one of its slot. Otherwise nothing happens at all, and the page stays parked
where nobody can give it back.
-/

namespace Wirepool

namespace Session

variable {s : Session} {lease : Lease} {command : Command}

/-! ## While nobody hands the ticket in -/

/-- **Nobody hands a ticket in** while commands are carried out. -/
def Unredeemed (s : Session) (ticket : Ticket) : List Command → Prop
  | [] => True
  | command :: commands =>
    ¬s.Redeems command ticket ∧ (s.step command).2.Unredeemed ticket commands

/-- Other commands hand no ticket in. -/
theorem not_redeems {ticket : Ticket} (h : ∀ name, command ≠ .ticket (.redeem name)) :
    ¬s.Redeems command ticket := by
  rintro ⟨name, heq, -⟩
  exact h name heq

/-- The last command is one of those that do not hand the ticket in. -/
theorem unredeemed_concat {ticket : Ticket} {commands : List Command} :
    s.Unredeemed ticket (commands ++ [command]) ↔
      s.Unredeemed ticket commands ∧ ¬(s.play commands).2.Redeems command ticket := by
  induction commands generalizing s with
  | nil => exact and_comm
  | cons first commands ih =>
    show _ ∧ (s.step first).2.Unredeemed ticket (commands ++ [command]) ↔ (_ ∧ _) ∧ _
    rw [ih, and_assoc]
    rfl

/-- **The generation of a loan is taken**: the pool has given it, and it is on the
slot of the loan only while the page of the loan is parked there. -/
structure Binds (s : Session) (lease : Lease) : Prop where
  generation_ne : lease.generation ≠ 0
  generation_le : lease.generation ≤ (s.store.pool lease.home).generation
  parks : ((s.store.pool lease.home).slotAt lease.slot).generation = lease.generation →
    s.Parks lease

/-- The generation of a page that is parked is taken. -/
theorem Sound.binds_of_parks (h : s.Sound) (hparks : s.Parks lease) : s.Binds lease := by
  have hpool := h.store_sound.pool lease.home
  obtain ⟨-, hne⟩ := hpool.placed.of_parked hparks.1
  have hle := hpool.generation_le lease.slot
  rw [hparks.2] at hne hle
  exact ⟨hne, hle, fun _ => hparks⟩

/-- **A generation that was given and is on a slot** after a command was there before:
the slot is kept as it was, or the loan of this generation is being detached. -/
theorem Sound.slot_of_generation (h : s.Sound) {number slot generation : Nat}
    (hne : generation ≠ 0) (hle : generation ≤ (s.store.pool number).generation)
    (hafter : (((s.step command).2.store.pool number).slotAt slot).generation = generation) :
    (s.store.pool number).KeepsSlot ((s.step command).2.store.pool number) slot ∨
      ∃ lease, s.Detaches command lease ∧ lease.home = number ∧ lease.slot = slot ∧
        lease.generation = generation := by
  rcases (h.obeys_step command).slot number slot with hkeeps | hrenews | hdetached
  · exact .inl hkeeps
  · -- no slot is renewed with a generation that was given before
    rcases hrenews.2 with hzero | hlater
    · exact absurd (hafter.symm.trans hzero) hne
    · rw [hafter] at hlater
      exact absurd hle (Nat.not_le_of_lt hlater)
  · obtain ⟨lease, hdetaches, rfl, rfl, hparks⟩ := hdetached
    exact .inr ⟨lease, hdetaches, rfl, rfl, hparks.2.symm.trans hafter⟩

/-- A loan that can be detached is not the one whose generation is taken. -/
theorem Sound.not_detaches_of_binds (h : s.Sound) (hbinds : s.Binds lease) {other : Lease}
    (hsame : other.ticket = lease.ticket) : ¬s.Detaches command other := by
  rintro ⟨loan, name, -, hloan⟩
  obtain ⟨hgeneration, -, hempty⟩ := h.slot_of_held (mem_holdings_of_get? hloan)
  obtain ⟨hhome, hslot, hequal⟩ := Ticket.page.inj hsame
  rw [hhome, hslot] at hgeneration hempty
  -- the page would be parked and in somebody's hands at once
  have hparked := (hbinds.parks (hgeneration.trans hequal)).1
  rw [hempty] at hparked
  cases hparked

/-- **A generation that is taken** is so after every command: it is never given
again. -/
theorem Sound.binds_step (h : s.Sound) (hbinds : s.Binds lease) (command : Command) :
    (s.step command).2.Binds lease := by
  have hle := (h.obeys_step command).generation_le lease.home
  refine ⟨hbinds.generation_ne, Nat.le_trans hbinds.generation_le hle, fun hgeneration => ?_⟩
  rcases h.slot_of_generation hbinds.generation_ne hbinds.generation_le hgeneration with
    hkeeps | ⟨other, hdetaches, hhome, hslot, hequal⟩
  · exact (hbinds.parks (hkeeps.2.symm.trans hgeneration)).of_keepsSlot hkeeps
  · refine absurd hdetaches (h.not_detaches_of_binds hbinds ?_)
    rw [Lease.ticket, hhome, hslot, hequal, Lease.ticket]

/-- It is so after all commands in turn. -/
theorem Sound.binds_play (h : s.Sound) (hbinds : s.Binds lease) (commands : List Command) :
    (s.play commands).2.Binds lease := by
  induction commands generalizing s with
  | nil => exact hbinds
  | cons command commands ih => exact ih (h.obeys_step command).sound (h.binds_step hbinds command)

/-- **Detaching a loan** parks its page. -/
theorem Sound.parks_detach (h : s.Sound) (hdetaches : s.Detaches command lease) :
    (s.step command).2.Parks lease := by
  obtain ⟨loanName, name, rfl, hloan⟩ := hdetaches
  obtain ⟨ticket, t, hdetached, hholds, hstep⟩ := h.detach hloan name
  obtain rfl := hdetached.ticket_eq
  have hparks := hdetached.parks lease rfl
  obtain ⟨-, hfrees⟩ := hholds.enterTicket name
  rw [zero_add] at hfrees
  rw [hstep]
  refine hparks.of_keepsSlot (keepsSlot_of_frees hfrees ?_)
  -- the ticket that is entered is the one that keeps the page
  show Ticket.page lease.home lease.slot ((t.pool lease.home).slotAt lease.slot).generation ∈ _
  rw [hparks.2]
  exact List.mem_cons_self

/-- A step makes no tickets but copies and tickets for nothing. -/
def Copies (s : Session) (step : Step) : Prop :=
  ∀ ticket ∈ step.2.tickets.values, ticket ∈ s.tickets.values ∨ ticket = .idle

/-- Commands on tickets make none but copies and tickets for nothing. -/
theorem Sound.copies_ticketStep (h : s.Sound) (command : TicketCommand) :
    s.Copies (s.step (.ticket command)) := by
  have hrefuse : s.Copies s.refuse := fun _ hticket => .inl hticket
  cases command with
  | idle name => exact fun _ hticket => (Table.mem_values_put hticket).symm
  | info name => exact expect_of hrefuse fun _ _ _ hticket => .inl hticket
  | clone held name =>
    refine expect_of hrefuse fun copied hcopied => ?_
    have hmem := Table.mem_values_of_get? hcopied
    obtain ⟨_, t, hok, rfl, -⟩ :=
      (h.store.copyTicket (Multiset.mem_add.mpr (.inr hmem))).exists_ok
    rw [run_of_ok hok]
    intro ticket hticket
    rcases Table.mem_values_put hticket with rfl | hold
    · exact .inl hmem
    · exact .inl hold
  | redeem name =>
    refine expect_of hrefuse fun _ _ => ?_
    unfold run
    split <;> exact fun _ hticket => .inl (Table.mem_values_of_erase hticket)
  | discard name =>
    refine expect_of hrefuse fun _ _ => ?_
    unfold run
    split <;> exact fun _ hticket => .inl (Table.mem_values_of_erase hticket)

/-- **Where tickets come from**: a ticket that is out was out before, or is for
nothing, or is for a loan that was just detached. -/
theorem Sound.ticket_origin (h : s.Sound) {ticket : Ticket}
    (hticket : ticket ∈ (s.step command).2.tickets.values) :
    ticket ∈ s.tickets.values ∨ ticket = .idle ∨
      ∃ lease, s.Detaches command lease ∧ ticket = lease.ticket := by
  by_cases hmoves : command.MovesTickets
  swap
  · rw [(s.spares_step command).tickets hmoves] at hticket
    exact .inl hticket
  cases command with
  | ticket command => exact (h.copies_ticketStep command ticket hticket).imp id .inl
  | loan command =>
    cases command with
    | detach loanName name =>
      cases hloan : s.loans.get? loanName with
      | none =>
        rw [step_detach_of_none hloan] at hticket
        exact .inl hticket
      | some loan =>
        obtain ⟨detached, t, hdetached, -, hstep⟩ := h.detach hloan name
        rw [hstep] at hticket
        rcases Table.mem_values_put hticket with rfl | hold
        · rw [hdetached.ticket_eq]
          cases loan with
          | unpooled block => exact .inr (.inl rfl)
          | pooled lease => exact .inr (.inr ⟨lease, ⟨loanName, name, rfl, hloan⟩, rfl⟩)
        · exact .inl hold
    | _ => exact hmoves.elim
  | _ => exact hmoves.elim

/-- **A command** leaves the page of a loan parked, if a ticket for it is out
afterwards and none was handed in. -/
theorem Sound.parks_step (h : s.Sound) (hbinds : s.Binds lease)
    (hparks : lease.ticket ∈ s.tickets.values → s.Parks lease)
    (hredeems : ¬s.Redeems command lease.ticket)
    (hout : lease.ticket ∈ (s.step command).2.tickets.values) :
    (s.step command).2.Parks lease := by
  rcases h.ticket_origin hout with hin | hidle | ⟨other, hdetaches, hsame⟩
  · have hparked := hparks hin
    refine hparked.of_keepsSlot ((h.obeys_step command).keeps _ _ _ hparked.1 ?_ ?_)
    · rw [hparked.2]
      exact hout
    · rw [hparked.2]
      exact hredeems
  · cases hidle
  · exact absurd hdetaches (h.not_detaches_of_binds hbinds hsame.symm)

/-- **All commands in turn** do so. -/
theorem Sound.parks_play (h : s.Sound) (hbinds : s.Binds lease)
    (hparks : lease.ticket ∈ s.tickets.values → s.Parks lease) {commands : List Command}
    (hkept : s.Unredeemed lease.ticket commands)
    (hout : lease.ticket ∈ (s.play commands).2.tickets.values) :
    (s.play commands).2.Parks lease := by
  induction commands generalizing s with
  | nil => exact hparks hout
  | cons command commands ih =>
    exact ih (h.obeys_step command).sound (h.binds_step hbinds command)
      (h.parks_step hbinds hparks hkept.1) hkept.2 hout

/-! ## The last ticket of a loan -/

/-- **A ticket is thrown away at the end of a command** that leads to the session
`t`. The store is `u` by then: nothing has been told, and what was parked is. -/
structure Drops (s : Session) (ticket : Ticket) (t : Session) (loans : Multiset Loan)
    (u : Store) : Prop where
  sound : u.Sound loans (ticket ::ₘ (t.tickets.values : Multiset Ticket))
  quiet : s.store.Quiet u
  parks : ∀ lease, s.Parks lease → u.Parks lease
  store_eq : t.store = u.after (Store.discardTicket ticket)

/-- A ticket that is gone once another one is entered is thrown away. -/
theorem Holds.drops_enterTicket {ticket gone : Ticket} {name : String}
    {t : Session} (h : t.Holds 0 (ticket ::ₘ 0)) (hin : gone ∈ t.tickets.values)
    (hgone : gone ∉ (t.enterTicket name ticket).tickets.values)
    (hquiet : s.store.Quiet t.store) (hparks : ∀ lease, s.Parks lease → t.Parks lease) :
    s.Drops gone (t.enterTicket name ticket) (0 + t.holdings) t.store := by
  obtain ⟨hsound, hstore⟩ := h.enterTicket_of_gone hin hgone
  rw [zero_add (Multiset.ofList _)] at hsound
  exact ⟨hsound, hquiet, hparks, hstore⟩

/-- A step throws a ticket away, if it is gone afterwards. -/
def Discards (s : Session) (ticket : Ticket) (step : Step) : Prop :=
  ticket ∉ step.2.tickets.values → ∃ loans u, s.Drops ticket step.2 loans u

/-- A step that leaves the tickets does not have to throw one away. -/
theorem discards_of_eq {ticket : Ticket} (hin : ticket ∈ s.tickets.values) {step : Step}
    (htickets : step.2.tickets = s.tickets) : s.Discards ticket step := by
  intro hgone
  rw [htickets] at hgone
  exact absurd hin hgone

/-- Commands on tickets throw a ticket away, if they do not hand it in. -/
theorem Sound.discards_ticketStep (h : s.Sound) {ticket : Ticket}
    (hin : ticket ∈ s.tickets.values) {command : TicketCommand}
    (hredeems : ¬s.Redeems (.ticket command) ticket) :
    s.Discards ticket (s.step (.ticket command)) := by
  have hrefuse : s.Discards ticket s.refuse := discards_of_eq hin rfl
  cases command with
  | idle name =>
    intro hgone
    exact ⟨_, _, h.idleTicket.drops_enterTicket hin hgone (.refl _) fun _ => id⟩
  | info name => exact expect_of hrefuse fun _ _ => discards_of_eq hin rfl
  | clone held name =>
    refine expect_of hrefuse fun copied hcopied => ?_
    have hmem := Table.mem_values_of_get? hcopied
    obtain ⟨_, t, hok, rfl, ht, hquiet⟩ :=
      (h.store.copyTicket (Multiset.mem_add.mpr (.inr hmem))).exists_ok
    rw [← Multiset.cons_add] at ht
    rw [run_of_ok hok]
    intro hgone
    exact ⟨_, _, (Holds.leads_store h ht).1.drops_enterTicket hin hgone hquiet fun lease hparks =>
      hparks.of_keepsSlot ((ht.2.pool lease.home).keepsSlot _ _ hparks.1)⟩
  | redeem name =>
    cases hname : s.tickets.get? name with
    | none =>
      rw [step_redeem_of_none hname]
      exact hrefuse
    | some other =>
      obtain ⟨answer, t, hstep, -, -, -⟩ := h.redeem hname
      rw [hstep]
      intro hgone
      exact absurd ⟨name, rfl, Table.get?_of_notMem_erase hin hgone⟩ hredeems
  | discard name =>
    refine expect_of hrefuse fun other hname => ?_
    have hstore := (Holds.erase_ticket h hname).store
    rw [Multiset.cons_add] at hstore
    obtain ⟨_, t, hok, -⟩ := hstore.discardTicket.exists_ok
    rw [run_of_ok hok]
    intro hgone
    have hsame : other = ticket := by
      rw [Table.get?_of_notMem_erase hin hgone] at hname
      exact (Option.some.inj hname).symm
    subst hsame
    rw [zero_add (Multiset.ofList _)] at hstore
    refine ⟨_, s.store, hstore, .refl _, fun _ => id, ?_⟩
    rw [Store.after, hok]

/-- Detaching a loan throws away a ticket that is gone. -/
theorem Sound.discards_detach (h : s.Sound) {ticket : Ticket} (hin : ticket ∈ s.tickets.values)
    (loanName name : String) :
    s.Discards ticket (s.step (.loan (.detach loanName name))) := by
  cases hloan : s.loans.get? loanName with
  | none =>
    rw [step_detach_of_none hloan]
    exact discards_of_eq hin rfl
  | some loan =>
    obtain ⟨detached, t, hdetached, hholds, hstep⟩ := h.detach hloan name
    rw [hstep]
    intro hgone
    refine ⟨_, _, hholds.drops_enterTicket hin hgone hdetached.quiet fun lease hparks => ?_⟩
    -- another page was parked, since there was none on the slot of this loan
    refine hparks.of_keepsSlot (hdetached.keeps _ _ fun other heq hhome hslot => ?_)
    subst heq
    obtain ⟨-, -, hempty⟩ := h.slot_of_held (mem_holdings_of_get? hloan)
    rw [hhome, hslot, hparks.1] at hempty
    cases hempty

/-- **When the last ticket of its kind is gone** after a command that does not hand
it in, it was thrown away. -/
theorem Sound.discards_step (h : s.Sound) {ticket : Ticket} (hin : ticket ∈ s.tickets.values)
    (hredeems : ¬s.Redeems command ticket) : s.Discards ticket (s.step command) := by
  by_cases hmoves : command.MovesTickets
  · cases command with
    | ticket command => exact h.discards_ticketStep hin hredeems
    | loan command =>
      cases command with
      | detach loanName name => exact h.discards_detach hin loanName name
      | _ => exact hmoves.elim
    | _ => exact hmoves.elim
  · exact discards_of_eq hin ((s.spares_step command).tickets hmoves)

/-! ## Whether anybody notices -/

/-- **A command brings the loss of a loan to notice**, in full: it is told once,
reported once to the tracker if there is one, counted, and the page is back. -/
structure Notices (s : Session) (command : Command) (lease : Lease) : Prop where
  events : (s.observe command).1.events = [.leaked (Pool.leakReport lease)]
  /-- That is a warning. -/
  severity : (s.observe command).1.events.map Event.severity = [.warning]
  deliveries : (s.observe command).1.deliveries =
    deliver s.store.tracker [Pool.leakReport lease]
  leaked : ((s.step command).2.store.pool lease.home).leaked =
    (s.store.pool lease.home).leaked + 1
  released : ((s.step command).2.store.pool lease.home).released =
    (s.store.pool lease.home).released + 1
  /-- The page is on top of the shelf of its class, and all other shelves are as
  before. -/
  free : ∃ slot, ∀ c, (((s.step command).2.store.pool lease.home).shelf c).free =
    if c = lease.page.sizeClass then
      ⟨lease.page, slot⟩ :: ((s.store.pool lease.home).shelf c).free
    else ((s.store.pool lease.home).shelf c).free

/-- **A command leaves the loss of a loan unnoticed**: nothing is told, reported or
counted, no page comes back, and the page of the loan is still parked. -/
structure Overlooks (s : Session) (command : Command) (lease : Lease) : Prop where
  events : (s.observe command).1.events = []
  deliveries : (s.observe command).1.deliveries = []
  leaked : ∀ number, ((s.step command).2.store.pool number).leaked =
    (s.store.pool number).leaked
  released : ∀ number, ((s.step command).2.store.pool number).released =
    (s.store.pool number).released
  free : ∀ number c, (((s.step command).2.store.pool number).shelf c).free =
    ((s.store.pool number).shelf c).free
  parks : (s.step command).2.Parks lease

/-- A single thing that is put in front of a journal is all that is new. -/
theorem news_cons {α : Type} (a : α) (journal : List α) :
    news journal.length (a :: journal) = [a] := news_append [a] journal

/-- What the store notices is seen. -/
theorem notices_of_store (h : s.store.Notices lease (s.step command).2.store) :
    s.Notices command lease := by
  have hevents : (s.observe command).1.events = [.leaked (Pool.leakReport lease)] := by
    show news _ (s.step command).2.store.events = _
    rw [h.events, news_cons]
  refine ⟨hevents, by rw [hevents]; rfl, ?_, h.leaked, h.released, h.free⟩
  show news _ (s.step command).2.store.deliveries = _
  rw [h.deliveries, news_append]
  cases s.store.tracker <;> rfl

/-- While the store is quiet, nothing is seen. -/
theorem overlooks_of_store (hquiet : s.store.Quiet (s.step command).2.store)
    (hparks : (s.step command).2.Parks lease) : s.Overlooks command lease := by
  refine ⟨?_, ?_, hquiet.leaked, hquiet.released, fun number c => ?_, hparks⟩
  · show news _ (s.step command).2.store.events = _
    rw [hquiet.events, news_self]
  · show news _ (s.step command).2.store.deliveries = _
    rw [hquiet.deliveries, news_self]
  · rw [Pool.shelf, hquiet.shelves, ← Pool.shelf]

/-- Nobody notices and overlooks at once. -/
theorem Overlooks.not_notices (h : s.Overlooks command lease) : ¬s.Notices command lease := by
  intro hnotices
  have hevents := hnotices.events
  rw [h.events] at hevents
  cases hevents

/-- **The last ticket of its slot** is not thrown away unnoticed. -/
theorem Drops.notices {loans : Multiset Loan} {u : Store}
    (h : s.Drops lease.ticket (s.step command).2 loans u) (hparks : s.Parks lease)
    (hlast : ∀ generation, .page lease.home lease.slot generation ∉
      (s.step command).2.tickets.values) : s.Notices command lease := by
  have hnotices := h.sound.notices_discardTicket hlast (h.parks lease hparks)
  rw [← h.store_eq] at hnotices
  exact notices_of_store (h.quiet.trans_notices hnotices)

/-- **Any other ticket** is. -/
theorem Drops.overlooks {loans : Multiset Loan} {u : Store}
    (h : s.Drops lease.ticket (s.step command).2 loans u) (hparks : s.Parks lease)
    (hothers : ∃ generation, .page lease.home lease.slot generation ∈
      (s.step command).2.tickets.values) : s.Overlooks command lease := by
  obtain ⟨hquiet, hsteady⟩ := h.sound.quiet_discardTicket hothers
  change u.Quiet (u.after (Store.discardTicket lease.ticket)) at hquiet
  change u.Steady (u.after (Store.discardTicket lease.ticket)) at hsteady
  rw [← h.store_eq] at hquiet hsteady
  have hparked := h.parks lease hparks
  exact overlooks_of_store (h.quiet.trans hquiet)
    (hparked.of_keepsSlot ((hsteady.pool lease.home).keepsSlot _ _ hparked.1))

/-- **The loss of a detached loan is noticed at once if and only if its last ticket
is the last one of its slot.** A loan is detached in any session that can be reached,
anything is done to the session from then on but handing a ticket for the loan in,
and then the last ticket for it is gone. If other tickets for the slot are still out,
for whichever loans, nothing at all is noticed. -/
theorem noticed_iff_last_of_slot (before after : List Command) (detach last : Command)
    (lease : Lease) (hdetach : (({} : Session).play before).2.Detaches detach lease)
    (hkept : ((({} : Session).play before).2.step detach).2.Unredeemed lease.ticket
      (after ++ [last]))
    (hin : lease.ticket ∈ (({} : Session).play (before ++ detach :: after)).2.tickets.values)
    (hgone : lease.ticket ∉
      (({} : Session).play (before ++ detach :: after ++ [last])).2.tickets.values) :
    let s := (({} : Session).play (before ++ detach :: after)).2
    (s.Notices last lease ↔ ∀ generation, .page lease.home lease.slot generation ∉
      (s.step last).2.tickets.values) ∧
    (¬s.Notices last lease → s.Overlooks last lease) := by
  intro s
  have hplay : s = (((({} : Session).play before).2.step detach).2.play after).2 := by
    show (({} : Session).play (before ++ detach :: after)).2 = _
    rw [play_append]
    rfl
  have hbefore := sound_play before
  have hdetached := (hbefore.obeys_step detach).sound
  have hstart := hbefore.parks_detach hdetach
  obtain ⟨hkept, hlast⟩ := unredeemed_concat.mp hkept
  -- the page is parked all the way, and then its last ticket is thrown away
  have hparks : s.Parks lease := by
    rw [hplay]
    exact hdetached.parks_play (hdetached.binds_of_parks hstart) (fun _ => hstart) hkept
      (hplay ▸ hin)
  rw [← hplay] at hlast
  rw [play_concat] at hgone
  obtain ⟨loans, u, hdrops⟩ := (sound_play _).discards_step hin hlast hgone
  by_cases hothers : ∃ generation, .page lease.home lease.slot generation ∈
      (s.step last).2.tickets.values
  · have hoverlooks := hdrops.overlooks hparks hothers
    refine ⟨⟨fun hnotices => absurd hnotices hoverlooks.not_notices, fun hnone => ?_⟩,
      fun _ => hoverlooks⟩
    obtain ⟨generation, hgeneration⟩ := hothers
    exact absurd hgeneration (hnone generation)
  · have hnone := not_exists.mp hothers
    have hnotices := hdrops.notices hparks hnone
    exact ⟨⟨fun _ => hnone, fun _ => hnotices⟩, fun hnot => absurd hnotices hnot⟩

/-- A loan with a copied ticket is lost when the second copy is thrown away. -/
theorem noticed_iff_last_of_slot_copied :
    let s := (({} : Session).play [.pool (.make "pool"), .pool (.borrow "pool" 100 false "loan"),
      .loan (.detach "loan" "ticket"), .ticket (.clone "ticket" "copy"),
      .ticket (.discard "ticket")]).2
    s.Notices (.ticket (.discard "copy")) ⟨0, 0, .fresh ⟨0, by decide⟩ 0, 1, 100, false⟩ := by
  let lease : Lease := ⟨0, 0, .fresh ⟨0, by decide⟩ 0, 1, 100, false⟩
  have hnotices := noticed_iff_last_of_slot
    [.pool (.make "pool"), .pool (.borrow "pool" 100 false "loan")]
    [.ticket (.clone "ticket" "copy"), .ticket (.discard "ticket")]
    (.loan (.detach "loan" "ticket")) (.ticket (.discard "copy")) lease
    ⟨"loan", "ticket", rfl, by rfl⟩
    ⟨not_redeems nofun, not_redeems nofun, not_redeems nofun, trivial⟩ (by decide) (by decide)
  refine hnotices.1.mpr fun generation => ?_
  exact List.not_mem_nil

/-- **The loss of a loan is not always noticed at once**: a loan of a page is given
back through a copied ticket, and the same page is lent and detached again. When the
only ticket for the second loan is thrown away, the other copy, which is spent, is
still there, and nothing is told. -/
theorem spent_ticket_hides_loss :
    ¬∀ (before after : List Command) (detach last : Command) (lease : Lease),
      (({} : Session).play before).2.Detaches detach lease →
      ((({} : Session).play before).2.step detach).2.Unredeemed lease.ticket (after ++ [last]) →
      lease.ticket ∈ (({} : Session).play (before ++ detach :: after)).2.tickets.values →
      lease.ticket ∉
        (({} : Session).play (before ++ detach :: after ++ [last])).2.tickets.values →
      (({} : Session).play (before ++ detach :: after)).2.Notices last lease := by
  intro h
  -- the second loan of the page, whose report should be seen
  let lease : Lease := ⟨0, 0, .fresh ⟨0, by decide⟩ 0, 2, 100, true⟩
  let before : List Command := [.watch (.track true), .pool (.make "pool"),
    .pool (.borrow "pool" 100 false "first"), .loan (.detach "first" "ticket"),
    .ticket (.clone "ticket" "spent"), .ticket (.redeem "ticket"),
    .pool (.borrow "pool" 100 false "second")]
  have hnotices := h before [] (.loan (.detach "second" "only")) (.ticket (.discard "only")) lease
    ⟨"second", "only", rfl, by rfl⟩ ⟨not_redeems nofun, trivial⟩ (by decide) (by decide)
  have hnone : ((({} : Session).play (before ++ [.loan (.detach "second" "only")])).2.observe
      (.ticket (.discard "only"))).1.events = [] := by decide +kernel
  exact absurd (hnone.symm.trans hnotices.events) nofun

end Session

end Wirepool
