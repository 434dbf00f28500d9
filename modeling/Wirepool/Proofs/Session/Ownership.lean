import Wirepool.Proofs.Session.Sound

/-!
# Who owns a page

What the invariant says of the sessions that can be reached. Every page is in
one place; the slot of a page tells which; so whoever holds a page can give it
back or lose it, and nobody can do so twice; and writing through one holder is
seen by no other one.
-/

namespace Wirepool

namespace Session

variable {s : Session}

/-- **The places of a page** of the pool with a number. -/
def places (s : Session) (number : Nat) (page : PageId) : Multiset Place :=
  (((s.store.pool number).stays (deedsAt number s.holdings)).filter
    fun stay => stay.page = page).map Stay.place

/-- **Whether a page was made.** -/
def Made (s : Session) (number : Nat) (page : PageId) : Prop :=
  page.2 < ((s.store.pool number).shelf page.1).created

instance (number : Nat) (page : PageId) : Decidable (s.Made number page) :=
  inferInstanceAs (Decidable (_ < _))

/-- **The slot with a number** of the pool with a number. -/
def slotAt (s : Session) (number slot : Nat) : Slot := (s.store.pool number).slotAt slot

/-- **All that is held** is held by somebody. -/
theorem mem_holdings {loan : Loan} :
    loan ∈ s.holdings ↔ ∃ holder, s.held holder = some loan := by
  rw [holdings, Multiset.mem_add, Multiset.mem_add, Multiset.mem_bind, Multiset.mem_bind]
  constructor
  · rintro ((hloan | ⟨a, ha, hchunk⟩) | ⟨b, hb, hchunk⟩)
    · obtain ⟨name, hname⟩ := Table.exists_get?_of_mem hloan
      exact ⟨.loan name, hname⟩
    · obtain ⟨name, hname⟩ := Table.exists_get?_of_mem ha
      obtain ⟨position, hposition⟩ := List.getElem?_of_mem hchunk
      exact ⟨.chunk name position, by rw [held, hname]; exact hposition⟩
    · obtain ⟨name, hname⟩ := Table.exists_get?_of_mem hb
      obtain ⟨position, hposition⟩ := List.getElem?_of_mem hchunk
      exact ⟨.piece name position, by rw [held, hname]; exact hposition⟩
  · rintro ⟨holder, hheld⟩
    cases holder with
    | loan name => exact .inl (.inl (Table.mem_values_of_get? hheld))
    | chunk name position =>
      obtain ⟨a, ha, hposition⟩ := Option.bind_eq_some_iff.mp hheld
      exact .inl (.inr ⟨a, Table.mem_values_of_get? ha, List.mem_of_getElem? hposition⟩)
    | piece name position =>
      obtain ⟨b, hb, hposition⟩ := Option.bind_eq_some_iff.mp hheld
      exact .inr ⟨b, Table.mem_values_of_get? hb, List.mem_of_getElem? hposition⟩

/-! ## Pages and slots -/

/-- A session in order is so in each of its pools. -/
theorem Sound.pool (h : s.Sound) (number : Nat) :
    (s.store.pool number).Sound (deedsAt number s.holdings)
      (stubsAt number (s.tickets.values : Multiset Ticket)) := h.store_sound.pool number

/-- What is said of a page of a pool is said by a loan of it. -/
theorem exists_lease_of_deed {number : Nat} {deed : Deed} (h : deed ∈ deedsAt number s.holdings) :
    ∃ lease, .pooled lease ∈ s.holdings ∧ lease.home = number ∧ lease.deed = deed := by
  obtain ⟨terms, hterms, hdeed⟩ := (Multiset.mem_filterMap _ _).mp h
  obtain ⟨loan, hloan, rfl⟩ := Multiset.mem_map.mp hterms
  cases loan with
  | unpooled block => cases hdeed
  | pooled lease =>
    rw [Loan.deed?_pooled] at hdeed
    split at hdeed
    · next hhome => exact ⟨lease, hloan, hhome, Option.some.inj hdeed⟩
    · cases hdeed

/-- **The pages of a session are each in one place.** -/
structure PagesPlaced (s : Session) : Prop where
  /-- A page that was made is in one place. -/
  exists_place : ∀ number page, s.Made number page → ∃ place, s.places number page = {place}
  /-- A page that was not made is nowhere. -/
  nowhere : ∀ number page, ¬s.Made number page → s.places number page = 0
  /-- If it is on a shelf, that is the shelf of its class. -/
  shelf_eq : ∀ number page c, .shelf c ∈ s.places number page → c = page.1

/-- The pages of a session in order are each in one place. -/
theorem Sound.pagesPlaced (h : s.Sound) : s.PagesPlaced := by
  have hcount (number : Nat) (page : PageId) : (s.places number page).card =
      if s.Made number page then 1 else 0 := by
    rw [places, Multiset.card_map]
    refine Eq.trans ?_ (Pool.count_made (s.store.pool number) page)
    rw [← (h.pool number).placed.made_eq, Multiset.count_map]
    simp only [eq_comm]
  refine ⟨fun number page hmade => ?_, fun number page hmade => ?_, fun number page c hshelf => ?_⟩
  · have hone := hcount number page
    rw [if_pos hmade] at hone
    exact Multiset.card_eq_one.mp hone
  · have hzero := hcount number page
    rw [if_neg hmade] at hzero
    exact Multiset.card_eq_zero.mp hzero
  · obtain ⟨stay, hstay, hplace⟩ := Multiset.mem_map.mp hshelf
    obtain ⟨hmem, rfl⟩ := Multiset.mem_filter.mp hstay
    have hagrees := (h.pool number).placed.agrees stay hmem
    rw [Stay.Agrees, hplace] at hagrees
    exact hagrees.2

/-- **The slots of a session tell where the pages are.** -/
structure SlotsTell (s : Session) : Prop where
  /-- A page on a shelf has no generation on its slot and is not parked. -/
  shelf : ∀ number c, ∀ shelved ∈ ((s.store.pool number).shelf c).free,
    (s.slotAt number shelved.slot).generation = 0 ∧
      (s.slotAt number shelved.slot).parked = none
  /-- A page that is held has the generation of its loan on its slot, which is
  not zero, and is not parked. -/
  held : ∀ lease, .pooled lease ∈ s.holdings →
    (s.slotAt lease.home lease.slot).generation = lease.generation ∧ lease.generation ≠ 0 ∧
      (s.slotAt lease.home lease.slot).parked = none
  /-- A page that is parked has a generation on its slot. -/
  parked : ∀ number slot parked, (s.slotAt number slot).parked = some parked →
    (s.slotAt number slot).generation ≠ 0
  /-- A generation on a slot is there for a page that is held or parked. -/
  generation : ∀ number slot, (s.slotAt number slot).generation ≠ 0 →
    (∃ lease, .pooled lease ∈ s.holdings ∧ lease.home = number ∧ lease.slot = slot) ∨
      ∃ parked, (s.slotAt number slot).parked = some parked

/-- The slots of a session in order tell where the pages are. -/
theorem Sound.slotsTell (h : s.Sound) : s.SlotsTell := by
  refine ⟨fun number c shelved hfree => ?_, fun lease hlease => ?_, fun number slot parked hp => ?_,
    fun number slot hslot => ?_⟩
  · obtain ⟨-, hgeneration, -, hparked⟩ := (h.pool number).placed.of_free hfree
    exact ⟨hgeneration, hparked⟩
  · exact h.slot_of_held hlease
  · exact ((h.pool number).placed.of_parked hp).2
  · refine ((h.pool number).placed.lent_or_parked hslot).imp ?_ id
    rintro ⟨deed, hdeed, rfl⟩
    obtain ⟨lease, hlease, hhome, rfl⟩ := exists_lease_of_deed hdeed
    exact ⟨lease, hlease, hhome, rfl⟩

/-! ## Giving back -/

/-- **Nothing that is held is ever found to be given back.** -/
structure NothingMismatches (s : Session) : Prop where
  /-- Borrowing fails for want of memory only. -/
  borrow : ∀ number < s.store.pools.length, ∀ len zero abort t,
    Store.borrow number len zero s.store = .error abort t → abort = .capacityOverflow
  /-- Whatever is held can be given back. -/
  release : ∀ loan ∈ s.holdings, ∃ t, Store.release loan s.store = .ok () t
  /-- Whatever is held can be lost. -/
  lose : ∀ loan ∈ s.holdings, ∃ t, Store.lose loan s.store = .ok () t
  /-- So can all chunks of an arena, one after another. -/
  arena : ∀ a ∈ s.arenas.values,
    (∃ t, a.release s.store = .ok () t) ∧ ∃ t, a.drop s.store = .ok () t
  /-- So can all chunks of a buffer. -/
  buffer : ∀ b ∈ s.buffers.values,
    (∃ t, b.release s.store = .ok () t) ∧ ∃ t, b.drop s.store = .ok () t
  /-- A ticket whose generation is on its slot finds a page there. -/
  ticket : ∀ home slot generation, .page home slot generation ∈ s.tickets.values →
    (s.slotAt home slot).generation = generation →
      ∃ parked, (s.slotAt home slot).parked = some parked
  /-- No command finds a page given back twice, unless it hands in a ticket whose
  generation is not on its slot. -/
  step : ∀ command, (s.step command).1.TellsMismatch → ∃ name ticket,
    command = .ticket (.redeem name) ∧ s.tickets.get? name = some ticket ∧
      ¬s.store.Honours ticket

/-- Nothing that a session in order holds is found to be given back. -/
theorem Sound.nothingMismatches (h : s.Sound) : s.NothingMismatches := by
  refine ⟨fun number hnumber len zero abort t hborrow => ?_, fun loan hloan => ?_,
    fun loan hloan => ?_, fun a ha => ?_, fun b hb => ?_, fun home slot generation ht hgood => ?_,
    fun command hmismatch => (h.obeys_step command).mismatch hmismatch⟩
  · have hends := h.store_sound.borrow hnumber len zero
    rw [hborrow] at hends
    exact hends.2.1
  · obtain ⟨others, heq⟩ := Multiset.exists_cons_of_mem hloan
    obtain ⟨_, t, hok, -⟩ := (heq ▸ h.store_sound).release.exists_ok
    exact ⟨t, hok⟩
  · obtain ⟨others, heq⟩ := Multiset.exists_cons_of_mem hloan
    obtain ⟨_, t, hok, -⟩ := (heq ▸ h.store_sound).lose.exists_ok
    exact ⟨t, hok⟩
  · obtain ⟨others, hstore⟩ := h.store_of_arena ha
    obtain ⟨_, t, hrelease, -⟩ := (Arena.ends_release hstore).exists_ok
    obtain ⟨_, u, hdrop, -⟩ := (Arena.ends_drop hstore).exists_ok
    exact ⟨⟨t, hrelease⟩, u, hdrop⟩
  · obtain ⟨others, hstore⟩ := h.store_of_buffer hb
    obtain ⟨_, t, hrelease, -⟩ := (Buffer.ends_release hstore).exists_ok
    obtain ⟨_, u, hdrop, -⟩ := (Buffer.ends_drop hstore).exists_ok
    exact ⟨⟨t, hrelease⟩, u, hdrop⟩
  · have hstub : ⟨slot, generation⟩ ∈ stubsAt home (s.tickets.values : Multiset Ticket) :=
      mem_stubsAt.mpr ht
    exact (h.pool home).exists_parked hstub hgood

/-! ## Writing -/

/-- **Writing through one holder is seen by no other one.** -/
structure HoldersApart (s : Session) : Prop where
  /-- No page is held twice. -/
  pages_nodup : ∀ number, ((deedsAt number s.holdings).map Deed.page).Nodup
  /-- A holder that a command does not reach holds the same bytes afterwards. -/
  held_eq : ∀ command holder, ¬s.Reaches command holder →
    (s.step command).2.held holder = s.held holder
  /-- A page that is parked after a command was parked with the same bytes before
  it, or was held with these bytes and detached. -/
  parked_eq : ∀ command number slot parked,
    ((s.step command).2.slotAt number slot).parked = some parked →
    (s.slotAt number slot).parked = some parked ∨
      ∃ lease, s.Detaches command lease ∧ lease.home = number ∧ lease.slot = slot ∧
        parked = ⟨lease.page, lease.len, lease.traced⟩

/-- Nobody else sees what is written in a session in order. -/
theorem Sound.holdersApart (h : s.Sound) : s.HoldersApart := by
  refine ⟨fun number => (h.pool number).placed.pages_nodup,
    fun command => (s.spares_step command).held, fun command number slot parked hparked => ?_⟩
  refine ((h.obeys_step command).of_parked hparked).imp
    (fun hkeeps => hkeeps.1.symm.trans hparked) ?_
  rintro ⟨lease, hdetaches, rfl, rfl, hlease, -⟩
  refine ⟨lease, hdetaches, rfl, rfl, ?_⟩
  exact Option.some.inj (hparked.symm.trans hlease)

/-! ## Holders -/

/-- What one position of a row holds, and what the others hold. -/
theorem coe_eq_cons_eraseIdx {chunks : List Loan} {position : Nat} {loan : Loan}
    (h : chunks[position]? = some loan) :
    (chunks : Multiset Loan) = loan ::ₘ (chunks.eraseIdx position : Multiset Loan) := by
  obtain ⟨hlt, rfl⟩ := List.getElem?_eq_some_iff.mp h
  rw [Multiset.cons_coe]
  exact Multiset.coe_eq_coe.mpr (List.getElem_cons_eraseIdx_perm hlt).symm

/-- **What others hold** stays when a loan, an arena or a buffer is taken out. -/
theorem mem_holdings_erase_loan {holder : Holder} {name : String} {loan : Loan}
    (h : s.held holder = some loan) (hne : holder ≠ .loan name) :
    loan ∈ { s with loans := s.loans.erase name }.holdings := by
  refine mem_holdings.mpr ⟨holder, ?_⟩
  cases holder with
  | loan own =>
    refine (Table.get?_erase_of_ne _ ?_).trans h
    rintro rfl
    exact hne rfl
  | chunk arena position => exact h
  | piece buffer position => exact h

theorem mem_holdings_erase_arena {holder : Holder} {name : String} {loan : Loan}
    (h : s.held holder = some loan) (hne : ∀ position, holder ≠ .chunk name position) :
    loan ∈ { s with arenas := s.arenas.erase name }.holdings := by
  refine mem_holdings.mpr ⟨holder, ?_⟩
  cases holder with
  | loan own => exact h
  | chunk arena position =>
    refine (congrArg (Option.bind · _) (Table.get?_erase_of_ne _ ?_)).trans h
    rintro rfl
    exact hne position rfl
  | piece buffer position => exact h

theorem mem_holdings_erase_buffer {holder : Holder} {name : String} {loan : Loan}
    (h : s.held holder = some loan) (hne : ∀ position, holder ≠ .piece name position) :
    loan ∈ { s with buffers := s.buffers.erase name }.holdings := by
  refine mem_holdings.mpr ⟨holder, ?_⟩
  cases holder with
  | loan own => exact h
  | chunk arena position => exact h
  | piece buffer position =>
    refine (congrArg (Option.bind · _) (Table.get?_erase_of_ne _ ?_)).trans h
    rintro rfl
    exact hne position rfl

/-- **What one holder holds** can be told from what all others hold. -/
theorem exists_holdings_without {holder : Holder} {loan : Loan} (h : s.held holder = some loan) :
    ∃ others, s.holdings = loan ::ₘ others ∧
      ∀ other held, other ≠ holder → s.held other = some held → held ∈ others := by
  cases holder with
  | loan name =>
    exact ⟨_, holdings_erase_loan h, fun other held hne hheld =>
      mem_holdings_erase_loan hheld hne⟩
  | chunk name position =>
    obtain ⟨a, ha, hchunk⟩ := Option.bind_eq_some_iff.mp h
    refine ⟨(a.chunks.eraseIdx position : Multiset Loan) +
      { s with arenas := s.arenas.erase name }.holdings, ?_, fun other held hne hheld => ?_⟩
    · rw [holdings_erase_arena ha, coe_eq_cons_eraseIdx hchunk, Multiset.cons_add]
    · by_cases hown : ∃ i, other = .chunk name i
      · obtain ⟨i, rfl⟩ := hown
        rw [Session.held, ha] at hheld
        refine Multiset.mem_add.mpr (.inl (List.mem_eraseIdx_iff_getElem?.mpr ⟨i, ?_, hheld⟩))
        rintro rfl
        exact hne rfl
      · exact Multiset.mem_add.mpr (.inr (mem_holdings_erase_arena hheld (not_exists.mp hown)))
  | piece name position =>
    obtain ⟨b, hb, hchunk⟩ := Option.bind_eq_some_iff.mp h
    refine ⟨(b.chunks.eraseIdx position : Multiset Loan) +
      { s with buffers := s.buffers.erase name }.holdings, ?_, fun other held hne hheld => ?_⟩
    · rw [holdings_erase_buffer hb, coe_eq_cons_eraseIdx hchunk, Multiset.cons_add]
    · by_cases hown : ∃ i, other = .piece name i
      · obtain ⟨i, rfl⟩ := hown
        rw [Session.held, hb] at hheld
        refine Multiset.mem_add.mpr (.inl (List.mem_eraseIdx_iff_getElem?.mpr ⟨i, ?_, hheld⟩))
        rintro rfl
        exact hne rfl
      · exact Multiset.mem_add.mpr (.inr (mem_holdings_erase_buffer hheld (not_exists.mp hown)))

/-- **A page has one holder.** -/
theorem Sound.eq_of_held (h : s.Sound) {one other : Holder} {lease lease' : Lease}
    (hone : s.held one = some (.pooled lease)) (hother : s.held other = some (.pooled lease'))
    (hhome : lease'.home = lease.home) (hpage : lease'.page.id = lease.page.id) : other = one := by
  by_contra hne
  obtain ⟨others, hholdings, hmem⟩ := exists_holdings_without hone
  have hnodup := h.holdersApart.pages_nodup lease.home
  rw [hholdings, deedsAt_cons_pooled, Multiset.map_cons, Multiset.nodup_cons] at hnodup
  refine hnodup.1 (Multiset.mem_map.mpr ⟨lease'.deed, ?_, hpage⟩)
  obtain ⟨rest, heq⟩ := Multiset.exists_cons_of_mem (hmem other _ hne hother)
  rw [heq, ← hhome, deedsAt_cons_pooled]
  exact Multiset.mem_cons_self _ _

/-- **A page that is held** is in the hands of a borrower and nowhere else. -/
theorem Sound.places_of_held (h : s.Sound) {holder : Holder} {lease : Lease}
    (hheld : s.held holder = some (.pooled lease)) :
    s.places lease.home lease.page.id = {.lent lease.generation} := by
  have hdeed := deed_mem_of_held (mem_holdings.mpr ⟨holder, hheld⟩)
  have hplace : .lent lease.generation ∈ s.places lease.home lease.page.id := by
    refine Multiset.mem_map.mpr ⟨lease.deed.stay, Multiset.mem_filter.mpr ⟨?_, rfl⟩, rfl⟩
    exact Multiset.mem_add.mpr (.inr (Multiset.mem_map_of_mem _ hdeed))
  by_cases hmade : s.Made lease.home lease.page.id
  · obtain ⟨place, hone⟩ := h.pagesPlaced.exists_place lease.home lease.page.id hmade
    rw [hone] at hplace ⊢
    rw [Multiset.mem_singleton.mp hplace]
  · rw [h.pagesPlaced.nowhere lease.home lease.page.id hmade] at hplace
    exact absurd hplace (Multiset.notMem_zero _)

/-! ## The sessions that can be reached -/

/-- **Every page is in one place**, in every session that can be reached by any
commands on any number of pools, including commands that abort: on the shelf of
its class, or held by one loan, or parked on one slot. The slot tells which, by a
generation that is that of the holder: a parked page was left there by a loan
that was detached on the way, and nothing about it has changed since. So no
command finds a page given back twice but for a ticket that is spent, a ticket
that is not spent finds its page, and nobody sees what is written through
another holder. -/
theorem every_page_in_one_place (commands : List Command) :
    let s := (({} : Session).play commands).2
    s.PagesPlaced ∧ s.SlotsTell ∧
      (∀ number slot parked, (s.slotAt number slot).parked = some parked →
        ∃ before command after lease, commands = before ++ command :: after ∧
          (({} : Session).play before).2.Detaches command lease ∧
          lease.home = number ∧ lease.slot = slot ∧
          parked = ⟨lease.page, lease.len, lease.traced⟩ ∧
          (s.slotAt number slot).generation = lease.generation) ∧
      s.NothingMismatches ∧ s.HoldersApart := by
  intro s
  have hsound : s.Sound := sound_play commands
  refine ⟨hsound.pagesPlaced, hsound.slotsTell, fun number slot parked hparked => ?_,
    hsound.nothingMismatches, hsound.holdersApart⟩
  obtain ⟨before, command, after, lease, hcommands, hdetaches, rfl, rfl, hlease, hgeneration⟩ :=
    exists_detach_of_parked commands hparked
  exact ⟨before, command, after, lease, hcommands, hdetaches, rfl, rfl,
    Option.some.inj (hparked.symm.trans hlease), hgeneration⟩

end Session

end Wirepool
