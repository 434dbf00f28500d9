import Mathlib.Data.Multiset.Bind
import Wirepool.Proofs.Arena.Sound
import Wirepool.Proofs.Buffer.Sound
import Wirepool.Proofs.Store.Messages
import Wirepool.Session.Step

/-!
# What a session holds

All loans of a session are in its tables: some by themselves, some as chunks of
arenas and buffers. A session is in order if its store is, for these loans and
the tickets in its table, and if everything in it is of a pool that exists.

In the middle of a command some loans are in no table: they were taken out of
one, or they were just made. So the invariant is stated with loans and tickets
in hand beside those in the tables, and at the end of a command nothing is in
hand. The lemmas here are about taking things out and entering them.
-/

namespace Wirepool

namespace Table

variable {α : Type}

/-- Rows with distinct names, taken apart at one name. -/
theorem coe_map_snd_eq {entries : List (String × α)} (hnodup : (entries.map Prod.fst).Nodup)
    (name : String) :
    (entries.map Prod.snd : Multiset α) = (entries.lookup name).toList +
      ((entries.filter fun entry => entry.1 != name).map Prod.snd : List α) := by
  induction entries with
  | nil => rfl
  | cons entry entries ih =>
    obtain ⟨key, a⟩ := entry
    rw [List.map_cons, List.nodup_cons] at hnodup
    by_cases hkey : key = name
    · subst hkey
      have hothers : (entries.filter fun entry => entry.1 != key) = entries := by
        refine List.filter_eq_self.mpr fun entry hentry => bne_iff_ne.mpr ?_
        intro heq
        exact hnodup.1 (List.mem_map.mpr ⟨entry, hentry, heq⟩)
      rw [List.filter_cons_of_neg (by simp), hothers, List.lookup_cons_self, List.map_cons,
        ← Multiset.cons_coe]
      rfl
    · rw [List.filter_cons_of_pos (by simp [hkey]), List.lookup_cons,
        beq_false_of_ne (Ne.symm hkey), List.map_cons, List.map_cons, ← Multiset.cons_coe,
        ← Multiset.cons_coe, ih hnodup.2, Multiset.add_cons]

/-- Rows with distinct names answer with the one row that has a name. -/
theorem lookup_eq_some_of_mem {entries : List (String × α)}
    (hnodup : (entries.map Prod.fst).Nodup) {name : String} {a : α}
    (h : (name, a) ∈ entries) : entries.lookup name = some a := by
  induction entries with
  | nil => cases h
  | cons entry entries ih =>
    obtain ⟨key, b⟩ := entry
    rw [List.map_cons, List.nodup_cons] at hnodup
    rcases List.mem_cons.mp h with heq | hmem
    · cases heq
      exact List.lookup_cons_self
    · have hne : name ≠ key := by
        rintro rfl
        exact hnodup.1 (List.mem_map.mpr ⟨_, hmem, rfl⟩)
      rw [List.lookup_cons, beq_false_of_ne hne]
      exact ih hnodup.2 hmem

/-- **What a table holds** is what stands under a name and all else. -/
theorem coe_values (t : Table α) (name : String) :
    (t.values : Multiset α) = (t.get? name).toList + ((t.erase name).values : Multiset α) :=
  coe_map_snd_eq t.nodup name

/-- What stands under a name can be taken out. -/
theorem coe_values_of_get? {t : Table α} {name : String} {a : α} (h : t.get? name = some a) :
    (t.values : Multiset α) = a ::ₘ ((t.erase name).values : Multiset α) := by
  rw [t.coe_values name, h]
  rfl

/-- Where nothing stands there is nothing to take out. -/
theorem coe_values_erase_of_none {t : Table α} {name : String} (h : t.get? name = none) :
    ((t.erase name).values : Multiset α) = (t.values : Multiset α) := by
  rw [t.coe_values name, h]
  exact (zero_add _).symm

/-- **What is entered** is in the table, and all else but what it replaces. -/
theorem coe_values_put (t : Table α) (name : String) (a : α) :
    ((t.put name a).values : Multiset α) = a ::ₘ ((t.erase name).values : Multiset α) := rfl

/-- What is found is in the table. -/
theorem mem_values_of_get? {t : Table α} {name : String} {a : α} (h : t.get? name = some a) :
    a ∈ t.values := by
  rw [← Multiset.mem_coe, coe_values_of_get? h]
  exact Multiset.mem_cons_self _ _

/-- **What is in the table** is found under some name. -/
theorem exists_get?_of_mem {t : Table α} {a : α} (h : a ∈ t.values) :
    ∃ name, t.get? name = some a := by
  obtain ⟨⟨name, _⟩, hentry, rfl⟩ := List.mem_map.mp h
  exact ⟨name, lookup_eq_some_of_mem t.nodup hentry⟩

/-- Taking out adds nothing. -/
theorem mem_values_of_erase {t : Table α} {name : String} {a : α}
    (h : a ∈ (t.erase name).values) : a ∈ t.values := by
  rw [← Multiset.mem_coe, t.coe_values name]
  exact Multiset.mem_add.mpr (.inr h)

/-- **What is gone** once a name is taken out stood under that name. -/
theorem get?_of_notMem_erase {t : Table α} {name : String} {a : α} (h : a ∈ t.values)
    (hgone : a ∉ (t.erase name).values) : t.get? name = some a := by
  rw [← Multiset.mem_coe, t.coe_values name, Multiset.mem_add] at h
  rcases h with h | h
  · exact Option.mem_toList.mp h
  · exact absurd h hgone

/-- What is in a table after something was entered. -/
theorem mem_values_put {t : Table α} {name : String} {a other : α}
    (h : other ∈ (t.put name a).values) : other = a ∨ other ∈ t.values := by
  rw [← Multiset.mem_coe, coe_values_put, Multiset.mem_cons] at h
  exact h.imp id mem_values_of_erase

end Table

namespace Session

/-- **All loans of a session**, with the chunks of its arenas and buffers. -/
def holdings (s : Session) : Multiset Loan :=
  (s.loans.values : Multiset Loan) +
    (s.arenas.values : Multiset Arena).bind (fun a => (a.chunks : Multiset Loan)) +
    (s.buffers.values : Multiset Buffer).bind fun b => (b.chunks : Multiset Loan)

/-- **A session in order**, with loans and tickets in hand beside those in its
tables. -/
structure Holds (s : Session) (loans : Multiset Loan) (tickets : Multiset Ticket) : Prop where
  /-- The store is in order for all loans and tickets. -/
  store : s.store.Sound (loans + s.holdings) (tickets + ↑s.tickets.values)
  /-- Names of pools are for pools that exist. -/
  pools_lt : ∀ number ∈ s.pools.values, number < s.store.pools.length
  /-- So is the pool that everybody shares. -/
  shared_lt : ∀ number ∈ s.shared, number < s.store.pools.length
  /-- Arenas borrow from pools that exist. -/
  arenas_lt : ∀ a ∈ s.arenas.values, a.home < s.store.pools.length
  /-- So do buffers. -/
  buffers_lt : ∀ b ∈ s.buffers.values, b.home < s.store.pools.length

/-- **A session in order.** -/
def Sound (s : Session) : Prop := s.Holds 0 0

/-- What holds of a session later on, if what is parked is so still. -/
def Leads (s : Session) (loans : Multiset Loan) (tickets : Multiset Ticket) (t : Session) : Prop :=
  t.Holds loans tickets ∧ s.store.Steady t.store

/-- What holds of a session later on, if what is parked may be freed where no
ticket is good for it. -/
def LeadsFreeing (s : Session) (loans : Multiset Loan) (tickets : Multiset Ticket) (t : Session) :
    Prop :=
  t.Holds loans tickets ∧ s.store.Frees t.store (tickets + ↑t.tickets.values)

section Enter

variable {s : Session} {loans loans' : Multiset Loan} {tickets tickets' : Multiset Ticket}

theorem Holds.leads (h : s.Holds loans tickets) : s.Leads loans tickets s :=
  ⟨h, .refl _⟩

theorem Leads.trans {t u : Session} (h : s.Leads loans tickets t)
    (h' : t.Leads loans' tickets' u) : s.Leads loans' tickets' u :=
  ⟨h'.1, h.2.trans h'.2⟩

/-- Another store takes the place of the one there was. -/
theorem Holds.withStore {t : Store} (h : s.Holds loans tickets)
    (ht : t.Sound (loans' + s.holdings) (tickets' + ↑s.tickets.values))
    (hlength : s.store.pools.length ≤ t.pools.length) :
    { s with store := t }.Holds loans' tickets' := by
  refine ⟨ht, ?_, ?_, ?_, ?_⟩
  · exact fun number hnumber => Nat.lt_of_lt_of_le (h.pools_lt number hnumber) hlength
  · exact fun number hnumber => Nat.lt_of_lt_of_le (h.shared_lt number hnumber) hlength
  · exact fun a ha => Nat.lt_of_lt_of_le (h.arenas_lt a ha) hlength
  · exact fun b hb => Nat.lt_of_lt_of_le (h.buffers_lt b hb) hlength

/-- **An action on the store** changes what is in hand. -/
theorem Holds.leads_store {t : Store} (h : s.Holds loans tickets)
    (ht : s.store.Leads (loans' + s.holdings) (tickets' + ↑s.tickets.values) t) :
    s.Leads loans' tickets' { s with store := t } :=
  ⟨h.withStore ht.1 ht.2.length_le, ht.2⟩

/-- So does one that may free what no ticket is good for. -/
theorem Holds.leadsFreeing_store {t : Store} (h : s.Holds loans tickets)
    (ht : s.store.LeadsFreeing (loans' + s.holdings) (tickets' + ↑s.tickets.values) t) :
    s.LeadsFreeing loans' tickets' { s with store := t } :=
  ⟨h.withStore ht.1 ht.2.length_le, ht.2⟩

/-! ## Loans -/

theorem holdings_erase_loan {name : String} {loan : Loan} (h : s.loans.get? name = some loan) :
    s.holdings = loan ::ₘ { s with loans := s.loans.erase name }.holdings := by
  rw [holdings, Table.coe_values_of_get? h, Multiset.cons_add, Multiset.cons_add]
  rfl

theorem holdings_eq_singleton_add {name : String} {loan : Loan}
    (h : s.loans.get? name = some loan) :
    s.holdings = {loan} + { s with loans := s.loans.erase name }.holdings := by
  rw [Multiset.singleton_add, holdings_erase_loan h]

/-- Nothing is taken out where nothing stands. -/
theorem holdings_erase_loan_of_none {name : String} (h : s.loans.get? name = none) :
    { s with loans := s.loans.erase name }.holdings = s.holdings := by
  simp only [holdings, Table.coe_values_erase_of_none h]

theorem holdings_put_loan (s : Session) (name : String) (loan : Loan) :
    { s with loans := s.loans.put name loan }.holdings =
      loan ::ₘ { s with loans := s.loans.erase name }.holdings := by
  simp only [holdings, Table.coe_values_put, Multiset.cons_add]

/-- What stands under a name is held. -/
theorem mem_holdings_of_get? {name : String} {loan : Loan} (h : s.loans.get? name = some loan) :
    loan ∈ s.holdings := by
  rw [holdings_erase_loan h]
  exact Multiset.mem_cons_self _ _

/-- **A loan that is taken out** is in hand. -/
theorem Holds.erase_loan (h : s.Holds loans tickets) {name : String} {loan : Loan}
    (hloan : s.loans.get? name = some loan) :
    { s with loans := s.loans.erase name }.Holds (loan ::ₘ loans) tickets := by
  refine ⟨?_, h.pools_lt, h.shared_lt, h.arenas_lt, h.buffers_lt⟩
  rw [Multiset.cons_add, ← Multiset.add_cons, ← holdings_erase_loan hloan]
  exact h.store

/-- A loan in hand can be put under a name that is free. -/
theorem Holds.put_loan {name : String} {loan : Loan}
    (h : { s with loans := s.loans.erase name }.Holds (loan ::ₘ loans) tickets) :
    { s with loans := s.loans.put name loan }.Holds loans tickets := by
  refine ⟨?_, h.pools_lt, h.shared_lt, h.arenas_lt, h.buffers_lt⟩
  rw [holdings_put_loan, Multiset.add_cons, ← Multiset.cons_add]
  exact h.store

/-! ## Tickets -/

/-- **A ticket that is taken out** is in hand. -/
theorem Holds.erase_ticket (h : s.Holds loans tickets) {name : String} {ticket : Ticket}
    (hticket : s.tickets.get? name = some ticket) :
    { s with tickets := s.tickets.erase name }.Holds loans (ticket ::ₘ tickets) := by
  refine ⟨?_, h.pools_lt, h.shared_lt, h.arenas_lt, h.buffers_lt⟩
  have hstore := h.store
  rw [Table.coe_values_of_get? hticket, Multiset.add_cons, ← Multiset.cons_add] at hstore
  exact hstore

/-- A ticket in hand can be put under a name that is free. -/
theorem Holds.put_ticket {name : String} {ticket : Ticket}
    (h : { s with tickets := s.tickets.erase name }.Holds loans (ticket ::ₘ tickets)) :
    { s with tickets := s.tickets.put name ticket }.Holds loans tickets := by
  refine ⟨?_, h.pools_lt, h.shared_lt, h.arenas_lt, h.buffers_lt⟩
  have hstore := h.store
  rw [Multiset.cons_add, ← Multiset.add_cons] at hstore
  exact hstore

/-! ## Arenas -/

theorem holdings_erase_arena {name : String} {arena : Arena} (h : s.arenas.get? name = some arena) :
    s.holdings =
      (arena.chunks : Multiset Loan) + { s with arenas := s.arenas.erase name }.holdings := by
  rw [holdings, Table.coe_values_of_get? h, Multiset.cons_bind, holdings,
    add_left_comm (↑s.loans.values : Multiset Loan), add_assoc]

theorem holdings_erase_arena_of_none {name : String} (h : s.arenas.get? name = none) :
    { s with arenas := s.arenas.erase name }.holdings = s.holdings := by
  simp only [holdings, Table.coe_values_erase_of_none h]

theorem holdings_put_arena (s : Session) (name : String) (arena : Arena) :
    { s with arenas := s.arenas.put name arena }.holdings =
      (arena.chunks : Multiset Loan) + { s with arenas := s.arenas.erase name }.holdings := by
  simp only [holdings, Table.coe_values_put, Multiset.cons_bind]
  rw [add_left_comm (↑s.loans.values : Multiset Loan), add_assoc]

/-- **The chunks of an arena that is taken out** are in hand. -/
theorem Holds.erase_arena (h : s.Holds loans tickets) {name : String} {arena : Arena}
    (harena : s.arenas.get? name = some arena) :
    { s with arenas := s.arenas.erase name }.Holds
      ((arena.chunks : Multiset Loan) + loans) tickets := by
  refine ⟨?_, h.pools_lt, h.shared_lt, fun a ha => h.arenas_lt a (Table.mem_values_of_erase ha),
    h.buffers_lt⟩
  rw [add_assoc, add_left_comm, ← holdings_erase_arena harena]
  exact h.store

/-- An arena whose chunks are in hand can be put under a name that is free. -/
theorem Holds.put_arena {name : String} {arena : Arena}
    (h : { s with arenas := s.arenas.erase name }.Holds
      ((arena.chunks : Multiset Loan) + loans) tickets)
    (hhome : arena.home < s.store.pools.length) :
    { s with arenas := s.arenas.put name arena }.Holds loans tickets := by
  refine ⟨?_, h.pools_lt, h.shared_lt, fun a ha => ?_, h.buffers_lt⟩
  · rw [holdings_put_arena, add_left_comm, ← add_assoc]
    exact h.store
  · rcases List.mem_cons.mp ha with rfl | ha
    · exact hhome
    · exact h.arenas_lt a ha

/-! ## Buffers -/

theorem holdings_erase_buffer {name : String} {buffer : Buffer}
    (h : s.buffers.get? name = some buffer) :
    s.holdings =
      (buffer.chunks : Multiset Loan) + { s with buffers := s.buffers.erase name }.holdings := by
  rw [holdings, Table.coe_values_of_get? h, Multiset.cons_bind, holdings, add_left_comm]

theorem holdings_erase_buffer_of_none {name : String} (h : s.buffers.get? name = none) :
    { s with buffers := s.buffers.erase name }.holdings = s.holdings := by
  simp only [holdings, Table.coe_values_erase_of_none h]

theorem holdings_put_buffer (s : Session) (name : String) (buffer : Buffer) :
    { s with buffers := s.buffers.put name buffer }.holdings =
      (buffer.chunks : Multiset Loan) + { s with buffers := s.buffers.erase name }.holdings := by
  simp only [holdings, Table.coe_values_put, Multiset.cons_bind]
  rw [add_left_comm]

/-- **The chunks of a buffer that is taken out** are in hand. -/
theorem Holds.erase_buffer (h : s.Holds loans tickets) {name : String} {buffer : Buffer}
    (hbuffer : s.buffers.get? name = some buffer) :
    { s with buffers := s.buffers.erase name }.Holds
      ((buffer.chunks : Multiset Loan) + loans) tickets := by
  refine ⟨?_, h.pools_lt, h.shared_lt, h.arenas_lt,
    fun b hb => h.buffers_lt b (Table.mem_values_of_erase hb)⟩
  rw [add_assoc, add_left_comm, ← holdings_erase_buffer hbuffer]
  exact h.store

/-- A buffer whose chunks are in hand can be put under a name that is free. -/
theorem Holds.put_buffer {name : String} {buffer : Buffer}
    (h : { s with buffers := s.buffers.erase name }.Holds
      ((buffer.chunks : Multiset Loan) + loans) tickets)
    (hhome : buffer.home < s.store.pools.length) :
    { s with buffers := s.buffers.put name buffer }.Holds loans tickets := by
  refine ⟨?_, h.pools_lt, h.shared_lt, h.arenas_lt, fun b hb => ?_⟩
  · rw [holdings_put_buffer, add_left_comm, ← add_assoc]
    exact h.store
  · rcases List.mem_cons.mp hb with rfl | hb
    · exact hhome
    · exact h.buffers_lt b hb

/-! ## Holders set apart -/

/-- The store of a session in order, with all that is held. -/
theorem Sound.store_sound (h : s.Sound) : s.store.Sound s.holdings s.tickets.values := by
  have hstore := h.store
  rwa [zero_add, zero_add] at hstore

/-- The loan of a page of a pool says so. -/
theorem deed_mem_of_held {lease : Lease} (h : .pooled lease ∈ s.holdings) :
    lease.deed ∈ deedsAt lease.home s.holdings := by
  obtain ⟨others, heq⟩ := Multiset.exists_cons_of_mem h
  rw [heq, deedsAt_cons_pooled]
  exact Multiset.mem_cons_self _ _

/-- **The slot of a page that is held** has the generation of its loan, which is not
zero, and nothing is parked there. -/
theorem Sound.slot_of_held (h : s.Sound) {lease : Lease} (hlease : .pooled lease ∈ s.holdings) :
    ((s.store.pool lease.home).slotAt lease.slot).generation = lease.generation ∧
      lease.generation ≠ 0 ∧ ((s.store.pool lease.home).slotAt lease.slot).parked = none :=
  ((h.store_sound.pool lease.home).placed.of_deed (deed_mem_of_held hlease)).2

/-- The store with a loan set apart. -/
theorem Sound.store_erase_loan (h : s.Sound) {name : String} {loan : Loan}
    (hloan : s.loans.get? name = some loan) :
    s.store.Sound (loan ::ₘ { s with loans := s.loans.erase name }.holdings) s.tickets.values :=
  holdings_erase_loan hloan ▸ h.store_sound

/-- The store with a ticket set apart. -/
theorem Sound.store_erase_ticket (h : s.Sound) {name : String} {ticket : Ticket}
    (hticket : s.tickets.get? name = some ticket) :
    s.store.Sound s.holdings (ticket ::ₘ ↑(s.tickets.erase name).values) :=
  Table.coe_values_of_get? hticket ▸ h.store_sound

/-- The store with the chunks of an arena set apart. -/
theorem Sound.store_erase_arena (h : s.Sound) {name : String} {arena : Arena}
    (harena : s.arenas.get? name = some arena) :
    s.store.Sound (↑arena.chunks + { s with arenas := s.arenas.erase name }.holdings)
      s.tickets.values := holdings_erase_arena harena ▸ h.store_sound

/-- The store with the chunks of a buffer set apart. -/
theorem Sound.store_erase_buffer (h : s.Sound) {name : String} {buffer : Buffer}
    (hbuffer : s.buffers.get? name = some buffer) :
    s.store.Sound (↑buffer.chunks + { s with buffers := s.buffers.erase name }.holdings)
      s.tickets.values := holdings_erase_buffer hbuffer ▸ h.store_sound

/-- The chunks of any arena can be set apart. -/
theorem Sound.store_of_arena (h : s.Sound) {a : Arena} (ha : a ∈ s.arenas.values) :
    ∃ others : Multiset Loan, s.store.Sound (↑a.chunks + others) s.tickets.values := by
  obtain ⟨name, hname⟩ := Table.exists_get?_of_mem ha
  exact ⟨_, h.store_erase_arena hname⟩

/-- The chunks of any buffer can be set apart. -/
theorem Sound.store_of_buffer (h : s.Sound) {b : Buffer} (hb : b ∈ s.buffers.values) :
    ∃ others : Multiset Loan, s.store.Sound (↑b.chunks + others) s.tickets.values := by
  obtain ⟨name, hname⟩ := Table.exists_get?_of_mem hb
  exact ⟨_, h.store_erase_buffer hname⟩

/-! ## Entering under a name that may be taken

What stands under the name is taken out first and dropped. -/

/-- What an action that never aborts leaves behind. -/
theorem after_of_ends {store : Store} {action : StoreM Unit} {good : Store → Prop}
    (h : Ends (action store) (fun _ t => good t) fun _ _ => False) : good (store.after action) := by
  obtain ⟨_, t, hok, ht⟩ := h.exists_ok
  rw [Store.after, hok]
  exact ht

/-- **Something takes the place of what stood under a name**: what stood there is lost, and
all else stays. -/
structure Replaces (s : Session) (entered : Multiset Loan) (t : Session) (gone : List Loan)
    (others : Multiset Loan) : Prop where
  before : s.holdings = ↑gone + others
  behind : t.holdings = entered + others
  store_eq : t.store = s.store.after (gone.forM Store.lose)

/-- **A loan that is entered.** -/
theorem exists_replaces_loan (s : Session) (name : String) (loan : Loan) :
    ∃ gone others, s.Replaces {loan} (s.enterLoan name loan) gone others := by
  have hput := holdings_put_loan s name loan
  rw [← Multiset.singleton_add] at hput
  unfold Session.enterLoan letGo
  cases hold : s.loans.get? name with
  | none =>
    exact ⟨[], _, (holdings_erase_loan_of_none hold).symm.trans (zero_add _).symm, hput, rfl⟩
  | some old =>
    refine ⟨[old], _, (holdings_erase_loan hold).trans (Multiset.singleton_add _ _).symm, hput, ?_⟩
    show s.store.after (Store.lose old) = s.store.after (Store.lose old >>= fun _ => pure ())
    rw [bind_pure_unit]

/-- **An arena that is entered.** -/
theorem exists_replaces_arena (s : Session) (name : String) (arena : Arena) :
    ∃ gone others, s.Replaces ↑arena.chunks (s.enterArena name arena) gone others := by
  unfold Session.enterArena letGo
  cases hold : s.arenas.get? name with
  | none =>
    exact ⟨[], _, (holdings_erase_arena_of_none hold).symm.trans (zero_add _).symm,
      holdings_put_arena s name arena, rfl⟩
  | some old =>
    exact ⟨old.chunks, _, holdings_erase_arena hold, holdings_put_arena s name arena, rfl⟩

/-- **A buffer that is entered.** -/
theorem exists_replaces_buffer (s : Session) (name : String) (buffer : Buffer) :
    ∃ gone others, s.Replaces ↑buffer.chunks (s.enterBuffer name buffer) gone others := by
  unfold Session.enterBuffer letGo
  cases hold : s.buffers.get? name with
  | none =>
    exact ⟨[], _, (holdings_erase_buffer_of_none hold).symm.trans (zero_add _).symm,
      holdings_put_buffer s name buffer, rfl⟩
  | some old =>
    exact ⟨old.chunks, _, holdings_erase_buffer hold, holdings_put_buffer s name buffer, rfl⟩

/-- **Entering a loan** that is in hand. -/
theorem Holds.enterLoan {loan : Loan} (h : s.Holds (loan ::ₘ loans) tickets) (name : String) :
    s.Leads loans tickets (s.enterLoan name loan) := by
  unfold Session.enterLoan letGo
  cases hold : s.loans.get? name with
  | none =>
    have hfree : { s with loans := s.loans.erase name }.Holds (loan ::ₘ loans) tickets := by
      refine ⟨?_, h.pools_lt, h.shared_lt, h.arenas_lt, h.buffers_lt⟩
      rw [holdings_erase_loan_of_none hold]
      exact h.store
    exact hfree.put_loan.leads
  | some old =>
    have hout := h.erase_loan hold
    have hstore := hout.store
    rw [Multiset.cons_add] at hstore
    have hlost := hout.leads_store (after_of_ends hstore.lose)
    exact ⟨hlost.1.put_loan, hlost.2⟩

/-- **Entering a ticket** that is in hand. -/
theorem Holds.enterTicket {ticket : Ticket} (h : s.Holds loans (ticket ::ₘ tickets))
    (name : String) : s.LeadsFreeing loans tickets (s.enterTicket name ticket) := by
  have hplace : tickets + ((s.tickets.put name ticket).values : Multiset Ticket) =
      ticket ::ₘ tickets + ↑(s.tickets.erase name).values := by
    rw [Table.coe_values_put, Multiset.add_cons, Multiset.cons_add]
  unfold Session.enterTicket letGo
  cases hold : s.tickets.get? name with
  | none =>
    have hfree : { s with tickets := s.tickets.erase name }.Holds loans (ticket ::ₘ tickets) := by
      refine ⟨?_, h.pools_lt, h.shared_lt, h.arenas_lt, h.buffers_lt⟩
      have hstore := h.store
      rw [← Table.coe_values_erase_of_none hold] at hstore
      exact hstore
    refine ⟨hfree.put_ticket, ?_⟩
    show s.store.Frees s.store _
    rw [hplace]
    exact hfree.store.frees_of_steady (.refl _)
  | some old =>
    have hout := h.erase_ticket hold
    have hstore := hout.store
    rw [Multiset.cons_add] at hstore
    have hfreeing := hout.leadsFreeing_store (after_of_ends hstore.discardTicket)
    refine ⟨hfreeing.1.put_ticket, ?_⟩
    show s.store.Frees (s.store.after (Store.discardTicket old)) _
    rw [hplace]
    exact hfreeing.2

/-- **A ticket that is gone** once another one is entered stood under its name, and
was thrown away. -/
theorem Holds.enterTicket_of_gone {ticket gone : Ticket} {name : String}
    (h : s.Holds loans (ticket ::ₘ tickets)) (hin : gone ∈ s.tickets.values)
    (hgone : gone ∉ (s.enterTicket name ticket).tickets.values) :
    s.store.Sound (loans + s.holdings)
        (gone ::ₘ (tickets + ↑(s.enterTicket name ticket).tickets.values)) ∧
      (s.enterTicket name ticket).store = s.store.after (Store.discardTicket gone) := by
  have hold : s.tickets.get? name = some gone :=
    Table.get?_of_notMem_erase hin fun hmem => hgone (List.mem_cons_of_mem _ hmem)
  have hplace : gone ::ₘ (tickets + ((s.tickets.put name ticket).values : Multiset Ticket)) =
      gone ::ₘ (ticket ::ₘ tickets) + ↑(s.tickets.erase name).values := by
    rw [Table.coe_values_put, Multiset.add_cons, Multiset.cons_add, Multiset.cons_add]
  constructor
  · show s.store.Sound _ (gone ::ₘ (tickets + ↑(s.tickets.put name ticket).values))
    rw [hplace]
    exact (h.erase_ticket hold).store
  · unfold Session.enterTicket letGo
    rw [hold]

/-- Slices hold nothing by themselves. -/
theorem Holds.endSlices (h : s.Holds loans tickets) (arena : String) :
    (s.endSlices arena).Holds loans tickets :=
  ⟨h.store, h.pools_lt, h.shared_lt, h.arenas_lt, h.buffers_lt⟩

/-- Slices hold nothing by themselves. -/
theorem Holds.enterSlice (h : s.Holds loans tickets) (arena : String) (slice : Slice)
    (name : Option String) : s.Leads loans tickets (s.enterSlice arena slice name) := by
  cases name with
  | none => exact h.leads
  | some name => exact ⟨⟨h.store, h.pools_lt, h.shared_lt, h.arenas_lt, h.buffers_lt⟩, .refl _⟩

/-- A slice that is entered is no loan. -/
theorem enterSlice_same (s : Session) (arena : String) (slice : Slice) (name : Option String) :
    (s.enterSlice arena slice name).store = s.store ∧
      (s.enterSlice arena slice name).holdings = s.holdings := by
  cases name <;> exact ⟨rfl, rfl⟩

/-- **Entering an arena** whose chunks are in hand. -/
theorem Holds.enterArena {arena : Arena}
    (h : s.Holds ((arena.chunks : Multiset Loan) + loans) tickets)
    (hhome : arena.home < s.store.pools.length) (name : String) :
    s.Leads loans tickets (s.enterArena name arena) := by
  unfold Session.enterArena letGo
  cases hold : s.arenas.get? name with
  | none =>
    have hfree : { s with arenas := s.arenas.erase name }.Holds
        ((arena.chunks : Multiset Loan) + loans) tickets := by
      refine ⟨?_, h.pools_lt, h.shared_lt,
        fun a ha => h.arenas_lt a (Table.mem_values_of_erase ha), h.buffers_lt⟩
      rw [holdings_erase_arena_of_none hold]
      exact h.store
    exact ((hfree.put_arena hhome).endSlices name).leads
  | some old =>
    have hout := h.erase_arena hold
    have hstore := hout.store
    rw [add_assoc] at hstore
    have hlost := hout.leads_store (after_of_ends (Arena.ends_drop hstore))
    have hentered := hlost.1.put_arena (s := { s with store := s.store.after old.drop })
      (Nat.lt_of_lt_of_le hhome hlost.2.length_le)
    exact ⟨hentered.endSlices name, hlost.2⟩

/-- **Entering a buffer** whose chunks are in hand. -/
theorem Holds.enterBuffer {buffer : Buffer}
    (h : s.Holds ((buffer.chunks : Multiset Loan) + loans) tickets)
    (hhome : buffer.home < s.store.pools.length) (name : String) :
    s.Leads loans tickets (s.enterBuffer name buffer) := by
  unfold Session.enterBuffer letGo
  cases hold : s.buffers.get? name with
  | none =>
    have hfree : { s with buffers := s.buffers.erase name }.Holds
        ((buffer.chunks : Multiset Loan) + loans) tickets := by
      refine ⟨?_, h.pools_lt, h.shared_lt, h.arenas_lt,
        fun b hb => h.buffers_lt b (Table.mem_values_of_erase hb)⟩
      rw [holdings_erase_buffer_of_none hold]
      exact h.store
    exact (hfree.put_buffer hhome).leads
  | some old =>
    have hout := h.erase_buffer hold
    have hstore := hout.store
    rw [add_assoc] at hstore
    have hlost := hout.leads_store (after_of_ends (Buffer.ends_drop hstore))
    exact ⟨hlost.1.put_buffer (Nat.lt_of_lt_of_le hhome hlost.2.length_le), hlost.2⟩

end Enter

end Session

end Wirepool
