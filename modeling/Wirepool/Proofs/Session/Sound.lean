import Wirepool.Proofs.Session.Frame
import Wirepool.Proofs.Session.Holdings

/-!
# Every command leaves a session in order

A command *fares well* if it leaves the session in order, detaches nothing, and
does not answer that a page was given back twice. All commands fare well but
two: detaching a loan parks its page, and a ticket that is spent is refused.
Since the sessions that can be reached are those that commands lead to, all of
them are in order.
-/

namespace Wirepool

/-- Whether a page was given back twice. -/
def Answer.TellsMismatch : Answer → Prop
  | .aborted .generationMismatch => True
  | .request (.aborted .generationMismatch) _ => True
  | _ => False

/-- Another abort is not about a page given back twice. -/
theorem Answer.not_tellsMismatch_aborted {abort : Abort} (h : abort ≠ .generationMismatch) :
    ¬(Answer.aborted abort).TellsMismatch := by
  cases abort with
  | generationMismatch => exact absurd rfl h
  | emptyChunk => exact id
  | capacityOverflow => exact id
  | lengthOverflow => exact id

namespace Session

variable {s r : Session} {loans : Multiset Loan} {tickets : Multiset Ticket}

/-- **A command fares well.** -/
def Fares (s : Session) (step : Step) : Prop :=
  s.Leads 0 0 step.2 ∧ ¬step.1.TellsMismatch

/-! ## The parts of a command -/

/-- A command that cannot be carried out fares well. -/
theorem Sound.fares_refuse (h : s.Sound) : s.Fares s.refuse :=
  ⟨Holds.leads h, id⟩

/-- What holds of a refusal and of whatever goes on with a thing. -/
theorem expect_of {α : Type} {good : Step → Prop} {thing : Option α} {go : α → Step}
    (hrefuse : good s.refuse) (hgo : ∀ a, thing = some a → good (go a)) :
    good (s.expect thing go) := by
  cases thing with
  | none => exact hrefuse
  | some a => exact hgo a rfl

/-- What goes on with a thing fares well if it does so for every thing that
there may be. -/
theorem Sound.fares_expect {α : Type} (h : s.Sound) {thing : Option α} {go : α → Step}
    (hgo : ∀ a, thing = some a → s.Fares (go a)) : s.Fares (s.expect thing go) :=
  expect_of h.fares_refuse hgo

/-- What goes on with an answer of the store fares well if it does so for every
answer. -/
theorem fares_run {α : Type} {action : StoreM α} {go : α → Session → Step}
    (h : Ends (action s.store) (fun a t => r.Fares (go a { s with store := t }))
      fun abort t => r.Leads 0 0 { s with store := t } ∧ abort ≠ .generationMismatch) :
    r.Fares (s.run action go) := by
  unfold run
  cases hresult : action s.store with
  | ok a t =>
    rw [hresult] at h
    exact h
  | error abort t =>
    rw [hresult] at h
    exact ⟨h.1, Answer.not_tellsMismatch_aborted h.2⟩

/-- What goes on with an answer of an arena fares well if it does so for every
answer. The arena is in the table as the action leaves it. -/
theorem Sound.fares_runArena {α : Type} (h : s.Sound) {name : String} {arena : Arena}
    (harena : s.arenas.get? name = some arena) {action : HolderM Arena α}
    {go : α → Arena → Session → Step}
    (haction : ∀ {loans : Multiset Loan} {tickets : Multiset Ticket},
      s.store.Sound (↑arena.chunks + loans) tickets → arena.home < s.store.pools.length →
      Ends (action (arena, s.store)) (fun _ => arena.Leads s.store loans tickets)
        (arena.Stops s.store loans tickets))
    (hgo : ∀ a arena t, s.Leads 0 0 t → s.Fares (go a arena t)) :
    s.Fares (s.runArena name arena action go) := by
  have hhome := h.arenas_lt arena (Table.mem_values_of_get? harena)
  have hstore := (Holds.erase_arena h harena).store
  rw [add_zero] at hstore
  have hends := haction hstore hhome
  -- the arena goes back into the table, whichever way the action has ended
  have hput {a : Arena} {t : Store}
      (ht : arena.Leads s.store { s with arenas := s.arenas.erase name }.holdings
        (0 + (s.tickets.values : Multiset Ticket)) (a, t)) :
      s.Leads 0 0 { s with store := t, arenas := s.arenas.put name a } := by
    have hleads : { s with arenas := s.arenas.erase name }.Leads
        ((a.chunks : Multiset Loan) + 0) 0
        { s with store := t, arenas := s.arenas.erase name } := by
      refine (Holds.erase_arena h harena).leads_store ?_
      rw [add_zero]
      exact ht.1
    refine ⟨hleads.1.put_arena (s := { s with store := t }) ?_, ht.1.2⟩
    exact Nat.lt_of_lt_of_le (ht.2.symm ▸ hhome) ht.1.2.length_le
  unfold runArena
  cases hresult : action (arena, s.store) with
  | ok a t =>
    rw [hresult] at hends
    exact hgo a t.1 _ (hput hends)
  | error abort t =>
    rw [hresult] at hends
    exact ⟨hput hends.1, Answer.not_tellsMismatch_aborted hends.2⟩

/-- An answer does not matter if it tells no mismatch. -/
theorem Leads.fares {t : Session} {answer : Answer} (h : s.Leads 0 0 t)
    (hanswer : ¬answer.TellsMismatch) : s.Fares (answer, t) := ⟨h, hanswer⟩

/-- Whatever only changes the names of pools leaves the session in order. -/
theorem Holds.put_pool (h : s.Holds loans tickets) {number : Nat}
    (hnumber : number < s.store.pools.length) (name : String) :
    { s with pools := s.pools.put name number }.Holds loans tickets := by
  refine ⟨h.store, fun other hother => ?_, h.shared_lt, h.arenas_lt, h.buffers_lt⟩
  rcases Table.mem_values_put hother with rfl | hother
  · exact hnumber
  · exact h.pools_lt other hother

/-- A pool more is an empty pool, which any number without a pool stands for. -/
theorem pool_addPool (s : Store) (number : Nat) :
    s.addPool.2.pool number = s.pool number := by
  show ((s.pools ++ [({} : Pool)])[number]?).getD {} = _
  rw [List.getElem?_append, Store.pool]
  by_cases hlt : number < s.pools.length
  · rw [if_pos hlt]
  · rw [if_neg hlt, List.getElem?_eq_none (Nat.le_of_not_lt hlt)]
    rcases Nat.eq_zero_or_pos (number - s.pools.length) with hz | hpos
    · rw [hz]
      rfl
    · rw [List.getElem?_eq_none (show [({} : Pool)].length ≤ _ from hpos)]

/-- A pool more leaves all else as it is. -/
theorem Sound.addPool (h : s.Sound) : s.Leads 0 0 { s with store := s.store.addPool.2 } := by
  refine Holds.leads_store h ⟨⟨fun number => ?_, h.store.fit⟩, ?_, fun number => ?_,
    fun number => ?_⟩
  · rw [pool_addPool]
    exact h.store.pool number
  · show s.store.pools.length ≤ (s.store.pools ++ [({} : Pool)]).length
    rw [List.length_append]
    exact Nat.le_add_right _ _
  · rw [pool_addPool]
    exact .refl _
  · rw [pool_addPool]
    exact .refl _

/-! ## Commands by kind -/

/-- **Commands on pools** fare well. -/
theorem Sound.fares_poolStep (h : s.Sound) (command : PoolCommand) :
    s.Fares (s.poolStep command) := by
  have hnew (name : String) : s.Leads 0 0
      { s with store := s.store.addPool.2, pools := s.pools.put name s.store.pools.length } := by
    refine ⟨h.addPool.1.put_pool (s := { s with store := s.store.addPool.2 }) ?_ name,
      h.addPool.2⟩
    show s.store.pools.length < (s.store.pools ++ [({} : Pool)]).length
    rw [List.length_append]
    exact Nat.lt_succ_self _
  cases command with
  | make name => exact (hnew name).fares id
  | shared name =>
    simp only [poolStep]
    split
    · next number hshared =>
      exact ⟨⟨Holds.put_pool h (h.shared_lt number hshared) name, .refl _⟩, id⟩
    · next hshared =>
      have hsound := (hnew name).1
      refine ⟨⟨⟨hsound.store, hsound.pools_lt, ?_, hsound.arenas_lt, hsound.buffers_lt⟩,
        (hnew name).2⟩, id⟩
      intro number hnumber
      cases hnumber
      show s.store.pools.length < (s.store.pools ++ [({} : Pool)]).length
      rw [List.length_append]
      exact Nat.lt_succ_self _
  | clone pool name =>
    refine h.fares_expect fun number hnumber => ?_
    have hlt := h.pools_lt number (Table.mem_values_of_get? hnumber)
    exact ⟨⟨Holds.put_pool h hlt name, .refl _⟩, id⟩
  | forget pool =>
    refine h.fares_expect fun number hnumber => ⟨⟨⟨h.store, fun other hother => ?_, h.shared_lt,
      h.arenas_lt, h.buffers_lt⟩, .refl _⟩, id⟩
    exact h.pools_lt other (Table.mem_values_of_erase hother)
  | same first second =>
    refine h.fares_expect fun one _ => h.fares_expect fun other _ => ?_
    exact ⟨Holds.leads h, id⟩
  | figures pool => exact h.fares_expect fun number _ => ⟨Holds.leads h, id⟩
  | classFigures pool capacity => exact h.fares_expect fun number _ => ⟨Holds.leads h, id⟩
  | borrow pool len zero name =>
    refine h.fares_expect fun number hnumber => fares_run ?_
    refine (h.store.borrow (h.pools_lt number (Table.mem_values_of_get? hnumber)) len zero).mono
      (fun loan t ht => ?_) fun abort t ht => ?_
    · rw [← Multiset.cons_add] at ht
      have hloan := Holds.leads_store h ht.1
      exact ⟨hloan.trans (hloan.1.enterLoan name), id⟩
    · exact ⟨Holds.leads_store h ht.1, by rw [ht.2.1]; decide⟩
  | concat pool parts name =>
    refine h.fares_expect fun number hnumber => fares_run ?_
    refine (h.store.concat (h.pools_lt number (Table.mem_values_of_get? hnumber)) parts).mono
      (fun loan t ht => ?_) fun abort t ht => ?_
    · rw [← Multiset.cons_add] at ht
      have hloan := Holds.leads_store h ht.1
      exact ⟨hloan.trans (hloan.1.enterLoan name), id⟩
    · exact ⟨Holds.leads_store h ht.1, by rw [ht.2.1]; decide⟩

/-- Whatever writes through what is in hand leaves the session in order. -/
theorem Holds.of_terms_eq {loans' : Multiset Loan} (h : s.Holds loans tickets)
    (heq : loans'.map Loan.terms = loans.map Loan.terms) : s.Holds loans' tickets := by
  refine ⟨h.store.of_terms_eq ?_, h.pools_lt, h.shared_lt, h.arenas_lt, h.buffers_lt⟩
  rw [Multiset.map_add, Multiset.map_add, heq]

/-- A loan of nothing can be in hand at any time. -/
theorem Sound.idle (h : s.Sound) : s.Holds (Loan.idle ::ₘ 0) 0 := by
  refine ⟨⟨fun number => ?_, fun loan hloan => ?_⟩, h.pools_lt, h.shared_lt, h.arenas_lt,
    h.buffers_lt⟩
  · rw [Multiset.cons_add, Loan.idle, deedsAt_cons_unpooled]
    exact h.store.pool number
  · rw [Multiset.cons_add] at hloan
    rcases Multiset.mem_cons.mp hloan with rfl | hloan
    · exact Nat.le_refl 0
    · exact h.store.fit loan hloan

/-- An action on what is taken out, and nothing else. -/
theorem fares_run_done {action : StoreM Unit}
    (h : s.Holds loans tickets)
    (haction : Ends (action s.store)
      (fun _ t => s.store.Leads (0 + s.holdings) (0 + ↑s.tickets.values) t) fun _ _ => False)
    (hsteady : r.store.Steady s.store) :
    r.Fares (s.run action fun () s => (.done, s)) := by
  refine fares_run (haction.mono (fun _ t ht => ?_) fun _ _ hf => hf.elim)
  have hleads := h.leads_store ht
  exact ⟨⟨hleads.1, hsteady.trans hleads.2⟩, id⟩

/-- **Commands on loans** fare well, unless they detach one. -/
theorem Sound.fares_loanStep (h : s.Sound) {command : LoanCommand}
    (hcommand : ∀ loan name, command ≠ .detach loan name) : s.Fares (s.loanStep command) := by
  cases command with
  | idle name => exact ⟨h.idle.enterLoan name, id⟩
  | info name => exact h.fares_expect fun loan _ => ⟨Holds.leads h, id⟩
  | fill name value stretch =>
    refine h.fares_expect fun loan hloan => ⟨⟨Holds.put_loan ?_, .refl _⟩, id⟩
    refine (Holds.erase_loan h hloan).of_terms_eq ?_
    rw [Multiset.map_cons, Multiset.map_cons, Loan.terms_fill]
  | dump name stretch => exact h.fares_expect fun loan _ => ⟨Holds.leads h, id⟩
  | runs name stretch => exact h.fares_expect fun loan _ => ⟨Holds.leads h, id⟩
  | release name =>
    refine h.fares_expect fun loan hloan => ?_
    have hout := Holds.erase_loan h hloan
    have hstore := hout.store
    rw [Multiset.cons_add] at hstore
    exact fares_run_done hout hstore.release (.refl _)
  | drop name =>
    refine h.fares_expect fun loan hloan => ?_
    have hout := Holds.erase_loan h hloan
    have hstore := hout.store
    rw [Multiset.cons_add] at hstore
    exact fares_run_done hout hstore.lose (.refl _)
  | detach loan name => exact absurd rfl (hcommand loan name)

/-- **An arena is made**, whether through settings or as it is, and holds nothing yet, or
nothing happens at all. -/
theorem arenaStep_make (s : Session) (pool : String) (size : Nat) (checked : Bool)
    (name : String) :
    s.arenaStep (.make pool size checked name) = s.refuse ∨
    (∃ fault, s.arenaStep (.make pool size checked name) = (.fault fault, s)) ∨
    ∃ home, s.pools.get? pool = some home ∧ s.arenaStep (.make pool size checked name) =
      (.arena (Arena.new home size).info, s.enterArena name (.new home size)) := by
  unfold arenaStep expect
  dsimp only
  cases s.pools.get? pool with
  | none => exact .inl rfl
  | some home =>
    cases checked with
    | false => exact .inr (.inr ⟨home, rfl, rfl⟩)
    | true =>
      have harena : Settings.arena { arenaFragmentSize := size : Settings } home =
          (Settings.validate { arenaFragmentSize := size : Settings }).map fun _ =>
            .new home size := rfl
      simp only [if_true, harena]
      cases Settings.validate { arenaFragmentSize := size : Settings } with
      | ok => exact .inr (.inr ⟨home, rfl, rfl⟩)
      | error fault => exact .inr (.inl ⟨fault, rfl⟩)

/-- **Commands on arenas** fare well. -/
theorem Sound.fares_arenaStep (h : s.Sound) (command : ArenaCommand) :
    s.Fares (s.arenaStep command) := by
  cases command with
  | make pool size checked name =>
    rcases s.arenaStep_make pool size checked name with hstep | ⟨fault, hstep⟩ |
      ⟨home, hhome, hstep⟩ <;> rw [hstep]
    · exact h.fares_refuse
    · exact ⟨Holds.leads h, id⟩
    · refine ⟨Holds.enterArena ?_ (h.pools_lt home (Table.mem_values_of_get? hhome)) name, id⟩
      show s.Holds (((([] : List Loan) : Multiset Loan)) + 0) 0
      rw [Multiset.coe_nil, zero_add]
      exact h
  | info name => exact h.fares_expect fun arena _ => ⟨Holds.leads h, id⟩
  | get name len zero slice =>
    refine h.fares_expect fun arena harena => h.fares_runArena harena
      (fun hstore hhome => Arena.ends_get hstore hhome len zero) fun _ _ t ht => ?_
    exact ⟨ht.trans (ht.1.enterSlice name _ slice), id⟩
  | copy name row slice =>
    refine h.fares_expect fun arena harena => h.fares_runArena harena
      (fun hstore hhome => Arena.ends_copy hstore hhome row) fun _ _ t ht => ?_
    exact ⟨ht.trans (ht.1.enterSlice name _ slice), id⟩
  | fill name value =>
    refine h.fares_expect fun found hfound => ⟨?_, id⟩
    obtain ⟨arenaName, arena, slice⟩ := found
    have harena : s.arenas.get? arenaName = some arena := arena_of_slice? hfound
    have hhome := h.arenas_lt arena (Table.mem_values_of_get? harena)
    refine ⟨Holds.put_arena ?_ hhome, .refl _⟩
    refine (Holds.erase_arena h harena).of_terms_eq ?_
    rw [Multiset.map_add, Multiset.map_add, Multiset.map_coe, Multiset.map_coe]
    exact congrArg (fun terms : List Terms => (terms : Multiset Terms) + _)
      (Arena.terms_modifyChunk arena slice fun loan => Loan.terms_fill loan _ _ _)
  | dump name stretch => exact h.fares_expect fun _ _ => ⟨Holds.leads h, id⟩
  | runs name stretch => exact h.fares_expect fun _ _ => ⟨Holds.leads h, id⟩
  | reset name =>
    refine h.fares_expect fun arena harena => ?_
    exact Sound.fares_runArena (Holds.endSlices h name) harena
      (fun hstore _ => Arena.ends_reset hstore) fun _ _ t ht => ⟨ht, id⟩
  | release name =>
    refine h.fares_expect fun arena harena => ?_
    have hout := (Holds.erase_arena h harena).endSlices name
    have hstore := hout.store
    rw [add_assoc] at hstore
    exact fares_run_done hout (Arena.ends_release hstore) (.refl _)
  | drop name =>
    refine h.fares_expect fun arena harena => ?_
    have hout := (Holds.erase_arena h harena).endSlices name
    have hstore := hout.store
    rw [add_assoc] at hstore
    exact fares_run_done hout (Arena.ends_drop hstore) (.refl _)

/-- **Commands on messages** fare well. -/
theorem Sound.fares_messageStep (h : s.Sound) (command : MessageCommand) :
    s.Fares (s.messageStep command) := by
  cases command with
  | encode pool order script name =>
    have hgo (home : Option Nat) (hhome : ∀ number ∈ home, number < s.store.pools.length) :
        s.Fares (s.run (script.encode order home) fun encoded s =>
          s.enterEncoded name encoded) := by
      refine fares_run ((script.ends_encode h.store hhome order).mono (fun encoded t ht => ?_)
        fun abort t ht => ⟨Holds.leads_store h ht.1, ht.2⟩)
      unfold enterEncoded
      dsimp only
      split
      · next loan hresult =>
        rw [hresult] at ht
        have hloan : s.Leads (loan ::ₘ 0) 0 { s with store := t } :=
          Holds.leads_store h (by rwa [Multiset.cons_add])
        exact ⟨hloan.trans (hloan.1.enterLoan name), id⟩
      · next failure hresult =>
        rw [hresult] at ht
        exact ⟨Holds.leads_store h ht, id⟩
    cases pool with
    | none => exact hgo none (by simp)
    | some pool =>
      refine h.fares_expect fun home hhome => hgo (some home) fun number hnumber => ?_
      cases hnumber
      exact h.pools_lt home (Table.mem_values_of_get? hhome)
  | encodeInArena name order script slice =>
    refine h.fares_expect fun arena harena => h.fares_runArena harena
      (fun hstore hhome => script.ends_encodeInArena hstore hhome order) fun encoded _ t ht => ?_
    dsimp only
    split
    · exact ⟨ht.trans (ht.1.enterSlice name _ slice), id⟩
    · exact ⟨ht, id⟩
  | decode source arena order calls fallible =>
    refine h.fares_expect fun input _ => ?_
    cases arena with
    | none => exact ⟨Holds.leads h, id⟩
    | some name =>
      exact h.fares_expect fun arena harena => h.fares_runArena harena
        (fun hstore hhome => Reading.ends_copyOut hstore hhome _) fun _ _ t ht => ⟨ht, id⟩

/-- **A buffer is made**, whether through settings or as it is. -/
theorem bufferStep_make {pool : String} {home chunkSize : Nat}
    (hpool : s.pools.get? pool = some home) (hpos : 0 < chunkSize) (checked : Bool)
    (name : String) :
    s.bufferStep (.make pool chunkSize checked name) =
      (.buffer ⟨chunkSize, 0, 0, 0⟩,
        s.enterBuffer name { home, chunkSize, chunkSize_pos := hpos }) := by
  have hnew : Buffer.new home chunkSize = .ok { home, chunkSize, chunkSize_pos := hpos } :=
    dif_pos hpos
  have hsettings : Settings.buffer { bufferChunkSize := chunkSize : Settings } home =
      .ok { home, chunkSize, chunkSize_pos := hpos } := by
    have hvalid : Settings.validate { bufferChunkSize := chunkSize : Settings } = .ok () := by
      unfold Settings.validate
      rw [if_neg (show (65536 : Nat) ≠ 0 by decide), if_neg (Nat.ne_of_gt hpos)]
    unfold Settings.buffer
    rw [hvalid]
    show (Buffer.new home chunkSize).mapError _ = _
    rw [hnew]
    rfl
  cases checked with
  | false =>
    simp only [bufferStep, hpool, expect, hnew, Bool.false_eq_true, if_false]
    rfl
  | true =>
    simp only [bufferStep, hpool, expect, hsettings, if_true]
    rfl

/-- A buffer with chunks of no bytes is not made. -/
theorem bufferStep_make_zero (s : Session) (pool : String) (checked : Bool) (name : String) :
    (s.bufferStep (.make pool 0 checked name)).2 = s ∧
      ¬(s.bufferStep (.make pool 0 checked name)).1.TellsMismatch := by
  unfold bufferStep expect
  dsimp only
  split
  · cases checked <;> exact ⟨rfl, id⟩
  · exact ⟨rfl, id⟩

/-- **Commands on buffers** fare well. -/
theorem Sound.fares_bufferStep (h : s.Sound) (command : BufferCommand) :
    s.Fares (s.bufferStep command) := by
  cases command with
  | make pool chunkSize checked name =>
    rcases Nat.eq_zero_or_pos chunkSize with rfl | hpos
    · obtain ⟨hsame, hanswer⟩ := s.bufferStep_make_zero pool checked name
      exact ⟨hsame.symm ▸ Holds.leads h, hanswer⟩
    · cases hpool : s.pools.get? pool with
      | none =>
        unfold bufferStep
        dsimp only
        rw [hpool]
        exact h.fares_refuse
      | some home =>
        rw [bufferStep_make hpool hpos]
        refine ⟨Holds.enterBuffer ?_ (h.pools_lt home (Table.mem_values_of_get? hpool)) name, id⟩
        show s.Holds (((([] : List Loan) : Multiset Loan)) + 0) 0
        rw [Multiset.coe_nil, zero_add]
        exact h
  | info name => exact h.fares_expect fun buffer _ => ⟨Holds.leads h, id⟩
  | release name =>
    refine h.fares_expect fun buffer hbuffer => ?_
    have hout := Holds.erase_buffer h hbuffer
    have hstore := hout.store
    rw [add_assoc] at hstore
    exact fares_run_done hout (Buffer.ends_release hstore) (.refl _)
  | drop name =>
    refine h.fares_expect fun buffer hbuffer => ?_
    have hout := Holds.erase_buffer h hbuffer
    have hstore := hout.store
    rw [add_assoc] at hstore
    exact fares_run_done hout (Buffer.ends_drop hstore) (.refl _)
  | request name request =>
    refine h.fares_expect fun buffer hbuffer => ?_
    have hhome := h.buffers_lt buffer (Table.mem_values_of_get? hbuffer)
    have hout := Holds.erase_buffer h hbuffer
    have hstore := hout.store
    rw [add_assoc, zero_add] at hstore
    have hends := Buffer.ends_request hstore hhome request
    -- the buffer goes back into the table, whichever way the request has ended
    have hput {b : Buffer} {t : Store}
        (ht : s.store.Leads (↑b.chunks + { s with buffers := s.buffers.erase name }.holdings)
          (0 + (s.tickets.values : Multiset Ticket)) t) (hb : b.home = buffer.home) :
        s.Leads 0 0 { s with store := t, buffers := s.buffers.put name b } := by
      have hleads : { s with buffers := s.buffers.erase name }.Leads
          ((b.chunks : Multiset Loan) + 0) 0
          { s with store := t, buffers := s.buffers.erase name } := by
        refine hout.leads_store ?_
        rw [add_zero]
        exact ht
      refine ⟨hleads.1.put_buffer (s := { s with store := t }) ?_, ht.2⟩
      exact Nat.lt_of_lt_of_le (hb.symm ▸ hhome) ht.2.length_le
    cases hresult : request.run (buffer, s.store) with
    | ok outcome t =>
      rw [hresult] at hends
      refine ⟨hput hends.1.1 hends.1.2, fun hmismatch => ?_⟩
      cases outcome with
      | aborted abort => exact hends.2 abort rfl
      | reply reply => exact hmismatch
      | fault fault => exact hmismatch
      | streamFault fault => exact hmismatch
    | error abort t =>
      rw [hresult] at hends
      obtain ⟨hleads, hb, habort, -⟩ := hends
      refine ⟨hput (hb.symm ▸ hleads) (congrArg Buffer.home hb), ?_⟩
      rw [habort]
      exact id

/-- **Commands on the watch** fare well. -/
theorem Sound.fares_watchStep (h : s.Sound) (command : WatchCommand) :
    s.Fares (s.watchStep command) := by
  cases command with
  | install tracker =>
    exact ⟨⟨⟨h.store.of_pools_eq rfl, h.pools_lt, h.shared_lt, h.arenas_lt, h.buffers_lt⟩,
      Nat.le_refl _, fun _ => .refl _, fun _ => .refl _⟩, id⟩
  | trace on =>
    exact ⟨⟨⟨h.store.of_pools_eq rfl, h.pools_lt, h.shared_lt, h.arenas_lt, h.buffers_lt⟩,
      Nat.le_refl _, fun _ => .refl _, fun _ => .refl _⟩, id⟩
  | describe name => exact h.fares_expect fun _ _ => ⟨Holds.leads h, id⟩

/-! ## Tickets -/

/-- A ticket for nothing can be in hand at any time. -/
theorem Sound.idleTicket (h : s.Sound) : s.Holds 0 (Ticket.idle ::ₘ 0) := by
  refine ⟨⟨fun number => ?_, h.store.fit⟩, h.pools_lt, h.shared_lt, h.arenas_lt, h.buffers_lt⟩
  rw [Multiset.cons_add, stubsAt_cons_idle]
  exact h.store.pool number

/-- Whatever changes nothing frees nothing. -/
theorem Sound.leadsFreeing (h : s.Sound) : s.LeadsFreeing 0 0 s :=
  ⟨h, h.store.frees_of_steady (.refl _)⟩

/-- **A command may free a page**, but fares well apart from that. -/
def FaresFreeing (s : Session) (step : Step) : Prop :=
  s.LeadsFreeing 0 0 step.2 ∧ ¬step.1.TellsMismatch

/-- An action that has an answer is gone on with. -/
theorem run_of_ok {α : Type} {action : StoreM α} {a : α} {t : Store}
    (h : action s.store = .ok a t) (go : α → Session → Step) :
    s.run action go = go a { s with store := t } := by
  rw [run, h]

/-- An action that aborts is not gone on with. -/
theorem run_of_error {α : Type} {action : StoreM α} {abort : Abort} {t : Store}
    (h : action s.store = .error abort t) (go : α → Session → Step) :
    s.run action go = (.aborted abort, { s with store := t }) := by
  rw [run, h]

/-- **A loan that is granted** is told, and stands under its name. -/
theorem step_borrow_of_ok {pool : String} {number len : Nat} {zero : Bool} {loan : Loan}
    {t : Store} (hpool : s.pools.get? pool = some number)
    (h : Store.borrow number len zero s.store = .ok loan t) (name : String) :
    s.step (.pool (.borrow pool len zero name)) =
      (.loan loan.info, { s with store := t }.enterLoan name loan) := by
  show s.expect (s.pools.get? pool) _ = _
  rw [hpool]
  exact run_of_ok h fun loan s => (.loan loan.info, s.enterLoan name loan)

/-- **Commands on tickets** fare well, unless they hand one in, but for the pages
that no other ticket is good for. -/
theorem Sound.faresFreeing_ticketStep (h : s.Sound) {command : TicketCommand}
    (hcommand : ∀ name, command ≠ .redeem name) : s.FaresFreeing (s.ticketStep command) := by
  have hrefuse : s.FaresFreeing s.refuse := ⟨h.leadsFreeing, id⟩
  cases command with
  | idle name => exact ⟨h.idleTicket.enterTicket name, id⟩
  | info name => exact expect_of hrefuse fun _ _ => ⟨h.leadsFreeing, id⟩
  | clone held name =>
    refine expect_of hrefuse fun ticket hticket => ?_
    have hmem := Table.mem_values_of_get? hticket
    obtain ⟨_, t, hok, rfl, ht, -⟩ :=
      (h.store.copyTicket (Multiset.mem_add.mpr (.inr hmem))).exists_ok
    rw [run_of_ok hok]
    rw [← Multiset.cons_add] at ht
    have hentered := (Holds.leads_store h ht).1.enterTicket name
    refine ⟨⟨hentered.1, .trans ?_ hentered.2⟩, id⟩
    -- the copy is good for nothing that its original is not good for
    refine (h.store.frees_of_steady ht.2).mono fun other hother => ?_
    rw [zero_add] at hother ⊢
    rcases Table.mem_values_put (Multiset.mem_coe.mp hother) with rfl | hother
    · exact hmem
    · exact hother
  | redeem name => exact absurd rfl (hcommand name)
  | discard name =>
    refine expect_of hrefuse fun ticket hticket => ?_
    have hout := Holds.erase_ticket h hticket
    have hstore := hout.store
    rw [Multiset.cons_add] at hstore
    obtain ⟨_, t, hok, ht⟩ := hstore.discardTicket.exists_ok
    rw [run_of_ok hok]
    exact ⟨hout.leadsFreeing_store ht, id⟩

/-- A ticket that is not there is not handed in. -/
theorem step_redeem_of_none {name : String} (h : s.tickets.get? name = none) :
    s.step (.ticket (.redeem name)) = s.refuse := by
  show s.expect (s.tickets.get? name) _ = _
  rw [h]
  rfl

/-- Handing a ticket in is an action of the store on the ticket, which is taken out. -/
theorem step_redeem_of_get? {name : String} {ticket : Ticket}
    (hticket : s.tickets.get? name = some ticket) :
    s.step (.ticket (.redeem name)) = { s with tickets := s.tickets.erase name }.run
      (Store.redeem ticket) fun () s => (.done, s) := by
  show s.expect (s.tickets.get? name) _ = _
  rw [hticket]
  rfl

/-- A loan that is not there is not detached. -/
theorem step_detach_of_none {loan : String} (h : s.loans.get? loan = none) (name : String) :
    s.step (.loan (.detach loan name)) = s.refuse := by
  show s.expect (s.loans.get? loan) _ = _
  rw [h]
  rfl

/-- **A ticket that is handed in** is honoured, or the answer is that its page
was given back before. What other tickets are good for stays. -/
theorem Sound.redeem (h : s.Sound) {name : String} {ticket : Ticket}
    (hticket : s.tickets.get? name = some ticket) :
    ∃ answer t, s.step (.ticket (.redeem name)) =
        (answer, { s with tickets := s.tickets.erase name, store := t }) ∧
      { s with tickets := s.tickets.erase name, store := t }.Sound ∧
      s.store.Frees t ((s.tickets.erase name).values.filter (· ≠ ticket) : List Ticket) ∧
      (answer.TellsMismatch → ¬s.store.Honours ticket) := by
  have hout := Holds.erase_ticket h hticket
  have hstore := hout.store
  rw [Multiset.cons_add] at hstore
  have hends := hstore.redeem
  -- the ticket is gone either way, and the session is in order without it
  rw [step_redeem_of_get? hticket, run]
  dsimp only at hends ⊢
  cases hresult : Store.redeem ticket s.store with
  | ok a t =>
    rw [hresult] at hends
    obtain ⟨hsound, hfrees, -⟩ := hends
    rw [zero_add (Multiset.ofList _), Multiset.filter_coe] at hfrees
    exact ⟨_, t, rfl, hout.withStore hsound hfrees.length_le, hfrees, False.elim⟩
  | error abort t =>
    rw [hresult] at hends
    obtain ⟨hsound, hfrees, -, hbad⟩ := hends
    rw [zero_add (Multiset.ofList _), Multiset.filter_coe] at hfrees
    exact ⟨_, t, rfl, hout.withStore hsound hfrees.length_le, hfrees, fun _ => hbad⟩

/-! ## What every command does -/

/-- **A session parks the page of a loan** on its slot, under its generation. -/
def Parks (s : Session) (lease : Lease) : Prop := s.store.Parks lease

/-- **A command detaches a loan** of a page. -/
def Detaches (s : Session) (command : Command) (lease : Lease) : Prop :=
  ∃ loan name, command = .loan (.detach loan name) ∧ s.loans.get? loan = some (.pooled lease)

/-- **A command hands a ticket in.** -/
def Redeems (s : Session) (command : Command) (ticket : Ticket) : Prop :=
  ∃ name, command = .ticket (.redeem name) ∧ s.tickets.get? name = some ticket

/-- **What every command does**: it leaves the session in order; it keeps what is on
a slot, or renews the slot, or parks a page there by detaching its loan; it renews a
slot on which a page is parked only if a ticket for the page is handed in or none is
left; and it answers that a page was given back twice only if a ticket was handed in
that is not honoured. -/
structure Obeys (s : Session) (command : Command) (next : Step) : Prop where
  sound : next.2.Sound
  length_le : s.store.pools.length ≤ next.2.store.pools.length
  generation_le : ∀ number,
    (s.store.pool number).generation ≤ (next.2.store.pool number).generation
  /-- All that has happened to a pool is transactions. -/
  trail : ∀ number, (s.store.pool number).Trail (next.2.store.pool number)
  slot : ∀ number slot, (s.store.pool number).KeepsSlot (next.2.store.pool number) slot ∨
    (s.store.pool number).Renews (next.2.store.pool number) slot ∨
      ∃ lease, s.Detaches command lease ∧ lease.home = number ∧ lease.slot = slot ∧
        next.2.Parks lease
  keeps : ∀ number slot parked, ((s.store.pool number).slotAt slot).parked = some parked →
    .page number slot ((s.store.pool number).slotAt slot).generation ∈ next.2.tickets.values →
    ¬s.Redeems command (.page number slot ((s.store.pool number).slotAt slot).generation) →
    (s.store.pool number).KeepsSlot (next.2.store.pool number) slot
  mismatch : next.1.TellsMismatch → ∃ name ticket, command = .ticket (.redeem name) ∧
    s.tickets.get? name = some ticket ∧ ¬s.store.Honours ticket

/-- What is parked after a command was there before, or was detached by it. -/
theorem Obeys.of_parked {command : Command} {next : Step} (h : s.Obeys command next)
    {number slot : Nat} {parked : Parked}
    (hparked : ((next.2.store.pool number).slotAt slot).parked = some parked) :
    (s.store.pool number).KeepsSlot (next.2.store.pool number) slot ∨
      ∃ lease, s.Detaches command lease ∧ lease.home = number ∧ lease.slot = slot ∧
        next.2.Parks lease := by
  rcases h.slot number slot with hkeeps | hrenews | hdetached
  · exact .inl hkeeps
  · rw [hrenews.1] at hparked
    cases hparked
  · exact .inr hdetached

/-- What fares well does what every command does. -/
theorem Fares.obeys {step : Step} (h : s.Fares step) (command : Command) :
    s.Obeys command step :=
  ⟨h.1.1, h.1.2.length_le, fun number => (h.1.2.pool number).generation_le, h.1.2.trail,
    fun number slot => ((h.1.2.pool number).slot slot).imp id .inl,
    fun number slot parked hparked _ _ => (h.1.2.pool number).keepsSlot slot parked hparked,
    fun hm => absurd hm h.2⟩

/-- A ticket that is out keeps the page it is good for. -/
theorem keepsSlot_of_frees {t : Store} {tickets : List Ticket}
    (h : s.store.Frees t (tickets : Multiset Ticket)) {number slot : Nat}
    (hticket : .page number slot ((s.store.pool number).slotAt slot).generation ∈ tickets) :
    (s.store.pool number).KeepsSlot (t.pool number) slot := by
  have hstub : ⟨slot, ((s.store.pool number).slotAt slot).generation⟩ ∈
      stubsAt number (tickets : Multiset Ticket) := mem_stubsAt.mpr hticket
  exact (h.pool number).keepsSlot _ hstub rfl

/-- So does what fares well but for pages that no other ticket is good for. -/
theorem FaresFreeing.obeys {step : Step} (h : s.FaresFreeing step) (command : Command) :
    s.Obeys command step := by
  obtain ⟨⟨hsound, hfrees⟩, hmismatch⟩ := h
  rw [zero_add] at hfrees
  exact ⟨hsound, hfrees.length_le, fun number => (hfrees.pool number).generation_le, hfrees.trail,
    fun number slot => ((hfrees.pool number).slot slot).imp id .inl,
    fun _ _ _ _ hticket _ => keepsSlot_of_frees hfrees hticket, fun hm => absurd hm hmismatch⟩

/-- So does handing a ticket in. -/
theorem Sound.obeys_redeem (h : s.Sound) (name : String) :
    s.Obeys (.ticket (.redeem name)) (s.step (.ticket (.redeem name))) := by
  cases hticket : s.tickets.get? name with
  | none =>
    rw [step_redeem_of_none hticket]
    exact h.fares_refuse.obeys _
  | some ticket =>
    obtain ⟨answer, t, hstep, hsound, hfrees, hmismatch⟩ := h.redeem hticket
    rw [hstep]
    refine ⟨hsound, hfrees.length_le, fun number => (hfrees.pool number).generation_le,
      hfrees.trail, fun number slot => ((hfrees.pool number).slot slot).imp id .inl,
      fun number slot parked _ hout hredeems => keepsSlot_of_frees hfrees ?_,
      fun hm => ⟨name, ticket, rfl, hticket, hmismatch hm⟩⟩
    refine List.mem_filter.mpr ⟨hout, decide_eq_true fun heq => hredeems ?_⟩
    exact ⟨name, rfl, hticket.trans (congrArg some heq.symm)⟩

/-- **A loan that is detached** leaves the store with a ticket in hand, which is
then entered. -/
theorem Sound.detach (h : s.Sound) {loanName : String} {loan : Loan}
    (hloan : s.loans.get? loanName = some loan) (name : String) :
    ∃ ticket t, s.store.Detached loan ticket t ∧
      { s with loans := s.loans.erase loanName, store := t }.Holds 0 (ticket ::ₘ 0) ∧
      s.step (.loan (.detach loanName name)) = (.ticket ticket.info,
        { s with loans := s.loans.erase loanName, store := t }.enterTicket name ticket) := by
  have hout := Holds.erase_loan h hloan
  have hstore := hout.store
  rw [Multiset.cons_add] at hstore
  obtain ⟨ticket, t, hok, hsound, hdetached⟩ := hstore.detach.exists_ok
  rw [← Multiset.cons_add] at hsound
  refine ⟨ticket, t, hdetached, hout.withStore hsound hdetached.length_le, ?_⟩
  show s.expect (s.loans.get? loanName) _ = _
  rw [hloan]
  show ({ s with loans := s.loans.erase loanName }.run (Store.detach loan) fun ticket s =>
    (.ticket ticket.info, s.enterTicket name ticket)) = _
  rw [run_of_ok hok]

/-- So does detaching a loan. -/
theorem Sound.obeys_detach (h : s.Sound) {loanName : String} {loan : Loan}
    (hloan : s.loans.get? loanName = some loan) (name : String) :
    s.Obeys (.loan (.detach loanName name)) (s.step (.loan (.detach loanName name))) := by
  obtain ⟨ticket, t, hdetached, hholds, hstep⟩ := h.detach hloan name
  rw [hstep]
  obtain ⟨hlast, hfrees⟩ := hholds.enterTicket name
  rw [zero_add] at hfrees
  have hle (number : Nat) : (s.store.pool number).generation ≤ (t.pool number).generation :=
    Nat.le_of_eq (hdetached.generation number).symm
  refine ⟨hlast, Nat.le_trans hdetached.length_le hfrees.length_le,
    fun number => Nat.le_trans (hle number) (hfrees.pool number).generation_le,
    fun number => (hdetached.trail number).trans (hfrees.trail number), fun number slot => ?_,
    fun number slot parked hparked hticket _ => ?_, False.elim⟩
  · rcases (hfrees.pool number).slot slot with hkept | hrenews
    · -- the slot of the loan gets its page, the others keep what they have
      by_cases hself : ∃ lease, loan = .pooled lease ∧ lease.home = number ∧ lease.slot = slot
      · obtain ⟨lease, rfl, rfl, rfl⟩ := hself
        exact .inr (.inr ⟨lease, ⟨loanName, name, rfl, hloan⟩, rfl, rfl,
          (hdetached.parks lease rfl).of_keepsSlot hkept⟩)
      · refine .inl ((hdetached.keeps number slot fun lease heq hhome hslot => ?_).trans hkept)
        exact hself ⟨lease, heq, hhome, hslot⟩
    · exact .inr (.inl (hrenews.of_le (hle number)))
  · have hkeeps : (s.store.pool number).KeepsSlot (t.pool number) slot := by
      refine hdetached.keeps number slot fun lease heq hhome hslot => ?_
      subst heq
      obtain ⟨-, -, hempty⟩ := h.slot_of_held (mem_holdings_of_get? hloan)
      rw [hhome, hslot, hparked] at hempty
      cases hempty
    refine hkeeps.trans (keepsSlot_of_frees hfrees ?_)
    rw [hkeeps.2]
    exact hticket

/-- **Every command** does what commands do. -/
theorem Sound.obeys_step (h : s.Sound) (command : Command) : s.Obeys command (s.step command) := by
  cases command with
  | pool command => exact (h.fares_poolStep command).obeys _
  | loan command =>
    by_cases hdetach : ∃ loan name, command = .detach loan name
    · obtain ⟨loanName, name, rfl⟩ := hdetach
      cases hloan : s.loans.get? loanName with
      | none =>
        rw [step_detach_of_none hloan]
        exact h.fares_refuse.obeys _
      | some loan => exact h.obeys_detach hloan name
    · exact (h.fares_loanStep fun loan name heq => hdetach ⟨loan, name, heq⟩).obeys _
  | ticket command =>
    by_cases hredeem : ∃ name, command = .redeem name
    · obtain ⟨name, rfl⟩ := hredeem
      exact h.obeys_redeem name
    · exact (h.faresFreeing_ticketStep fun name heq => hredeem ⟨name, heq⟩).obeys _
  | arena command => exact (h.fares_arenaStep command).obeys _
  | message command => exact (h.fares_messageStep command).obeys _
  | buffer command => exact (h.fares_bufferStep command).obeys _
  | watch command => exact (h.fares_watchStep command).obeys _

/-! ## Runs of commands -/

/-- A session in which nothing has been done is in order. -/
theorem sound_empty : ({} : Session).Sound := by
  refine ⟨⟨fun number => ?_, fun loan hloan => ?_⟩, nofun, nofun, nofun, nofun⟩
  · exact Pool.sound_empty
  · exact absurd hloan (Multiset.notMem_zero loan)

/-- The session after two rows of commands, one after the other. -/
theorem play_append (s : Session) (first second : List Command) :
    (s.play (first ++ second)).2 = ((s.play first).2.play second).2 := by
  induction first generalizing s with
  | nil => rfl
  | cons command first ih => exact ih (s.step command).2

/-- The session after commands, the last of which is given apart. -/
theorem play_concat (s : Session) (commands : List Command) (command : Command) :
    (s.play (commands ++ [command])).2 = ((s.play commands).2.step command).2 :=
  play_append s commands [command]

/-- The last command is seen last. -/
theorem seen_concat (s : Session) (commands : List Command) (command : Command) :
    (s.play (commands ++ [command])).1 =
      (s.play commands).1 ++ [((s.play commands).2.observe command).1] := by
  induction commands generalizing s with
  | nil => rfl
  | cons first commands ih => exact congrArg (_ :: ·) (ih (s.step first).2)

theorem length_seen (s : Session) (commands : List Command) :
    (s.play commands).1.length = commands.length := by
  induction commands generalizing s with
  | nil => rfl
  | cons first commands ih => exact congrArg (· + 1) (ih (s.step first).2)

/-- What is put in front of a journal is new. -/
theorem news_append {α : Type} (row journal : List α) :
    news journal.length (row ++ journal) = row.reverse := by
  rw [news, List.length_append, Nat.add_sub_cancel, List.take_left]

/-- Nothing is new in a journal as it was. -/
theorem news_self {α : Type} (journal : List α) : news journal.length journal = [] :=
  news_append [] journal

/-- Commands in turn leave a session in order. -/
theorem Sound.play (h : s.Sound) (commands : List Command) : (s.play commands).2.Sound := by
  induction commands generalizing s with
  | nil => exact h
  | cons command commands ih => exact ih (h.obeys_step command).sound

/-- **Every session that can be reached is in order.** -/
theorem sound_play (commands : List Command) : (({} : Session).play commands).2.Sound :=
  sound_empty.play commands

/-- **A page that is parked was left there** by a loan that was detached on the
way, and nothing about it has changed since. -/
theorem exists_detach_of_parked (commands : List Command) {number slot : Nat} {parked : Parked}
    (h : (((({} : Session).play commands).2.store.pool number).slotAt slot).parked = some parked) :
    ∃ before command after lease, commands = before ++ command :: after ∧
      (({} : Session).play before).2.Detaches command lease ∧
      lease.home = number ∧ lease.slot = slot ∧
      (({} : Session).play commands).2.Parks lease := by
  induction commands using List.reverseRecOn with
  | nil => cases h
  | append_singleton commands command ih =>
    rw [play_concat] at h ⊢
    have hobeys := (sound_play commands).obeys_step command
    rcases hobeys.of_parked h with hkeeps | ⟨lease, hdetaches, hhome, hslot, hparks⟩
    · obtain ⟨before, first, after, lease, rfl, hdetaches, rfl, rfl, hlease, hlast⟩ :=
        ih (hkeeps.1.symm.trans h)
      exact ⟨before, first, after ++ [command], lease, by simp, hdetaches, rfl, rfl,
        hkeeps.1.trans hlease, hkeeps.2.trans hlast⟩
    · exact ⟨commands, command, [], lease, rfl, hdetaches, hhome, hslot, hparks⟩

end Session

end Wirepool
