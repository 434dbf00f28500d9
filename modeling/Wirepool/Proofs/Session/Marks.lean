import Wirepool.Proofs.Arena.Marks
import Wirepool.Proofs.Session.Beside
import Wirepool.Proofs.Session.Ownership

/-!
# Sessions that bear other marks

Whether it is known where a loan was made is nothing that a session acts upon. So a session is
compared with one that is the same but for the marks of all its loans, wherever they are kept:
every command that is no switch answers the same on both and leaves sessions that are the same
but for the marks, and what was lost is reported with the marks that were given.

The marks are given by pool and generation, and a report bears the generation only. That is no
matter, because a command loses loans of one pool at most: of a loan, of a page with tickets,
or of all that an arena or a buffer holds. Which pool that is can be told beforehand.
-/

namespace Wirepool

/-- **Whether a command switches the watch**, and does nothing else. -/
def Command.isSwitch : Command → Bool
  | .watch (.install _) | .watch (.trace _) => true
  | _ => false

/-- An answer without marks. Nothing but the figures of a pool has any, as they come with the
pages that are parked. -/
def Answer.unmarked : Answer → Answer
  | .figures p => .figures p.unmarked
  | answer => answer

/-- The pool of a loan. -/
def Loan.home : Loan → Nat
  | unpooled _ => 0
  | pooled lease => lease.home

theorem Loan.ofPool_home (loan : Loan) : loan.OfPool loan.home := by
  cases loan with
  | unpooled block => exact nofun
  | pooled lease =>
    rintro _ ⟨⟩
    rfl

/-- The pool of a ticket. -/
def Ticket.home : Ticket → Nat
  | idle => 0
  | page home _ _ => home

theorem Ticket.ofPool_home (ticket : Ticket) : ticket.OfPool ticket.home := by
  cases ticket with
  | idle => trivial
  | page home slot generation => rfl

@[simp] theorem Loan.info_marked (marks : Marks) (loan : Loan) :
    (loan.marked marks).info = loan.info := by
  cases loan <;> rfl

/-- **An arena that is made** holds nothing, whether settings are checked for it or not. -/
theorem Arena.marked_of_made (marks : Marks) {checked : Bool} {home size : Nat} {a : Arena}
    (h : (if checked then ({ arenaFragmentSize := size } : Settings).arena home
      else .ok (.new home size)) = .ok a) : Arena.Marked marks a.home a a := by
  have hnew : a = .new home size := by
    cases checked with
    | false => exact (Except.ok.inj h).symm
    | true =>
      rw [if_pos rfl, Settings.arena] at h
      cases hvalid : ({ arenaFragmentSize := size } : Settings).validate with
      | ok _ =>
        rw [hvalid] at h
        exact (Except.ok.inj h).symm
      | error fault =>
        rw [hvalid] at h
        cases h
  exact hnew ▸ marked_new marks home size

/-- A buffer that is made holds nothing. -/
theorem Buffer.marked_of_new (marks : Marks) {home chunkSize : Nat} {b : Buffer}
    (h : new home chunkSize = .ok b) : Buffer.Marked marks b.home b b := by
  unfold new at h
  split at h
  · cases h
    exact ⟨rfl, rfl, List.forall_mem_nil _⟩
  · cases h

/-- Nor does one that is made by settings. -/
theorem Buffer.marked_of_settings (marks : Marks) {settings : Settings} {home : Nat} {b : Buffer}
    (h : settings.buffer home = .ok b) : Buffer.Marked marks b.home b b := by
  unfold Settings.buffer at h
  cases hvalid : settings.validate with
  | error fault =>
    rw [hvalid] at h
    cases h
  | ok _ =>
    rw [hvalid] at h
    change (new home settings.bufferChunkSize).mapError _ = _ at h
    cases hnew : new home settings.bufferChunkSize with
    | error abort =>
      rw [hnew] at h
      cases h
    | ok c =>
      rw [hnew] at h
      cases h
      exact marked_of_new marks hnew

/-- A pool that is added to both. -/
theorem Store.Marked.addPool {marks : Marks} {losing : Nat} {s₀ t₀ s t : Store}
    (h : Marked marks losing s₀ t₀ s t) :
    Marked marks losing s₀ t₀ s.addPool.2 t.addPool.2 :=
  { h with
    length_eq := by
      show (t.pools ++ [_]).length = (s.pools ++ [_]).length
      rw [List.length_append, List.length_append, h.length_eq]
    pool := fun number => by
      rw [Session.pool_addPool, Session.pool_addPool]
      exact h.pool number
    leaked_eq := fun number hne => by
      rw [Session.pool_addPool]
      exact h.leaked_eq number hne }

namespace Session

/-- The pool that a thing is of, if it is there. -/
def homeOf {α : Type} (home : α → Nat) (thing : Option α) : Nat := (thing.map home).getD 0

theorem homeOf_eq {α : Type} {home : α → Nat} {thing : Option α} {a : α} (h : thing = some a) :
    homeOf home thing = home a := by
  rw [h]
  rfl

/-- **The pool that a command loses loans to**, if it loses any: that of the thing that is
thrown away, or of the thing whose name is taken. -/
def losesTo (s : Session) : Command → Nat
  | .pool (.borrow _ _ _ name) | .pool (.concat _ _ name) | .loan (.idle name)
  | .loan (.drop name) | .message (.encode _ _ _ name) => homeOf Loan.home (s.loans.get? name)
  | .loan (.detach _ name) | .ticket (.idle name) | .ticket (.clone _ name)
  | .ticket (.redeem name) | .ticket (.discard name) => homeOf Ticket.home (s.tickets.get? name)
  | .arena (.make _ _ _ name) | .arena (.drop name) => homeOf Arena.home (s.arenas.get? name)
  | .buffer (.make _ _ _ name) | .buffer (.drop name) => homeOf Buffer.home (s.buffers.get? name)
  | _ => 0

/-- **The same session but for the marks**, on stores that are related in some way. Arenas and
buffers hold loans of their own pools only. -/
structure Marked (marks : Marks) (R : Store → Store → Prop) (s t : Session) : Prop where
  store : R s.store t.store
  shared : t.shared = s.shared
  pools : t.pools = s.pools
  tickets : t.tickets = s.tickets
  slices : t.slices = s.slices
  loans : Table.Agree (fun _ a b => b = a.marked marks) s.loans t.loans
  arenas : Table.Agree (fun _ a b => Arena.Marked marks a.home a b) s.arenas t.arenas
  buffers : Table.Agree (fun _ a b => Buffer.Marked marks a.home a b) s.buffers t.buffers

/-- **Two steps go alike**: the answers are the same without marks, and the sessions are the
same but for the marks. -/
def GoAlike (marks : Marks) (losing : Nat) (s₀ t₀ : Store) (x y : Step) : Prop :=
  y.1.unmarked = x.1.unmarked ∧ Marked marks (Store.Marked marks losing s₀ t₀) x.2 y.2

variable {marks : Marks} {losing : Nat} {s₀ t₀ : Store} {s t : Session}
  {R S : Store → Store → Prop}

/-! ## The parts of a command -/

section Parts

variable {α β : Type}

/-- While nothing is lost it does not matter whether loans can be made. -/
theorem Marked.weaken (h : Marked marks (Store.Lends marks losing s₀ t₀) s t) :
    Marked marks (Store.Marked marks losing s₀ t₀) s t :=
  { h with store := h.store.toMarked }

/-- The same answer. -/
theorem Marked.answer (h : Marked marks (Store.Marked marks losing s₀ t₀) s t) (answer : Answer) :
    GoAlike marks losing s₀ t₀ (answer, s) (answer, t) :=
  ⟨rfl, h⟩

/-- What goes on with a thing, if the things are related. -/
theorem Marked.expect {Q : α → β → Prop} {one : Option α} {other : Option β} {go : α → Step}
    {go' : β → Step} (h : Marked marks (Store.Marked marks losing s₀ t₀) s t)
    (hthing : Option.Rel Q one other)
    (hgo : ∀ a b, one = some a → Q a b → GoAlike marks losing s₀ t₀ (go a) (go' b)) :
    GoAlike marks losing s₀ t₀ (s.expect one go) (t.expect other go') := by
  cases hthing with
  | some hab => exact hgo _ _ rfl hab
  | none => exact h.answer .misuse

/-- What goes on with the same thing. -/
theorem Marked.expect_eq {one other : Option α} {go go' : α → Step}
    (h : Marked marks (Store.Marked marks losing s₀ t₀) s t) (hthing : other = one)
    (hgo : ∀ a, one = some a → GoAlike marks losing s₀ t₀ (go a) (go' a)) :
    GoAlike marks losing s₀ t₀ (s.expect one go) (t.expect other go') := by
  subst hthing
  cases other with
  | some a => exact hgo a rfl
  | none => exact h.answer .misuse

/-- What goes on with an answer of the store. -/
theorem Marked.run {A : α → β → Prop} {action : StoreM α} {action' : StoreM β}
    {go : α → Session → Step} {go' : β → Session → Step} (h : Marked marks R s t)
    (hruns : Matching A S (Store.Marked marks losing s₀ t₀) (action s.store) (action' t.store))
    (hgo : ∀ a b u v, A a b → Marked marks S { s with store := u } { t with store := v } →
      GoAlike marks losing s₀ t₀ (go a { s with store := u }) (go' b { t with store := v })) :
    GoAlike marks losing s₀ t₀ (s.run action go) (t.run action' go') := by
  unfold Session.run
  generalize action s.store = one, action' t.store = two at hruns ⊢
  cases hruns with
  | ok hab hstore => exact hgo _ _ _ _ hab { h with store := hstore }
  | error abort hstore => exact ⟨rfl, { h with store := hstore }⟩

/-- What goes on with an answer of an arena. -/
theorem Marked.runArena {A : α → β → Prop} {name : String} {a b : Arena} {home : Nat}
    {action : HolderM Arena α} {action' : HolderM Arena β} {go : α → Arena → Session → Step}
    {go' : β → Arena → Session → Step} (h : Marked marks R s t) (hab : Arena.Marked marks home a b)
    (haction : Matches (HolderM.Beside (Arena.Marked marks home) R) A
      (HolderM.Beside (Arena.Marked marks home) S)
      (HolderM.Beside (Arena.Marked marks home) (Store.Marked marks losing s₀ t₀)) action action')
    (hgo : ∀ x y a b s t, A x y → Arena.Marked marks home a b → Marked marks S s t →
      GoAlike marks losing s₀ t₀ (go x a s) (go' y b t)) :
    GoAlike marks losing s₀ t₀ (s.runArena name a action go) (t.runArena name b action' go') := by
  have hruns := haction (a, s.store) (b, t.store) ⟨hab, h.store⟩
  unfold Session.runArena
  generalize action (a, s.store) = one, action' (b, t.store) = two at hruns ⊢
  cases hruns with
  | ok hxy hnext =>
    exact hgo _ _ _ _ _ _ hxy hnext.1
      { h with store := hnext.2, arenas := h.arenas.put (hnext.1.home_eq ▸ hnext.1) }
  | error abort hnext =>
    exact ⟨rfl, { h with
      store := hnext.2, arenas := h.arenas.put (hnext.1.home_eq ▸ hnext.1) }⟩

/-! ## Entering things -/

/-- What is dropped is dropped in both. -/
theorem Marked.letGo {Q : α → α → Prop} {one other : Option α} {drop : α → StoreM Unit}
    (h : Marked marks (Store.Marked marks losing s₀ t₀) s t) (hthing : Option.Rel Q one other)
    (hdrop : ∀ a b, one = some a → Q a b →
      Store.RunAlike marks losing s₀ t₀ (drop a) (drop b)) :
    Marked marks (Store.Marked marks losing s₀ t₀) (s.letGo one drop) (t.letGo other drop) := by
  cases hthing with
  | some hab => exact { h with store := h.store.after (hdrop _ _ rfl hab) }
  | none => exact h

end Parts

theorem Marked.enterLoan (h : Marked marks (Store.Marked marks losing s₀ t₀) s t) {name : String}
    (hold : losing = homeOf Loan.home (s.loans.get? name)) (loan : Loan) :
    Marked marks (Store.Marked marks losing s₀ t₀) (s.enterLoan name loan)
      (t.enterLoan name (loan.marked marks)) := by
  refine { h.letGo (h.loans name) fun a b ha hab => ?_ with loans := h.loans.put rfl }
  rw [homeOf_eq ha] at hold
  exact hab ▸ Store.matches_lose (hold ▸ a.ofPool_home)

theorem Marked.enterTicket (h : Marked marks (Store.Marked marks losing s₀ t₀) s t)
    {name : String} (hold : losing = homeOf Ticket.home (s.tickets.get? name)) (ticket : Ticket) :
    Marked marks (Store.Marked marks losing s₀ t₀) (s.enterTicket name ticket)
      (t.enterTicket name ticket) := by
  have hsame : Option.Rel Eq (s.tickets.get? name) (t.tickets.get? name) := by
    rw [h.tickets]
    cases s.tickets.get? name with
    | none => exact .none
    | some ticket => exact .some rfl
  refine { h.letGo hsame fun a b ha hab => ?_ with
    tickets := congrArg (Table.put · name ticket) h.tickets }
  rw [homeOf_eq ha] at hold
  exact hab ▸ Store.matches_discardTicket (hold ▸ a.ofPool_home)

/-- The slices of an arena end in both. -/
theorem Marked.endSlices (h : Marked marks R s t) (name : String) :
    Marked marks R (s.endSlices name) (t.endSlices name) := by
  unfold Session.endSlices
  rw [h.slices]
  exact { h with slices := rfl }

theorem Marked.enterArena (h : Marked marks (Store.Marked marks losing s₀ t₀) s t)
    {name : String} (hold : losing = homeOf Arena.home (s.arenas.get? name)) {a b : Arena}
    (hab : Arena.Marked marks a.home a b) :
    Marked marks (Store.Marked marks losing s₀ t₀) (s.enterArena name a) (t.enterArena name b) := by
  have hgone : Marked marks (Store.Marked marks losing s₀ t₀)
      (s.letGo (s.arenas.get? name) Arena.drop) (t.letGo (t.arenas.get? name) Arena.drop) := by
    refine h.letGo (h.arenas name) fun c d hc hcd => ?_
    rw [homeOf_eq hc] at hold
    rw [hcd.eq]
    exact Arena.matches_drop (hold ▸ hcd.chunks)
  exact { hgone.endSlices name with arenas := h.arenas.put hab }

theorem Marked.enterBuffer (h : Marked marks (Store.Marked marks losing s₀ t₀) s t)
    {name : String} (hold : losing = homeOf Buffer.home (s.buffers.get? name)) {a b : Buffer}
    (hab : Buffer.Marked marks a.home a b) :
    Marked marks (Store.Marked marks losing s₀ t₀) (s.enterBuffer name a)
      (t.enterBuffer name b) := by
  refine { h.letGo (h.buffers name) fun c d hc hcd => ?_ with buffers := h.buffers.put hab }
  rw [homeOf_eq hc] at hold
  rw [hcd.eq]
  exact Buffer.matches_drop (hold ▸ hcd.chunks)

theorem Marked.enterSlice (h : Marked marks R s t) (arena : String) (slice : Slice)
    (name : Option String) :
    Marked marks R (s.enterSlice arena slice name) (t.enterSlice arena slice name) := by
  cases name with
  | some name => exact { h with slices := congrArg (Table.put · name (arena, slice)) h.slices }
  | none => exact h

/-! ## Every command -/

/-- Commands on pools. -/
theorem Marked.poolStep (h : Marked marks (Store.Lends marks losing s₀ t₀) s t)
    (command : PoolCommand) (hlosing : losing = s.losesTo (.pool command)) :
    GoAlike marks losing s₀ t₀ (s.poolStep command) (t.poolStep command) := by
  have hnow := h.weaken
  have hpool (name : String) : t.pools.get? name = s.pools.get? name := by rw [h.pools]
  have hadded := hnow.store.addPool
  have hnumber : t.store.pools.length = s.store.pools.length := hnow.store.length_eq
  cases command with
  | make name =>
    refine ⟨rfl, { hnow with store := hadded, pools := ?_ }⟩
    exact congrArg₂ (Table.put · name ·) h.pools hnumber
  | shared name =>
    cases hshared : s.shared with
    | some number =>
      simp only [Session.poolStep, h.shared.trans hshared, hshared]
      refine ⟨rfl, { hnow with shared := rfl, pools := ?_ }⟩
      exact congrArg (Table.put · name number) h.pools
    | none =>
      simp only [Session.poolStep, h.shared.trans hshared, hshared]
      refine ⟨rfl, { hnow with store := hadded, shared := ?_, pools := ?_ }⟩
      · exact congrArg some hnumber
      · exact congrArg₂ (Table.put · name ·) h.pools hnumber
  | clone pool name =>
    exact hnow.expect_eq (hpool pool) fun number _ =>
      ⟨rfl, { hnow with pools := congrArg (Table.put · name number) h.pools }⟩
  | forget pool =>
    exact hnow.expect_eq (hpool pool) fun number _ =>
      ⟨rfl, { hnow with pools := congrArg (Table.erase · pool) h.pools }⟩
  | same first second =>
    exact hnow.expect_eq (hpool first) fun _ _ => hnow.expect_eq (hpool second) fun _ _ =>
      hnow.answer _
  | figures pool =>
    exact hnow.expect_eq (hpool pool) fun number _ =>
      ⟨congrArg Answer.figures (hnow.store.pool number).unmarked_eq, hnow⟩
  | classFigures pool capacity =>
    refine hnow.expect_eq (hpool pool) fun number _ => ?_
    have hfigures : (t.store.pool number).classFigures = (s.store.pool number).classFigures := by
      funext c
      rw [Pool.classFigures, (hnow.store.pool number).shelf_eq, Pool.classFigures]
    rw [hfigures]
    exact hnow.answer _
  | borrow pool len zero name =>
    refine hnow.expect_eq (hpool pool) fun number _ =>
      h.run (Store.matches_borrow number len zero _ _ h.store) ?_
    rintro loan _ u v ⟨rfl, -⟩ hnext
    rw [Loan.info_marked]
    exact (hnext.weaken.enterLoan hlosing loan).answer _
  | concat pool parts name =>
    refine hnow.expect_eq (hpool pool) fun number _ =>
      h.run (Store.matches_concat number parts _ _ h.store) ?_
    rintro loan _ u v ⟨rfl, -⟩ hnext
    rw [Loan.info_marked]
    exact (hnext.weaken.enterLoan hlosing loan).answer _

/-- A loan can be taken out of both. -/
theorem Marked.eraseLoan (h : Marked marks R s t) (name : String) :
    Marked marks R { s with loans := s.loans.erase name }
      { t with loans := t.loans.erase name } :=
  { h with loans := h.loans.erase name }

/-- Commands on loans. A loan is detached under the generation that is on its slot. -/
theorem Marked.loanStep (h : Marked marks (Store.Lends marks losing s₀ t₀) s t)
    (command : LoanCommand) (hlosing : losing = s.losesTo (.loan command))
    (hslots : ∀ name lease, s.loans.get? name = some (.pooled lease) →
      ((s.store.pool lease.home).slotAt lease.slot).generation = lease.generation) :
    GoAlike marks losing s₀ t₀ (s.loanStep command) (t.loanStep command) := by
  have hnow := h.weaken
  cases command with
  | idle name => exact (hnow.enterLoan hlosing .idle).answer _
  | info name =>
    refine hnow.expect (h.loans name) fun loan _ _ hloan => ?_
    rw [hloan, Loan.info_marked]
    exact hnow.answer _
  | fill name value stretch =>
    refine hnow.expect (h.loans name) fun loan _ _ hloan => ?_
    rw [hloan, Loan.len_marked, Loan.fill_marked]
    exact ⟨rfl, { hnow with loans := h.loans.put rfl }⟩
  | dump name stretch =>
    refine hnow.expect (h.loans name) fun loan _ _ hloan => ?_
    rw [hloan, Loan.len_marked, Loan.read_marked]
    exact hnow.answer _
  | runs name stretch =>
    refine hnow.expect (h.loans name) fun loan _ _ hloan => ?_
    rw [hloan, Loan.len_marked, Loan.runs_marked]
    exact hnow.answer _
  | release name =>
    refine hnow.expect (h.loans name) fun loan _ _ hloan => ?_
    subst hloan
    exact (hnow.eraseLoan name).run (Store.matches_release loan _ _ hnow.store)
      fun _ _ _ _ _ hnext => hnext.answer _
  | drop name =>
    refine hnow.expect (h.loans name) fun loan _ hname hloan => ?_
    subst hloan
    have hhome : losing = loan.home := hlosing.trans (homeOf_eq hname)
    exact (hnow.eraseLoan name).run
      (Store.matches_lose (hhome ▸ loan.ofPool_home) _ _ hnow.store)
      fun _ _ _ _ _ hnext => hnext.answer _
  | detach loanName name =>
    refine hnow.expect (h.loans loanName) fun loan _ hname hloan => ?_
    subst hloan
    refine (hnow.eraseLoan loanName).run (hnow.store.detach fun lease hlease =>
      hslots loanName lease (hlease ▸ hname)) ?_
    rintro ticket _ u v rfl hnext
    exact (hnext.enterTicket hlosing ticket).answer _

/-- Commands on tickets. -/
theorem Marked.ticketStep (h : Marked marks (Store.Lends marks losing s₀ t₀) s t)
    (command : TicketCommand) (hlosing : losing = s.losesTo (.ticket command)) :
    GoAlike marks losing s₀ t₀ (s.ticketStep command) (t.ticketStep command) := by
  have hnow := h.weaken
  have hticket (name : String) : t.tickets.get? name = s.tickets.get? name := by rw [h.tickets]
  have herased (name : String) : Marked marks (Store.Marked marks losing s₀ t₀)
      { s with tickets := s.tickets.erase name } { t with tickets := t.tickets.erase name } :=
    { hnow with tickets := congrArg (Table.erase · name) h.tickets }
  cases command with
  | idle name => exact (hnow.enterTicket hlosing .idle).answer _
  | info name => exact hnow.expect_eq (hticket name) fun _ _ => hnow.answer _
  | clone held name =>
    refine hnow.expect_eq (hticket held) fun ticket _ =>
      hnow.run (Store.matches_copyTicket ticket _ _ hnow.store) ?_
    rintro copy _ u v rfl hnext
    exact (hnext.enterTicket hlosing copy).answer _
  | redeem name =>
    refine hnow.expect_eq (hticket name) fun ticket hname => ?_
    have hhome : losing = ticket.home := hlosing.trans (homeOf_eq hname)
    exact (herased name).run (Store.matches_redeem (hhome ▸ ticket.ofPool_home) _ _ hnow.store)
      fun _ _ _ _ _ hnext => hnext.answer _
  | discard name =>
    refine hnow.expect_eq (hticket name) fun ticket hname => ?_
    have hhome : losing = ticket.home := hlosing.trans (homeOf_eq hname)
    exact (herased name).run
      (Store.matches_discardTicket (hhome ▸ ticket.ofPool_home) _ _ hnow.store)
      fun _ _ _ _ _ hnext => hnext.answer _

/-- A slice is found in both, in arenas that are the same but for the marks. -/
theorem Marked.slice (h : Marked marks R s t) (name : String) :
    Option.Rel (fun one other => other = (one.1, one.2.1.marked marks, one.2.2) ∧
      Arena.Marked marks one.2.1.home one.2.1 other.2.1) (s.slice? name) (t.slice? name) := by
  unfold Session.slice?
  rw [h.slices]
  cases s.slices.get? name with
  | none => exact .none
  | some entry =>
    obtain ⟨arenaName, slice⟩ := entry
    have hrel := h.arenas arenaName
    show Option.Rel _ ((s.arenas.get? arenaName).bind _) ((t.arenas.get? arenaName).bind _)
    generalize s.arenas.get? arenaName = one, t.arenas.get? arenaName = two at hrel ⊢
    cases hrel with
    | some hab => exact .some ⟨by rw [hab.eq], hab⟩
    | none => exact .none

/-- Commands on arenas and slices. -/
theorem Marked.arenaStep (h : Marked marks (Store.Lends marks losing s₀ t₀) s t)
    (command : ArenaCommand) (hlosing : losing = s.losesTo (.arena command)) :
    GoAlike marks losing s₀ t₀ (s.arenaStep command) (t.arenaStep command) := by
  have hnow := h.weaken
  have herased (name : String) : Marked marks (Store.Marked marks losing s₀ t₀)
      { s.endSlices name with arenas := s.arenas.erase name }
      { t.endSlices name with arenas := t.arenas.erase name } :=
    { hnow.endSlices name with arenas := h.arenas.erase name }
  cases command with
  | make pool size checked name =>
    refine hnow.expect_eq (by rw [h.pools]) fun home _ => ?_
    dsimp only
    split
    · next arena hmade =>
      exact ⟨rfl, hnow.enterArena hlosing (Arena.marked_of_made marks hmade)⟩
    · exact hnow.answer _
  | info name =>
    refine hnow.expect (h.arenas name) fun a b _ hab => ?_
    rw [hab.eq, Arena.info_marked]
    exact hnow.answer _
  | get name len zero sliceName =>
    refine hnow.expect (h.arenas name) fun a b _ hab =>
      h.runArena hab (Arena.matches_get len zero) ?_
    rintro slice _ a b s t rfl hab hnext
    rw [hab.eq, Arena.info_marked]
    exact (hnext.weaken.enterSlice name slice sliceName).answer _
  | copy name row sliceName =>
    refine hnow.expect (h.arenas name) fun a b _ hab =>
      h.runArena hab (Arena.matches_copy row) ?_
    rintro slice _ a b s t rfl hab hnext
    rw [hab.eq, Arena.info_marked]
    exact (hnext.weaken.enterSlice name slice sliceName).answer _
  | fill sliceName value =>
    refine hnow.expect (h.slice sliceName) ?_
    rintro ⟨name, a, slice⟩ _ - ⟨rfl, hab⟩
    refine ⟨rfl, { hnow with arenas := h.arenas.put ?_ }⟩
    exact hab.of_terms (Arena.fill_marked a slice value)
      (Arena.terms_modifyChunk a slice fun loan => loan.terms_fill _ _ _) rfl
  | dump sliceName stretch =>
    refine hnow.expect (h.slice sliceName) ?_
    rintro ⟨name, a, slice⟩ _ - ⟨rfl, -⟩
    dsimp only
    rw [Arena.read_marked]
    exact hnow.answer _
  | runs sliceName stretch =>
    refine hnow.expect (h.slice sliceName) ?_
    rintro ⟨name, a, slice⟩ _ - ⟨rfl, -⟩
    dsimp only
    rw [Arena.runs_marked]
    exact hnow.answer _
  | reset name =>
    refine hnow.expect (h.arenas name) fun a b _ hab =>
      (hnow.endSlices name).runArena hab Arena.matches_reset ?_
    rintro _ _ a b s t - hab hnext
    rw [hab.eq, Arena.info_marked]
    exact hnext.answer _
  | release name =>
    refine hnow.expect (h.arenas name) fun a b _ hab => ?_
    rw [hab.eq]
    exact (herased name).run (Arena.matches_release a _ _ hnow.store) fun _ _ _ _ _ hnext =>
      hnext.answer _
  | drop name =>
    refine hnow.expect (h.arenas name) fun a b hname hab => ?_
    have hhome : losing = a.home := hlosing.trans (homeOf_eq hname)
    rw [hab.eq]
    exact (herased name).run (Arena.matches_drop (hhome ▸ hab.chunks) _ _ hnow.store)
      fun _ _ _ _ _ hnext => hnext.answer _

/-- A source has the same bytes in both. -/
theorem Marked.sourceBytes (h : Marked marks R s t) (source : Source) :
    t.sourceBytes? source = s.sourceBytes? source := by
  cases source with
  | loan name =>
    have hrel := h.loans name
    unfold Session.sourceBytes?
    dsimp only
    generalize s.loans.get? name = one, t.loans.get? name = two at hrel ⊢
    cases hrel with
    | some hab =>
      subst hab
      exact congrArg some (Loan.view_marked marks _)
    | none => rfl
  | slice name =>
    have hrel := h.slice name
    unfold Session.sourceBytes?
    dsimp only
    generalize s.slice? name = one, t.slice? name = two at hrel ⊢
    cases hrel with
    | some hab =>
      obtain ⟨rfl, -⟩ := hab
      exact congrArg some (Arena.read_marked _ _ _ _)
    | none => rfl
  | bytes row => rfl

/-- Commands on messages. -/
theorem Marked.messageStep (h : Marked marks (Store.Lends marks losing s₀ t₀) s t)
    (command : MessageCommand) (hlosing : losing = s.losesTo (.message command)) :
    GoAlike marks losing s₀ t₀ (s.messageStep command) (t.messageStep command) := by
  have hnow := h.weaken
  cases command with
  | encode pool order script name =>
    have hgo (home : Option Nat) : GoAlike marks losing s₀ t₀
        (s.run (script.encode order home) fun encoded s => s.enterEncoded name encoded)
        (t.run (script.encode order home) fun encoded s => s.enterEncoded name encoded) := by
      refine h.run (script.matches_encode order home _ _ h.store) ?_
      rintro ⟨counting, writing, result⟩ _ u v rfl hnext
      cases result with
      | error failure => exact ⟨rfl, hnext⟩
      | ok loan =>
        refine ⟨?_, hnext.enterLoan hlosing loan⟩
        show Answer.encoded ⟨counting, writing, .ok ((loan.marked marks).info,
          (loan.marked marks).view)⟩ = .encoded ⟨counting, writing, .ok (loan.info, loan.view)⟩
        rw [Loan.info_marked, Loan.view_marked]
    cases pool with
    | none => exact hgo none
    | some pool => exact hnow.expect_eq (by rw [h.pools]) fun home _ => hgo (some home)
  | encodeInArena name order script sliceName =>
    refine hnow.expect (h.arenas name) fun a b _ hab =>
      h.runArena hab (script.matches_encodeInArena order) ?_
    rintro encoded _ a b s t rfl hab hnext
    obtain rfl := hab.eq
    obtain ⟨counting, writing, result⟩ := encoded
    cases result with
    | error failure =>
      refine ⟨?_, hnext.weaken⟩
      show Answer.encodedInArena _ _ = .encodedInArena _ _
      rw [Arena.info_marked]
      rfl
    | ok slice =>
      refine ⟨?_, hnext.weaken.enterSlice name slice sliceName⟩
      show Answer.encodedInArena ⟨counting, writing, .ok ((a.marked marks).read slice 0
        slice.length)⟩ (a.marked marks).info = .encodedInArena _ _
      rw [Arena.info_marked, Arena.read_marked]
      rfl
  | decode source arenaName order calls fallible =>
    refine hnow.expect_eq (h.sourceBytes source) fun input _ => ?_
    cases arenaName with
    | none => exact hnow.answer _
    | some name =>
      refine hnow.expect (h.arenas name) fun a b _ hab =>
        h.runArena hab (Reading.matches_copyOut _) ?_
      rintro _ _ a b s t - hab hnext
      rw [hab.eq, Arena.info_marked]
      exact hnext.weaken.answer _

/-- Commands on buffers. -/
theorem Marked.bufferStep (h : Marked marks (Store.Lends marks losing s₀ t₀) s t)
    (command : BufferCommand) (hlosing : losing = s.losesTo (.buffer command)) :
    GoAlike marks losing s₀ t₀ (s.bufferStep command) (t.bufferStep command) := by
  have hnow := h.weaken
  have herased (name : String) : Marked marks (Store.Marked marks losing s₀ t₀)
      { s with buffers := s.buffers.erase name } { t with buffers := t.buffers.erase name } :=
    { hnow with buffers := h.buffers.erase name }
  cases command with
  | make pool chunkSize checked name =>
    refine hnow.expect_eq (by rw [h.pools]) fun home _ => ?_
    dsimp only
    split
    · split
      · next buffer hmade =>
        exact ⟨rfl, hnow.enterBuffer hlosing (Buffer.marked_of_settings marks hmade)⟩
      · exact hnow.answer _
    · split
      · next buffer hmade =>
        exact ⟨rfl, hnow.enterBuffer hlosing (Buffer.marked_of_new marks hmade)⟩
      · exact hnow.answer _
  | info name =>
    refine hnow.expect (h.buffers name) fun a b _ hab => ?_
    rw [hab.eq, Buffer.info_marked]
    exact hnow.answer _
  | release name =>
    refine hnow.expect (h.buffers name) fun a b _ hab => ?_
    rw [hab.eq]
    exact (herased name).run (Buffer.matches_release a _ _ hnow.store) fun _ _ _ _ _ hnext =>
      hnext.answer _
  | drop name =>
    refine hnow.expect (h.buffers name) fun a b hname hab => ?_
    have hhome : losing = a.home := hlosing.trans (homeOf_eq hname)
    rw [hab.eq]
    exact (herased name).run (Buffer.matches_drop (hhome ▸ hab.chunks) _ _ hnow.store)
      fun _ _ _ _ _ hnext => hnext.answer _
  | request name request =>
    refine hnow.expect (h.buffers name) fun a b _ hab => ?_
    have hruns := Buffer.matches_request request (a, s.store) (b, t.store) ⟨hab, h.store⟩
    have hput {u v : Buffer × Store} (hab : Buffer.Marked marks a.home u.1 v.1)
        (hstore : Store.Marked marks losing s₀ t₀ u.2 v.2) :
        Marked marks (Store.Marked marks losing s₀ t₀)
          { s with store := u.2, buffers := s.buffers.put name u.1 }
          { t with store := v.2, buffers := t.buffers.put name v.1 } :=
      { hnow with store := hstore, buffers := h.buffers.put (hab.home_eq.symm ▸ hab) }
    generalize request.run (a, s.store) = one, request.run (b, t.store) = two at hruns ⊢
    cases hruns with
    | ok hout hnext =>
      subst hout
      refine ⟨?_, hput hnext.1 hnext.2.toMarked⟩
      show Answer.request _ _ = .request _ _
      rw [hnext.1.eq, Buffer.info_marked]
    | error abort hnext =>
      refine ⟨?_, hput hnext.1 hnext.2⟩
      show Answer.request _ _ = .request _ _
      rw [hnext.1.eq, Buffer.info_marked]

/-- The line about a thing is the same in both. -/
theorem Marked.describe (h : Marked marks (Store.Marked marks losing s₀ t₀) s t) (name : String) :
    t.describe? name = s.describe? name := by
  unfold describe?
  rw [h.pools, h.tickets]
  cases s.pools.get? name with
  | some number =>
    dsimp only
    rw [(h.store.pool number).generation_eq]
  | none =>
    have hloan := h.loans name
    generalize s.loans.get? name = one, t.loans.get? name = other at hloan ⊢
    cases hloan with
    | some hab =>
      subst hab
      dsimp only
      rw [Loan.len_marked, Loan.capacity_marked, Loan.generation_marked]
    | none =>
      cases s.tickets.get? name with
      | some ticket => rfl
      | none =>
        have harena := h.arenas name
        generalize s.arenas.get? name = one, t.arenas.get? name = other at harena ⊢
        cases harena with
        | some hab =>
          dsimp only
          rw [hab.eq, Arena.marked, List.length_map]
        | none =>
          have hbuffer := h.buffers name
          generalize s.buffers.get? name = one, t.buffers.get? name = other at hbuffer ⊢
          cases hbuffer with
          | some hab =>
            rw [Option.map_some, Option.map_some, hab.eq, Buffer.marked, List.length_map]
          | none => rfl

/-- **Every command that is no switch** goes alike on sessions that are the same but for the
marks. A loan is detached under the generation that is on its slot. -/
theorem Marked.step (h : Marked marks (Store.Lends marks losing s₀ t₀) s t) {command : Command}
    (hswitch : command.isSwitch = false) (hlosing : losing = s.losesTo command)
    (hslots : ∀ name lease, s.loans.get? name = some (.pooled lease) →
      ((s.store.pool lease.home).slotAt lease.slot).generation = lease.generation) :
    GoAlike marks losing s₀ t₀ (s.step command) (t.step command) := by
  cases command with
  | pool command => exact h.poolStep command hlosing
  | loan command => exact h.loanStep command hlosing hslots
  | ticket command => exact h.ticketStep command hlosing
  | arena command => exact h.arenaStep command hlosing
  | message command => exact h.messageStep command hlosing
  | buffer command => exact h.bufferStep command hlosing
  | watch command =>
    cases command with
    | install tracker => cases hswitch
    | trace on => cases hswitch
    | describe name =>
      exact h.weaken.expect_eq (h.weaken.describe name) fun text _ => h.weaken.answer _

/-! ## Other marks -/

/-- **Other marks that are the same for all that is held**, on stores that may be related in
another way. -/
theorem Marked.congr (h : Marked marks R s t) {marks' : Marks} (hstore : S s.store t.store)
    (hheld : ∀ loan ∈ s.holdings, loan.marked marks' = loan.marked marks) :
    Marked marks' S s t := by
  have hchunks {chunks : List Loan} (hall : ∀ chunk ∈ chunks, chunk ∈ s.holdings) :
      chunks.map (Loan.marked marks) = chunks.map (Loan.marked marks') :=
    List.map_congr_left fun chunk hchunk => (hheld chunk (hall chunk hchunk)).symm
  have harena (name : String) (a b : Arena) (ha : s.arenas.get? name = some a)
      (hab : Arena.Marked marks a.home a b) : Arena.Marked marks' a.home a b := by
    refine ⟨?_, rfl, hab.chunks⟩
    rw [hab.eq, Arena.marked, Arena.marked, hchunks fun chunk hchunk => ?_]
    obtain ⟨position, hposition⟩ := List.getElem?_of_mem hchunk
    exact mem_holdings.mpr ⟨.chunk name position, by rw [held, ha]; exact hposition⟩
  have hbuffer (name : String) (a b : Buffer) (ha : s.buffers.get? name = some a)
      (hab : Buffer.Marked marks a.home a b) : Buffer.Marked marks' a.home a b := by
    refine ⟨?_, rfl, hab.chunks⟩
    rw [hab.eq, Buffer.marked, Buffer.marked]
    congr 1
    refine hchunks fun chunk hchunk => ?_
    obtain ⟨position, hposition⟩ := List.getElem?_of_mem hchunk
    exact mem_holdings.mpr ⟨.piece name position, by rw [held, ha]; exact hposition⟩
  exact { h with
    store := hstore
    loans := h.loans.imp fun name a b ha hab =>
      hab.trans (hheld a (mem_holdings.mpr ⟨.loan name, ha⟩)).symm
    arenas := h.arenas.imp harena
    buffers := h.buffers.imp hbuffer }

end Session

end Wirepool
