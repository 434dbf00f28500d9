import Wirepool.Proofs.Arena.Beside
import Wirepool.Proofs.Session.Packing

/-!
# Two sessions side by side

Two figures of a session have no say in what it does: how often a pool left a request to
the system, and how much was charged to an arena, as long as there is room for more. A
session that is ahead of another in these figures and is the same otherwise answers every
command as the other one does, the figures apart, and stays ahead by as much. What is said
of one command goes for a row of them.

An arena that is ahead can become the same again, when it is reset or replaced. It is
never ahead by anything else. So there is one thing that can make a difference: a command
that asks an arena which is still ahead, where its length would leave room in the other
session.
-/

namespace Wirepool

/-- **How far figures are ahead**: for each pool, by number, that of the requests it left to
the system, and for each arena, by name, its length. -/
structure Surplus where
  bypassed : Nat → Nat
  length : String → Nat

/-! ## Tables -/

namespace Table

variable {α : Type} {Q : String → α → α → Prop} {t u : Table α}

/-- **Two tables agree**: under each name both have nothing, or things that are related. -/
def Agree (Q : String → α → α → Prop) (t u : Table α) : Prop :=
  ∀ name, Option.Rel (Q name) (t.get? name) (u.get? name)

/-- Things that are related can be entered. -/
theorem Agree.put (h : Agree Q t u) {name : String} {a b : α} (hab : Q name a b) :
    Agree Q (t.put name a) (u.put name b) := by
  intro other
  rw [get?_put, get?_put]
  by_cases hname : other = name
  · rw [if_pos hname, if_pos hname, hname]
    exact .some hab
  · rw [if_neg hname, if_neg hname]
    exact h other

/-- What follows for the things in both. -/
theorem Agree.imp {Q' : String → α → α → Prop} (h : Agree Q t u)
    (himp : ∀ name a b, t.get? name = some a → Q name a b → Q' name a b) : Agree Q' t u := by
  intro name
  have hrel := h name
  have hthing := himp name
  generalize t.get? name = one, u.get? name = other at hrel hthing ⊢
  cases hrel with
  | none => exact .none
  | some hab => exact .some (hthing _ _ rfl hab)

/-- A name can be taken out of both. -/
theorem Agree.erase (h : Agree Q t u) (name : String) : Agree Q (t.erase name) (u.erase name) := by
  intro other
  rw [get?_erase, get?_erase]
  by_cases hname : other = name
  · rw [if_pos hname, if_pos hname]
    exact .none
  · rw [if_neg hname, if_neg hname]
    exact h other

end Table

/-! ## Answers -/

/-- What is told of an arena with more charged. -/
def ArenaInfo.longer (info : ArenaInfo) (more : Nat) : ArenaInfo :=
  { info with length := info.length + more }

/-- The line about an arena. -/
def ArenaInfo.line (info : ArenaInfo) : String :=
  Session.line "Arena" [("size", info.size), ("length", info.length), ("chunks", info.chunks)]

/-- **Answers that are the same, the figures apart.** -/
inductive Answer.Ahead (σ : Surplus) : Answer → Answer → Prop
  | same (answer : Answer) : Ahead σ answer answer
  | figures (number : Nat) (p : Pool) :
    Ahead σ (.figures (p.ahead (σ.bypassed number))) (.figures p)
  | arena {name : String} {d : Nat} (hd : d = 0 ∨ d = σ.length name) (info : ArenaInfo) :
    Ahead σ (.arena (info.longer d)) (.arena info)
  | slice {name : String} {d : Nat} (hd : d = 0 ∨ d = σ.length name) (length : Nat)
    (info : ArenaInfo) : Ahead σ (.slice length (info.longer d)) (.slice length info)
  | encodedInArena {name : String} {d : Nat} (hd : d = 0 ∨ d = σ.length name)
    (encoded : Encoded (List UInt8)) (info : ArenaInfo) :
    Ahead σ (.encodedInArena encoded (info.longer d)) (.encodedInArena encoded info)
  | decoded {name : String} {d : Nat} (hd : d = 0 ∨ d = σ.length name) (sights : List Sight)
    (result : Except Failure Unit) (info : ArenaInfo) :
    Ahead σ (.decoded sights result (some (info.longer d))) (.decoded sights result (some info))
  | line {name : String} {d : Nat} (hd : d = 0 ∨ d = σ.length name) (info : ArenaInfo) :
    Ahead σ (.line (info.longer d).line) (.line info.line)

namespace Session

variable {σ : Surplus} {s₀ t₀ : Store} {s t : Session}

/-- **A session is ahead of another**, and told the same since the two stores were as
given. -/
structure Ahead (σ : Surplus) (s₀ t₀ : Store) (s t : Session) : Prop where
  store : Store.Ahead σ.bypassed s₀ t₀ s.store t.store
  shared : s.shared = t.shared
  pools : s.pools = t.pools
  loans : s.loans = t.loans
  tickets : s.tickets = t.tickets
  slices : s.slices = t.slices
  arenas : Table.Agree (fun name => Arena.Ahead (σ.length name)) s.arenas t.arenas
  buffers : ∀ name, s.buffers.get? name = t.buffers.get? name

/-- **What a command asks an arena for crowds it**, and would not crowd the arena of the same name
in the second session. -/
def Crowds (s t : Session) (name : String) (command : Command) : Prop :=
  ∃ a b, s.arenas.get? name = some a ∧ t.arenas.get? name = some b ∧
    Arena.Crowded (t.asks name command) a b

/-- **Two steps go together**: the answers are the same, the figures apart, and one session
is ahead of the other. The session that is ahead is excused by a length that is full, if an
arena is crowded. -/
def GoTogether (crowded : Prop) (σ : Surplus) (s₀ t₀ : Store) (x y : Step) : Prop :=
  x.1 = .aborted .lengthOverflow ∧ crowded ∨ Answer.Ahead σ x.1 y.1 ∧ Ahead σ s₀ t₀ x.2 y.2

/-! ## The parts of a command -/

variable {crowded : Prop}

/-- The same answer. -/
theorem Ahead.answer (h : Ahead σ s₀ t₀ s t) (answer : Answer) :
    GoTogether crowded σ s₀ t₀ (answer, s) (answer, t) :=
  .inr ⟨.same answer, h⟩

/-- What goes on with a thing, if the things are related. -/
theorem Ahead.expect {α : Type} {Q : α → α → Prop} {one other : Option α} {go go' : α → Step}
    (h : Ahead σ s₀ t₀ s t) (hthing : Option.Rel Q one other)
    (hgo : ∀ a b, one = some a → other = some b → Q a b →
      GoTogether crowded σ s₀ t₀ (go a) (go' b)) :
    GoTogether crowded σ s₀ t₀ (s.expect one go) (t.expect other go') := by
  cases hthing with
  | some hab => exact hgo _ _ rfl rfl hab
  | none => exact h.answer .misuse

/-- What goes on with the same thing. -/
theorem Ahead.expect_eq {α : Type} {one other : Option α} {go go' : α → Step}
    (h : Ahead σ s₀ t₀ s t) (hthing : one = other)
    (hgo : ∀ a, other = some a → GoTogether crowded σ s₀ t₀ (go a) (go' a)) :
    GoTogether crowded σ s₀ t₀ (s.expect one go) (t.expect other go') := by
  subst hthing
  cases one with
  | some a => exact hgo a rfl
  | none => exact h.answer .misuse

/-- What goes on with an answer of the store. -/
theorem Ahead.run {α : Type} {action : StoreM α} {go go' : α → Session → Step}
    (h : Ahead σ s₀ t₀ s t)
    (haction : InStep (Store.Ahead σ.bypassed s₀ t₀) (fun _ => False) action action)
    (hgo : ∀ a s t, Ahead σ s₀ t₀ s t → GoTogether crowded σ s₀ t₀ (go a s) (go' a t)) :
    GoTogether crowded σ s₀ t₀ (s.run action go) (t.run action go') := by
  have hruns := haction _ _ h.store
  unfold Session.run
  generalize action s.store = one, action t.store = two at hruns ⊢
  cases hruns with
  | ok a hstore => exact hgo a _ _ { h with store := hstore }
  | error abort hstore =>
    exact .inr ⟨.same _, { h with store := hstore }⟩
  | excused hexcused => exact hexcused.elim

/-- What goes on with an answer of an arena. -/
theorem Ahead.runArena {α : Type} {name : String} {a b : Arena} {action : HolderM Arena α}
    {go go' : α → Arena → Session → Step} (h : Ahead σ s₀ t₀ s t)
    {excused : Abort → Prop} (haction : Together (HolderM.Beside (Arena.Ahead (σ.length name))
      (Store.Ahead σ.bypassed s₀ t₀)) excused (action (a, s.store)) (action (b, t.store)))
    (hexcused : ∀ abort, excused abort → abort = .lengthOverflow ∧ crowded)
    (hgo : ∀ x a b s t, Arena.Ahead (σ.length name) a b → Ahead σ s₀ t₀ s t →
      GoTogether crowded σ s₀ t₀ (go x a s) (go' x b t)) :
    GoTogether crowded σ s₀ t₀ (s.runArena name a action go) (t.runArena name b action go') := by
  unfold Session.runArena
  generalize action (a, s.store) = one, action (b, t.store) = two at haction ⊢
  cases haction with
  | ok x hnext =>
    exact hgo x _ _ _ _ hnext.1 { h with store := hnext.2, arenas := h.arenas.put hnext.1 }
  | error abort hnext =>
    exact .inr ⟨.same _, { h with store := hnext.2, arenas := h.arenas.put hnext.1 }⟩
  | excused h =>
    obtain ⟨rfl, hcrowded⟩ := hexcused _ h
    exact .inl ⟨rfl, hcrowded⟩

/-- **What is asked of an arena**: what goes on with its answer, unless the arena is crowded. -/
theorem Ahead.askArena {α : Type} {name : String} {command : Command} {lengths : List Nat}
    {action : HolderM Arena α} {go go' : α → Arena → Session → Step} (h : Ahead σ s₀ t₀ s t)
    (hasks : t.asks name command = lengths)
    (haction : ∀ a b, Arena.Ahead (σ.length name) a b →
      Together (HolderM.Beside (Arena.Ahead (σ.length name)) (Store.Ahead σ.bypassed s₀ t₀))
        (Arena.Overfull lengths a b) (action (a, s.store)) (action (b, t.store)))
    (hgo : ∀ x a b u v, Arena.Ahead (σ.length name) a b → Ahead σ s₀ t₀ u v →
      GoTogether (∃ name, s.Crowds t name command) σ s₀ t₀ (go x a u) (go' x b v)) :
    GoTogether (∃ name, s.Crowds t name command) σ s₀ t₀
      (s.expect (s.arenas.get? name) fun a => s.runArena name a action go)
      (t.expect (t.arenas.get? name) fun b => t.runArena name b action go') :=
  h.expect (h.arenas name) fun a b ha hb hab => h.runArena (haction a b hab)
    (fun _ hfull => ⟨hfull.1, name, a, b, ha, hb, hasks ▸ hfull.2⟩) hgo

/-! ## Entering things -/

/-- What is dropped is dropped in both. -/
theorem Ahead.letGo {α : Type} (h : Ahead σ s₀ t₀ s t) (thing : Option α) {drop : α → StoreM Unit}
    (hdrop : ∀ a, InStep (Store.Ahead σ.bypassed s₀ t₀) (fun _ => False) (drop a) (drop a)) :
    Ahead σ s₀ t₀ (s.letGo thing drop) (t.letGo thing drop) := by
  cases thing with
  | some a => exact { h with store := h.store.after (hdrop a) }
  | none => exact h

theorem Ahead.enterLoan (h : Ahead σ s₀ t₀ s t) (name : String) (loan : Loan) :
    Ahead σ s₀ t₀ (s.enterLoan name loan) (t.enterLoan name loan) := by
  unfold Session.enterLoan
  rw [h.loans]
  exact { h.letGo (t.loans.get? name) Store.inStep_lose with loans := rfl }

theorem Ahead.enterTicket (h : Ahead σ s₀ t₀ s t) (name : String) (ticket : Ticket) :
    Ahead σ s₀ t₀ (s.enterTicket name ticket) (t.enterTicket name ticket) := by
  unfold Session.enterTicket
  rw [h.tickets]
  exact { h.letGo (t.tickets.get? name) Store.inStep_discardTicket with tickets := rfl }

/-- The slices of an arena end in both. -/
theorem Ahead.endSlices (h : Ahead σ s₀ t₀ s t) (name : String) :
    Ahead σ s₀ t₀ (s.endSlices name) (t.endSlices name) := by
  unfold Session.endSlices
  rw [h.slices]
  exact { h with slices := rfl }

theorem Ahead.enterArena (h : Ahead σ s₀ t₀ s t) (name : String) (arena : Arena) :
    Ahead σ s₀ t₀ (s.enterArena name arena) (t.enterArena name arena) := by
  -- the arena that goes may be ahead, and is dropped all the same
  have hgone : Ahead σ s₀ t₀ (s.letGo (s.arenas.get? name) Arena.drop)
      (t.letGo (t.arenas.get? name) Arena.drop) := by
    have hrel := h.arenas name
    generalize s.arenas.get? name = one, t.arenas.get? name = two at hrel ⊢
    cases hrel with
    | some hab =>
      obtain ⟨d, -, rfl⟩ := hab
      exact { h with store := h.store.after (Arena.inStep_drop _) }
    | none => exact h
  exact { hgone.endSlices name with arenas := h.arenas.put (.refl _ arena) }

theorem Ahead.enterBuffer (h : Ahead σ s₀ t₀ s t) (name : String) (buffer : Buffer) :
    Ahead σ s₀ t₀ (s.enterBuffer name buffer) (t.enterBuffer name buffer) := by
  unfold Session.enterBuffer
  rw [h.buffers]
  exact { h.letGo (t.buffers.get? name) Buffer.inStep_drop with
    buffers := fun other => by rw [Table.get?_put, Table.get?_put, h.buffers] }

theorem Ahead.enterSlice (h : Ahead σ s₀ t₀ s t) (arena : String) (slice : Slice)
    (name : Option String) :
    Ahead σ s₀ t₀ (s.enterSlice arena slice name) (t.enterSlice arena slice name) := by
  cases name with
  | some name => exact { h with slices := congrArg (Table.put · name (arena, slice)) h.slices }
  | none => exact h

/-! ## Every command -/

/-- Commands on pools. -/
theorem Ahead.poolStep (h : Ahead σ s₀ t₀ s t) (command : PoolCommand) :
    GoTogether crowded σ s₀ t₀ (s.poolStep command) (t.poolStep command) := by
  have hpool (name : String) : s.pools.get? name = t.pools.get? name := by rw [h.pools]
  have hadded : Store.Ahead σ.bypassed s₀ t₀ s.store.addPool.2 t.store.addPool.2 :=
    { h.store with
      length_eq := by
        show (s.store.pools ++ [_]).length = (t.store.pools ++ [_]).length
        rw [List.length_append, List.length_append, h.store.length_eq]
      pool_eq := fun number => by rw [pool_addPool, pool_addPool, h.store.pool_eq] }
  cases command with
  | make name =>
    refine .inr ⟨.same _, { h with store := hadded, pools := ?_ }⟩
    exact congrArg₂ (Table.put · name ·) h.pools h.store.length_eq
  | shared name =>
    cases hshared : t.shared with
    | some number =>
      simp only [Session.poolStep, h.shared.trans hshared, hshared]
      refine .inr ⟨.same _, { h with shared := rfl, pools := ?_ }⟩
      exact congrArg (Table.put · name number) h.pools
    | none =>
      simp only [Session.poolStep, h.shared.trans hshared, hshared]
      refine .inr ⟨.same _, { h with store := hadded, shared := ?_, pools := ?_ }⟩
      · exact congrArg some h.store.length_eq
      · exact congrArg₂ (Table.put · name ·) h.pools h.store.length_eq
  | clone pool name =>
    exact h.expect_eq (hpool pool) fun number _ =>
      .inr ⟨.same _, { h with pools := congrArg (Table.put · name number) h.pools }⟩
  | forget pool =>
    exact h.expect_eq (hpool pool) fun number _ =>
      .inr ⟨.same _, { h with pools := congrArg (Table.erase · pool) h.pools }⟩
  | same first second =>
    exact h.expect_eq (hpool first) fun _ _ => h.expect_eq (hpool second) fun _ _ => h.answer _
  | figures pool =>
    refine h.expect_eq (hpool pool) fun number _ => .inr ⟨?_, h⟩
    dsimp only
    rw [h.store.pool_eq]
    exact .figures number _
  | classFigures pool capacity =>
    refine h.expect_eq (hpool pool) fun number _ => ?_
    rw [h.store.pool_eq]
    exact h.answer _
  | borrow pool len zero name =>
    exact h.expect_eq (hpool pool) fun number _ =>
      h.run (Store.inStep_borrow number len zero) fun loan _ _ hnext =>
        (hnext.enterLoan name loan).answer _
  | concat pool parts name =>
    exact h.expect_eq (hpool pool) fun number _ =>
      h.run (Store.inStep_concat number parts) fun loan _ _ hnext =>
        (hnext.enterLoan name loan).answer _

/-- A loan can be taken out of both. -/
theorem Ahead.eraseLoan (h : Ahead σ s₀ t₀ s t) (name : String) :
    Ahead σ s₀ t₀ { s with loans := s.loans.erase name } { t with loans := t.loans.erase name } :=
  { h with loans := congrArg (Table.erase · name) h.loans }

/-- Commands on loans. -/
theorem Ahead.loanStep (h : Ahead σ s₀ t₀ s t) (command : LoanCommand) :
    GoTogether crowded σ s₀ t₀ (s.loanStep command) (t.loanStep command) := by
  have hloan (name : String) : s.loans.get? name = t.loans.get? name := by rw [h.loans]
  cases command with
  | idle name => exact (h.enterLoan name .idle).answer _
  | info name => exact h.expect_eq (hloan name) fun _ _ => h.answer _
  | fill name value stretch =>
    exact h.expect_eq (hloan name) fun loan _ =>
      .inr ⟨.same _, { h with loans := congrArg (Table.put · name _) h.loans }⟩
  | dump name stretch => exact h.expect_eq (hloan name) fun _ _ => h.answer _
  | runs name stretch => exact h.expect_eq (hloan name) fun _ _ => h.answer _
  | release name =>
    exact h.expect_eq (hloan name) fun loan _ =>
      (h.eraseLoan name).run (Store.inStep_release loan) fun _ _ _ hnext => hnext.answer _
  | drop name =>
    exact h.expect_eq (hloan name) fun loan _ =>
      (h.eraseLoan name).run (Store.inStep_lose loan) fun _ _ _ hnext => hnext.answer _
  | detach loanName name =>
    exact h.expect_eq (hloan loanName) fun loan _ =>
      (h.eraseLoan loanName).run (Store.inStep_detach loan) fun ticket _ _ hnext =>
        (hnext.enterTicket name ticket).answer _

/-- Commands on tickets. -/
theorem Ahead.ticketStep (h : Ahead σ s₀ t₀ s t) (command : TicketCommand) :
    GoTogether crowded σ s₀ t₀ (s.ticketStep command) (t.ticketStep command) := by
  have hticket (name : String) : s.tickets.get? name = t.tickets.get? name := by rw [h.tickets]
  have herased (name : String) : Ahead σ s₀ t₀ { s with tickets := s.tickets.erase name }
      { t with tickets := t.tickets.erase name } :=
    { h with tickets := congrArg (Table.erase · name) h.tickets }
  cases command with
  | idle name => exact (h.enterTicket name .idle).answer _
  | info name => exact h.expect_eq (hticket name) fun _ _ => h.answer _
  | clone held name =>
    exact h.expect_eq (hticket held) fun ticket _ =>
      h.run (Store.inStep_copyTicket ticket) fun copy _ _ hnext =>
        (hnext.enterTicket name copy).answer _
  | redeem name =>
    exact h.expect_eq (hticket name) fun ticket _ =>
      (herased name).run (Store.inStep_redeem ticket) fun _ _ _ hnext => hnext.answer _
  | discard name =>
    exact h.expect_eq (hticket name) fun ticket _ =>
      (herased name).run (Store.inStep_discardTicket ticket) fun _ _ _ hnext => hnext.answer _

/-- A slice is found in both, in arenas that are related. -/
theorem Ahead.slice (h : Ahead σ s₀ t₀ s t) (name : String) :
    Option.Rel (fun one other => ∃ d, (d = 0 ∨ d = σ.length other.1) ∧
      one = (other.1, other.2.1.longer d, other.2.2)) (s.slice? name) (t.slice? name) := by
  unfold Session.slice?
  rw [h.slices]
  cases t.slices.get? name with
  | none => exact .none
  | some entry =>
    obtain ⟨arenaName, slice⟩ := entry
    have hrel := h.arenas arenaName
    show Option.Rel _ ((s.arenas.get? arenaName).bind _) ((t.arenas.get? arenaName).bind _)
    generalize s.arenas.get? arenaName = one, t.arenas.get? arenaName = two at hrel ⊢
    cases hrel with
    | some hab =>
      obtain ⟨d, hd, rfl⟩ := hab
      exact .some ⟨d, hd, rfl⟩
    | none => exact .none

/-- Commands on arenas and slices. -/
theorem Ahead.arenaStep (h : Ahead σ s₀ t₀ s t) (command : ArenaCommand) :
    GoTogether (∃ name, s.Crowds t name (.arena command)) σ s₀ t₀ (s.arenaStep command)
      (t.arenaStep command) := by
  have herased (name : String) :
      Ahead σ s₀ t₀ { s.endSlices name with arenas := s.arenas.erase name }
        { t.endSlices name with arenas := t.arenas.erase name } :=
    { h.endSlices name with arenas := h.arenas.erase name }
  cases command with
  | make pool size checked name =>
    refine h.expect_eq (by rw [h.pools]) fun home _ => ?_
    dsimp only
    split
    · next arena _ => exact .inr ⟨.same _, h.enterArena name arena⟩
    · exact h.answer _
  | info name =>
    refine h.expect (h.arenas name) fun a b _ _ hab => ?_
    obtain ⟨d, hd, rfl⟩ := hab
    exact .inr ⟨.arena hd b.info, h⟩
  | get name len zero sliceName =>
    refine h.askArena (if_pos rfl) (fun a b hab => Arena.together_get len zero hab h.store)
      fun slice a b s t hab hnext => ?_
    obtain ⟨d, hd, rfl⟩ := hab
    exact .inr ⟨.slice hd slice.length b.info, hnext.enterSlice name slice sliceName⟩
  | copy name row sliceName =>
    refine h.askArena (if_pos rfl) (fun a b hab => Arena.together_copy row hab h.store)
      fun slice a b s t hab hnext => ?_
    obtain ⟨d, hd, rfl⟩ := hab
    exact .inr ⟨.slice hd slice.length b.info, hnext.enterSlice name slice sliceName⟩
  | fill sliceName value =>
    refine h.expect (h.slice sliceName) ?_
    rintro _ ⟨name, b, slice⟩ - - ⟨d, hd, rfl⟩
    exact .inr ⟨.same _, { h with arenas := h.arenas.put ⟨d, hd, rfl⟩ }⟩
  | dump sliceName stretch =>
    refine h.expect (h.slice sliceName) ?_
    rintro _ ⟨name, b, slice⟩ - - ⟨d, hd, rfl⟩
    exact h.answer _
  | runs sliceName stretch =>
    refine h.expect (h.slice sliceName) ?_
    rintro _ ⟨name, b, slice⟩ - - ⟨d, hd, rfl⟩
    exact h.answer _
  | reset name =>
    refine h.expect (h.arenas name) fun a b _ _ hab =>
      (h.endSlices name).runArena (Arena.inStep_reset _ _ ⟨hab, h.store⟩)
        (fun _ => False.elim) fun _ a b s t hab hnext => ?_
    obtain ⟨d, hd, rfl⟩ := hab
    exact .inr ⟨.arena hd b.info, hnext⟩
  | release name =>
    refine h.expect (h.arenas name) fun a b _ _ hab => ?_
    obtain ⟨d, -, rfl⟩ := hab
    exact (herased name).run (Arena.inStep_release b) fun _ _ _ hnext => hnext.answer _
  | drop name =>
    refine h.expect (h.arenas name) fun a b _ _ hab => ?_
    obtain ⟨d, -, rfl⟩ := hab
    exact (herased name).run (Arena.inStep_drop b) fun _ _ _ hnext => hnext.answer _

/-- A source has the same bytes in both. -/
theorem Ahead.sourceBytes (h : Ahead σ s₀ t₀ s t) (source : Source) :
    s.sourceBytes? source = t.sourceBytes? source := by
  cases source with
  | loan name =>
    unfold Session.sourceBytes?
    rw [h.loans]
  | slice name =>
    have hrel := h.slice name
    unfold Session.sourceBytes?
    dsimp only
    generalize s.slice? name = one, t.slice? name = two at hrel ⊢
    cases hrel with
    | some hrel =>
      obtain ⟨d, -, rfl⟩ := hrel
      rfl
    | none => rfl
  | bytes row => rfl

/-- Commands on messages. -/
theorem Ahead.messageStep (h : Ahead σ s₀ t₀ s t) (command : MessageCommand) :
    GoTogether (∃ name, s.Crowds t name (.message command)) σ s₀ t₀ (s.messageStep command)
      (t.messageStep command) := by
  cases command with
  | encode pool order script name =>
    have hgo {crowded : Prop} (home : Option Nat) : GoTogether crowded σ s₀ t₀
        (s.run (script.encode order home) fun encoded s => s.enterEncoded name encoded)
        (t.run (script.encode order home) fun encoded s => s.enterEncoded name encoded) := by
      refine h.run (script.inStep_encode order home) fun encoded s t hnext => ?_
      unfold enterEncoded
      dsimp only
      split
      · next loan _ => exact (hnext.enterLoan name loan).answer _
      · exact hnext.answer _
    cases pool with
    | none => exact hgo none
    | some pool => exact h.expect_eq (by rw [h.pools]) fun home _ => hgo (some home)
  | encodeInArena name order script sliceName =>
    refine h.askArena (if_pos rfl)
      (fun a b hab => script.together_encodeInArena order hab h.store)
      fun encoded a b s t hab hnext => ?_
    obtain ⟨d, hd, rfl⟩ := hab
    dsimp only
    split
    · next slice _ =>
      exact .inr ⟨.encodedInArena hd _ b.info, hnext.enterSlice name slice sliceName⟩
    · exact .inr ⟨.encodedInArena hd _ b.info, hnext⟩
  | decode source arenaName order calls fallible =>
    refine h.expect_eq (h.sourceBytes source) fun input hinput => ?_
    cases arenaName with
    | none => exact h.answer _
    | some name =>
      have hasks : t.asks name (.message (.decode source (some name) order calls fallible)) =
          (Wirepool.decode order input calls fallible).1.toArena.map List.length := by
        rw [asks, if_pos rfl, hinput]
      refine h.askArena hasks (fun a b hab => Arena.together_copies _ hab h.store)
        fun _ a b s t hab hnext => ?_
      obtain ⟨d, hd, rfl⟩ := hab
      exact .inr ⟨.decoded hd _ _ b.info, hnext⟩

/-- A buffer is put back in both, with the stores behind what was asked of it. -/
theorem Ahead.putBuffer (h : Ahead σ s₀ t₀ s t) (name : String) (buffer : Buffer) {u v : Store}
    (hstore : Store.Ahead σ.bypassed s₀ t₀ u v) :
    Ahead σ s₀ t₀ { s with store := u, buffers := s.buffers.put name buffer }
      { t with store := v, buffers := t.buffers.put name buffer } :=
  { h with
    store := hstore
    buffers := fun other => by rw [Table.get?_put, Table.get?_put, h.buffers] }

/-- Requests to buffers. -/
theorem Ahead.requestStep (h : Ahead σ s₀ t₀ s t) (name : String) (request : BufferRequest) :
    GoTogether crowded σ s₀ t₀ (s.bufferStep (.request name request))
      (t.bufferStep (.request name request)) := by
  refine h.expect_eq (h.buffers name) fun buffer _ => ?_
  have hruns : Together (HolderM.Beside Eq (Store.Ahead σ.bypassed s₀ t₀)) (fun _ => False)
      (request.run (buffer, s.store)) (request.run (buffer, t.store)) :=
    Buffer.inStep_request request _ _ ⟨rfl, h.store⟩
  generalize request.run (buffer, s.store) = one, request.run (buffer, t.store) = two at hruns ⊢
  cases hruns with
  | @ok outcome u v hnext =>
    obtain ⟨b, u⟩ := u
    obtain ⟨rfl, hstore⟩ := hnext
    exact .inr ⟨.same _, h.putBuffer name _ hstore⟩
  | @error abort u v hnext =>
    obtain ⟨b, u⟩ := u
    obtain ⟨rfl, hstore⟩ := hnext
    exact .inr ⟨.same _, h.putBuffer name _ hstore⟩
  | excused hexcused => exact hexcused.elim

/-- Commands on buffers. -/
theorem Ahead.bufferStep (h : Ahead σ s₀ t₀ s t) (command : BufferCommand) :
    GoTogether crowded σ s₀ t₀ (s.bufferStep command) (t.bufferStep command) := by
  have herased (name : String) : Ahead σ s₀ t₀ { s with buffers := s.buffers.erase name }
      { t with buffers := t.buffers.erase name } :=
    { h with buffers := fun other => by rw [Table.get?_erase, Table.get?_erase, h.buffers] }
  cases command with
  | make pool chunkSize checked name =>
    refine h.expect_eq (by rw [h.pools]) fun home _ => ?_
    dsimp only
    split
    · split
      · next buffer _ => exact (h.enterBuffer name buffer).answer _
      · exact h.answer _
    · split
      · next buffer _ => exact (h.enterBuffer name buffer).answer _
      · exact h.answer _
  | info name => exact h.expect_eq (h.buffers name) fun _ _ => h.answer _
  | release name =>
    exact h.expect_eq (h.buffers name) fun buffer _ =>
      (herased name).run (Buffer.inStep_release buffer) fun _ _ _ hnext => hnext.answer _
  | drop name =>
    exact h.expect_eq (h.buffers name) fun buffer _ =>
      (herased name).run (Buffer.inStep_drop buffer) fun _ _ _ hnext => hnext.answer _
  | request name request => exact h.requestStep name request

/-- Commands on the watch. -/
theorem Ahead.watchStep (h : Ahead σ s₀ t₀ s t) (command : WatchCommand) :
    GoTogether crowded σ s₀ t₀ (s.watchStep command) (t.watchStep command) := by
  cases command with
  | install tracker => exact .inr ⟨.same _, { h with store := { h.store with tracker_eq := rfl } }⟩
  | trace on => exact .inr ⟨.same _, { h with store := { h.store with tracing_eq := rfl } }⟩
  | describe name =>
    have hline : Option.Rel (fun one other => Answer.Ahead σ (.line one) (.line other))
        (s.describe? name) (t.describe? name) := by
      unfold describe?
      rw [h.pools, h.loans, h.tickets, h.buffers]
      cases t.pools.get? name with
      | some number =>
        dsimp only
        rw [h.store.pool_eq]
        exact .some (.same _)
      | none =>
      cases t.loans.get? name with
      | some loan => exact .some (.same _)
      | none =>
      cases t.tickets.get? name with
      | some ticket => exact .some (.same _)
      | none =>
      have hrel := h.arenas name
      generalize s.arenas.get? name = one, t.arenas.get? name = two at hrel ⊢
      cases hrel with
      | @some _ b hab =>
        obtain ⟨d, hd, rfl⟩ := hab
        have hline : Answer.Ahead σ (.line (b.info.longer d).line) (.line b.info.line) :=
          .line hd b.info
        unfold ArenaInfo.line at hline
        exact .some hline
      | none =>
      cases t.buffers.get? name with
      | some buffer => exact .some (.same _)
      | none => exact .none
    exact h.expect hline fun one other _ _ hanswer => .inr ⟨hanswer, h⟩

/-- **Every command** does the same in two sessions of which one is ahead, the figures
apart. -/
theorem Ahead.step (h : Ahead σ s₀ t₀ s t) (command : Command) :
    GoTogether (∃ name, s.Crowds t name command) σ s₀ t₀ (s.step command) (t.step command) := by
  cases command with
  | pool command => exact h.poolStep command
  | loan command => exact h.loanStep command
  | ticket command => exact h.ticketStep command
  | arena command => exact h.arenaStep command
  | message command => exact h.messageStep command
  | buffer command => exact h.bufferStep command
  | watch command => exact h.watchStep command

/-! ## Rows of commands -/

/-- **The same is seen, the figures apart**: the answers, and what is told and reported
meanwhile. -/
structure Seen.Ahead (σ : Surplus) (one other : Seen) : Prop where
  answer : Answer.Ahead σ one.answer other.answer
  events : one.events = other.events
  deliveries : one.deliveries = other.deliveries

/-- What is told in both is new in both. -/
theorem news_eq {α : Type} {before before' now now' : List α}
    (h : ToldSame before before' now now') : news before.length now = news before'.length now' := by
  obtain ⟨row, rfl, rfl⟩ := h
  rw [news_append, news_append]

/-- What was told since a while and what is told now are told in turn. -/
theorem Ahead.trans {u v : Session} (h : Ahead σ s₀ t₀ s t) (h' : Ahead σ s.store t.store u v) :
    Ahead σ s₀ t₀ u v := by
  have hjoin {α : Type} {one one' two two' three three' : List α}
      (h : ToldSame one one' two two') (h' : ToldSame two two' three three') :
      ToldSame one one' three three' := by
    obtain ⟨row, rfl, rfl⟩ := h
    obtain ⟨more, rfl, rfl⟩ := h'
    exact ⟨more ++ row, (List.append_assoc _ _ _).symm, (List.append_assoc _ _ _).symm⟩
  exact { h' with
    store := { h'.store with
      events := hjoin h.store.events h'.store.events
      deliveries := hjoin h.store.deliveries h'.store.deliveries } }

/-- An arena that is crowded is ahead by something. -/
theorem Ahead.length_ne_zero (h : Ahead σ s₀ t₀ s t) {name : String} {command : Command}
    (hcrowds : s.Crowds t name command) : σ.length name ≠ 0 := by
  intro hzero
  obtain ⟨a, b, ha, hb, hcrowded⟩ := hcrowds
  have hab := h.arenas name
  rw [ha, hb] at hab
  cases hab with
  | some hab =>
    rw [hzero] at hab
    exact Arena.not_crowded_of_length_eq hab.length_eq hcrowded

/-- **A command is crowded out** of an arena: it is refused for the length of the arena, and would
have found room in the second session. -/
structure CrowdedOut (s t : Session) (name : String) (command : Command) : Prop where
  aborted : (s.step command).1 = .aborted .lengthOverflow
  crowds : s.Crowds t name command

/-- **A row of commands** does the same in two sessions of which one is ahead, the figures
apart, as long as none of them is crowded out of an arena that is ahead. -/
theorem Ahead.play (h : Ahead σ s₀ t₀ s t) (commands : List Command)
    (hroom : ∀ name, σ.length name ≠ 0 → ∀ k command, commands[k]? = some command →
      ¬(s.play (commands.take k)).2.CrowdedOut (t.play (commands.take k)).2 name command) :
    List.Forall₂ (Seen.Ahead σ) (s.play commands).1 (t.play commands).1 ∧
      Ahead σ s₀ t₀ (s.play commands).2 (t.play commands).2 := by
  induction commands generalizing s t with
  | nil => exact ⟨.nil, h⟩
  | cons command commands ih =>
    have hnow : Ahead σ s.store t.store s t := { h with store := h.store.now }
    rcases hnow.step command with ⟨hfull, name, hcrowds⟩ | ⟨hanswer, hnext⟩
    · exact absurd ⟨hfull, hcrowds⟩ (hroom name (h.length_ne_zero hcrowds) 0 command rfl)
    · obtain ⟨hseen, hlast⟩ := ih (h.trans hnext) fun name hname k other hother =>
        hroom name hname (k + 1) other hother
      exact ⟨.cons ⟨hanswer, news_eq hnext.store.events, news_eq hnext.store.deliveries⟩ hseen,
        hlast⟩

end Session

end Wirepool
