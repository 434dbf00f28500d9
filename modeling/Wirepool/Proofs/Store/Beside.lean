import Wirepool.Message
import Wirepool.Proofs.Store.Sound

/-!
# Two stores side by side

How often a pool left a request to the system is a figure, and nothing that a pool does
depends on it. So two stores that differ in this figure alone, and in what was told
before, answer alike whatever is asked of them, tell the same from now on, and still
differ in that figure alone.

What is asked is an action, and actions are made of others. Two runs of an action *go
together* if they answer alike and leave related states, and two actions are *in step* if
they go together from related states on. That is all that is said of the monad: whatever
is built of actions in step is in step.

The first of two runs can also end early with an abort that is *excused*. Nothing is said
of what comes of it then.
-/

namespace Wirepool

/-! ## Actions in step -/

section InStep

variable {σ α β : Type} {R : σ → σ → Prop} {excused : Abort → Prop}

/-- **Two runs go together**: the answers or the aborts are the same, and the states are
related. -/
inductive Together (R : σ → σ → Prop) (excused : Abort → Prop) :
    EStateM.Result Abort σ α → EStateM.Result Abort σ α → Prop
  | ok (a : α) {s t : σ} (h : R s t) : Together R excused (.ok a s) (.ok a t)
  | error (abort : Abort) {s t : σ} (h : R s t) :
    Together R excused (.error abort s) (.error abort t)
  | excused {abort : Abort} (h : excused abort) (s : σ) (result : EStateM.Result Abort σ α) :
    Together R excused (.error abort s) result

/-- **Two actions are in step**: from related states on they go together. -/
def InStep (R : σ → σ → Prop) (excused : Abort → Prop) (x y : EStateM Abort σ α) : Prop :=
  ∀ s t : σ, R s t → Together R excused (x s) (y t)

/-- More can be excused, and less be known of the states. -/
theorem Together.mono {R' : σ → σ → Prop} {excused' : Abort → Prop}
    {x y : EStateM.Result Abort σ α} (h : Together R excused x y)
    (hR : ∀ s t, R s t → R' s t) (hexcused : ∀ abort, excused abort → excused' abort) :
    Together R' excused' x y := by
  cases h with
  | ok a h => exact .ok a (hR _ _ h)
  | error abort h => exact .error abort (hR _ _ h)
  | excused h s => exact .excused (hexcused _ h) s _

/-- Answers that are changed alike. -/
theorem Together.map {x y : EStateM Abort σ α} {s t : σ} (hxy : Together R excused (x s) (y t))
    (f : α → β) : Together R excused ((f <$> x) s) ((f <$> y) t) := by
  show Together R excused (EStateM.map f x s) (EStateM.map f y t)
  unfold EStateM.map
  generalize x s = one, y t = two at hxy ⊢
  cases hxy with
  | ok a h => exact .ok (f a) h
  | error abort h => exact .error abort h
  | excused h s => exact .excused h s _

/-- **What goes on** with two runs that have gone together so far. -/
theorem Together.bind {x y : EStateM Abort σ α} {f g : α → EStateM Abort σ β} {s t : σ}
    (hxy : Together R excused (x s) (y t))
    (hfg : ∀ a s' t', x s = .ok a s' → y t = .ok a t' → R s' t' →
      Together R excused (f a s') (g a t')) :
    Together R excused ((x >>= f) s) ((y >>= g) t) := by
  show Together R excused (EStateM.bind x f s) (EStateM.bind y g t)
  unfold EStateM.bind
  generalize x s = one, y t = two at hxy hfg ⊢
  cases hxy with
  | ok a h => exact hfg a _ _ rfl rfl h
  | error abort h => exact .error abort h
  | excused h s => exact .excused h s _

namespace InStep

/-- To answer and to do nothing is in step. -/
theorem pure (a : α) : InStep R excused (Pure.pure a : EStateM Abort σ α) (Pure.pure a) :=
  fun _ _ h => .ok a h

/-- **Two actions in turn** are in step if each of them is. -/
theorem bind {x y : EStateM Abort σ α} {f g : α → EStateM Abort σ β} (hxy : InStep R excused x y)
    (hfg : ∀ a, InStep R excused (f a) (g a)) : InStep R excused (x >>= f) (y >>= g) :=
  fun s t h => (hxy s t h).bind fun a s' t' _ _ h' => hfg a s' t' h'

/-- Answers that are changed alike. -/
theorem map {x y : EStateM Abort σ α} (hxy : InStep R excused x y) (f : α → β) :
    InStep R excused (f <$> x) (f <$> y) :=
  fun s t h => (hxy s t h).map f

/-- **An action for each of a row of things**, in turn. -/
theorem forM {f : α → EStateM Abort σ PUnit} (hf : ∀ a, InStep R excused (f a) (f a))
    (as : List α) : InStep R excused (as.forM f) (as.forM f) := by
  induction as with
  | nil => exact .pure PUnit.unit
  | cons a as ih =>
    rw [List.forM_eq_forM, List.forM_cons]
    exact (hf a).bind fun _ => ih

/-- The answers for each of a row of things. -/
theorem mapM {f : α → EStateM Abort σ β} (hf : ∀ a, InStep R excused (f a) (f a))
    (as : List α) : InStep R excused (as.mapM f) (as.mapM f) := by
  induction as with
  | nil =>
    rw [List.mapM_nil]
    exact .pure []
  | cons a as ih =>
    rw [List.mapM_cons]
    exact (hf a).bind fun b => ih.bind fun bs => .pure (b :: bs)

end InStep

end InStep

/-! ## Pools ahead of each other -/

namespace Pool

/-- A pool that left so many requests more to the system. -/
def ahead (p : Pool) (more : Nat) : Pool := { p with bypassed := p.bypassed + more }

end Pool

namespace Transaction

variable {α : Type}

/-- The transaction with a pool that is ahead. -/
def ahead (done : Transaction α) (more : Nat) : Transaction α :=
  { done with pool := done.pool.ahead more }

end Transaction

namespace Pool

variable (p : Pool) (more : Nat)

/-! No transaction looks at the figure. -/

theorem acquire_ahead (c : SizeClass) : (p.ahead more).acquire c = (p.acquire c).ahead more := by
  have hshelf : (p.ahead more).shelf c = p.shelf c := rfl
  unfold acquire
  dsimp only
  rw [hshelf]
  split <;> rfl

theorem lend_ahead (home : Nat) (shelved : Shelved) (len : Nat) (zero traced : Bool) :
    (p.ahead more).lend home shelved len zero traced =
      (p.lend home shelved len zero traced).ahead more := by
  unfold lend
  dsimp only
  by_cases hfree : (({ p with generation := p.generation + 1 }).slotAt shelved.slot).generation = 0
  · rw [if_pos hfree]
    exact if_pos hfree
  · rw [if_neg hfree]
    exact if_neg hfree

theorem borrow_ahead (home len : Nat) (zero traced : Bool) :
    (p.ahead more).borrow home len zero traced =
      (p.borrow home len zero traced).ahead more := by
  unfold borrow
  cases SizeClass.ofLength? len with
  | none =>
    show Transaction.mk _ _ _ = Transaction.mk _ _ _
    rw [ahead, ahead, Nat.add_right_comm]
  | some c =>
    have hpool : ((p.acquire c).ahead more).pool = (p.acquire c).pool.ahead more := rfl
    have hresult : ((p.acquire c).ahead more).result = (p.acquire c).result := rfl
    dsimp only
    rw [acquire_ahead, hresult]
    cases (p.acquire c).result with
    | error abort => rfl
    | ok shelved =>
      dsimp only
      rw [hpool, lend_ahead]
      rfl

theorem reclaim_ahead (lease : Lease) :
    (p.ahead more).reclaim lease = (p.reclaim lease).ahead more := by
  unfold reclaim
  by_cases hgood : (p.slotAt lease.slot).generation = lease.generation
  · rw [if_pos hgood]
    exact if_pos hgood
  · rw [if_neg hgood]
    exact if_neg hgood

theorem lose_ahead (lease : Lease) : (p.ahead more).lose lease = (p.lose lease).ahead more := by
  have hcounted := reclaim_ahead { p with leaked := p.leaked + 1 } more lease
  exact congrArg (fun done : Transaction Unit =>
    { done with events := .leaked (leakReport lease) :: done.events }) hcounted

theorem retire_ahead (slot : Nat) : (p.ahead more).retire slot = (p.retire slot).ahead more := by
  have hslot : (p.ahead more).slotAt slot = p.slotAt slot := rfl
  unfold retire
  dsimp only
  rw [hslot]
  cases (p.slotAt slot).parked with
  | none => rfl
  | some parked =>
    dsimp only
    split <;> rfl

theorem discardTicket_ahead (slot : Nat) :
    (p.ahead more).discardTicket slot = (p.discardTicket slot).ahead more := by
  let counted := p.modifySlot slot fun s => { s with tickets := s.tickets - 1 }
  show (if (counted.slotAt slot).tickets = 0 then (counted.ahead more).retire slot else _) =
    (if (counted.slotAt slot).tickets = 0 then counted.retire slot else _).ahead more
  by_cases hlast : (counted.slotAt slot).tickets = 0
  · rw [if_pos hlast, if_pos hlast, retire_ahead]
  · rw [if_neg hlast, if_neg hlast]
    rfl

theorem unpark_ahead (slot generation : Nat) :
    (p.ahead more).unpark slot generation = (p.unpark slot generation).ahead more := by
  have hslot : (p.ahead more).slotAt slot = p.slotAt slot := rfl
  unfold unpark
  dsimp only
  rw [hslot]
  split
  · cases (p.slotAt slot).parked <;> rfl
  · rfl

theorem redeem_ahead (slot generation : Nat) :
    (p.ahead more).redeem slot generation = (p.redeem slot generation).ahead more := by
  unfold redeem
  dsimp only
  rw [unpark_ahead, show ((p.unpark slot generation).ahead more).pool =
    (p.unpark slot generation).pool.ahead more from rfl, discardTicket_ahead]
  rfl

end Pool

/-! ## Stores ahead of each other -/

/-- **The same was told** since two journals were as given. -/
def ToldSame {α : Type} (before before' now now' : List α) : Prop :=
  ∃ news, now = news ++ before ∧ now' = news ++ before'

/-- Telling the same goes on with it. -/
theorem ToldSame.append {α : Type} {before before' now now' : List α}
    (h : ToldSame before before' now now') (row : List α) :
    ToldSame before before' (row ++ now) (row ++ now') := by
  obtain ⟨news, rfl, rfl⟩ := h
  exact ⟨row ++ news, (List.append_assoc _ _ _).symm, (List.append_assoc _ _ _).symm⟩

namespace Store

/-- **A store is ahead of another**: its pools left more requests to the system, and since
the two stores were as given they told the same. -/
structure Ahead (more : Nat → Nat) (s₀ t₀ s t : Store) : Prop where
  length_eq : s.pools.length = t.pools.length
  pool_eq : ∀ number, s.pool number = (t.pool number).ahead (more number)
  tracker_eq : s.tracker = t.tracker
  tracing_eq : s.tracing = t.tracing
  events : ToldSame s₀.events t₀.events s.events t.events
  deliveries : ToldSame s₀.deliveries t₀.deliveries s.deliveries t.deliveries

variable {more : Nat → Nat} {s₀ t₀ s t : Store} {excused : Abort → Prop}

namespace Ahead

/-- Nothing was told since just now. -/
theorem now (h : Ahead more s₀ t₀ s t) : Ahead more s t s t :=
  { h with events := ⟨[], rfl, rfl⟩, deliveries := ⟨[], rfl, rfl⟩ }

/-- An event that is told in both. -/
theorem tell (h : Ahead more s₀ t₀ s t) (event : Event) :
    Ahead more s₀ t₀ (s.tell event) (t.tell event) := by
  have htold : Ahead more s₀ t₀ { s with events := event :: s.events }
      { t with events := event :: t.events } := { h with events := h.events.append [event] }
  unfold Store.tell
  cases event with
  | leaked report =>
    refine { htold with deliveries := ?_ }
    dsimp only
    rw [h.tracker_eq]
    exact h.deliveries.append (deliver t.tracker [report])
  | grew position capacity created => exact htold
  | bypassed len => exact htold
  | abandoned length => exact htold

/-- A pool that is changed in both. -/
theorem setPool (h : Ahead more s₀ t₀ s t) (number : Nat) (p : Pool) :
    Ahead more s₀ t₀ { s with pools := s.pools.set number (p.ahead (more number)) }
      { t with pools := t.pools.set number p } := by
  refine { h with length_eq := ?_, pool_eq := fun other => ?_ }
  · rw [List.length_set, List.length_set, h.length_eq]
  · have hother := h.pool_eq other
    unfold pool at hother ⊢
    rw [List.getElem?_set, List.getElem?_set, h.length_eq]
    by_cases hsame : number = other
    · subst hsame
      rw [if_pos rfl, if_pos rfl]
      by_cases hlt : number < t.pools.length
      · rw [if_pos hlt, if_pos hlt]
        rfl
      · rw [if_neg hlt, if_neg hlt]
        rwa [List.getElem?_eq_none (by rw [h.length_eq]; exact Nat.le_of_not_lt hlt),
          List.getElem?_eq_none (Nat.le_of_not_lt hlt)] at hother
    · rwa [if_neg hsame, if_neg hsame]

/-- What is committed in both. -/
theorem commit (h : Ahead more s₀ t₀ s t) (number : Nat) (p : Pool) (events : List Event) :
    Ahead more s₀ t₀ (s.commit number (p.ahead (more number)) events)
      (t.commit number p events) := by
  have hset := h.setPool number p
  unfold Store.commit
  generalize { s with pools := s.pools.set number (p.ahead (more number)) } = one,
    { t with pools := t.pools.set number p } = two at hset ⊢
  induction events generalizing one two with
  | nil => exact hset
  | cons event events ih => exact ih _ _ (hset.tell event)

end Ahead

/-! ## The actions of the store -/

/-- **A transaction** that does not look at the figure. -/
theorem inStep_onPool {α : Type} {transaction : Pool → Transaction α}
    (h : ∀ p more, transaction (p.ahead more) = (transaction p).ahead more) (number : Nat) :
    InStep (Ahead more s₀ t₀) excused (onPool number transaction) (onPool number transaction) := by
  intro s t hst
  have hfirst :
      transaction (s.pool number) = (transaction (t.pool number)).ahead (more number) := by
    rw [hst.pool_eq, h]
  rcases hsecond : transaction (t.pool number) with ⟨q, events, result⟩
  rw [hsecond] at hfirst
  have hcommit := hst.commit number q events
  cases result with
  | ok a =>
    rw [onPool_of_ok hfirst, onPool_of_ok hsecond]
    exact .ok a hcommit
  | error abort =>
    rw [onPool_of_error hfirst, onPool_of_error hsecond]
    exact .error abort hcommit

/-- **Borrowing.** -/
theorem inStep_borrow (number len : Nat) (zero : Bool) :
    InStep (Ahead more s₀ t₀) excused (borrow number len zero) (borrow number len zero) := by
  intro s t hst
  show Together _ _
    (onPool number (fun p => p.borrow number len zero (s.tracking || s.tracing)) s)
    (onPool number (fun p => p.borrow number len zero (t.tracking || t.tracing)) t)
  rw [tracking, hst.tracker_eq, ← tracking, hst.tracing_eq]
  exact inStep_onPool (fun p more => p.borrow_ahead more number len zero _) number s t hst

/-- Borrowing for given parts. -/
theorem inStep_concat (number : Nat) (parts : List (List UInt8)) :
    InStep (Ahead more s₀ t₀) excused (concat number parts) (concat number parts) :=
  (inStep_borrow number _ false).bind fun _ => .pure _

/-- **Giving back.** -/
theorem inStep_release (loan : Loan) :
    InStep (Ahead more s₀ t₀) excused (release loan) (release loan) := by
  cases loan with
  | unpooled block => exact .pure _
  | pooled lease =>
    show InStep _ _ (onPool lease.home fun p => p.reclaim lease)
      (onPool lease.home fun p => p.reclaim lease)
    exact inStep_onPool (fun p more => p.reclaim_ahead more lease) lease.home

/-- **Losing.** -/
theorem inStep_lose (loan : Loan) :
    InStep (Ahead more s₀ t₀) excused (lose loan) (lose loan) := by
  cases loan with
  | unpooled block => exact .pure _
  | pooled lease =>
    show InStep _ _ (onPool lease.home fun p => p.lose lease)
      (onPool lease.home fun p => p.lose lease)
    exact inStep_onPool (fun p more => p.lose_ahead more lease) lease.home

/-- **Detaching.** -/
theorem inStep_detach (loan : Loan) :
    InStep (Ahead more s₀ t₀) excused (detach loan) (detach loan) := by
  cases loan with
  | unpooled block => exact .pure _
  | pooled lease => exact (inStep_onPool (fun _ _ => rfl) lease.home).bind fun _ => .pure _

/-- Copying a ticket. -/
theorem inStep_copyTicket (ticket : Ticket) :
    InStep (Ahead more s₀ t₀) excused (copyTicket ticket) (copyTicket ticket) := by
  cases ticket with
  | idle => exact .pure _
  | page home slot generation => exact (inStep_onPool (fun _ _ => rfl) home).bind fun _ => .pure _

/-- **Handing a ticket in.** -/
theorem inStep_redeem (ticket : Ticket) :
    InStep (Ahead more s₀ t₀) excused (redeem ticket) (redeem ticket) := by
  cases ticket with
  | idle => exact .pure _
  | page home slot generation =>
    show InStep _ _ (onPool home fun p => p.redeem slot generation)
      (onPool home fun p => p.redeem slot generation)
    exact inStep_onPool (fun p more => p.redeem_ahead more slot generation) home

/-- **Throwing a ticket away.** -/
theorem inStep_discardTicket (ticket : Ticket) :
    InStep (Ahead more s₀ t₀) excused (discardTicket ticket) (discardTicket ticket) := by
  cases ticket with
  | idle => exact .pure _
  | page home slot generation =>
    show InStep _ _ (onPool home fun p => p.discardTicket slot)
      (onPool home fun p => p.discardTicket slot)
    exact inStep_onPool (fun p more => p.discardTicket_ahead more slot) home

/-- Memory for a message. -/
theorem inStep_obtain (home : Option Nat) (len : Nat) :
    InStep (Ahead more s₀ t₀) excused (obtain home len) (obtain home len) := by
  cases home with
  | some number => exact inStep_borrow number len false
  | none =>
    intro s t hst
    unfold Store.obtain
    cases Block.allocate len with
    | ok block => exact .ok _ hst
    | error abort => exact .error abort hst

/-- **Something that is done whatever comes of it**, as long as nothing is excused. -/
theorem Ahead.after (h : Ahead more s₀ t₀ s t) {action : StoreM Unit}
    (haction : InStep (Ahead more s₀ t₀) (fun _ => False) action action) :
    Ahead more s₀ t₀ (s.after action) (t.after action) := by
  have hruns := haction s t h
  unfold Store.after
  generalize action s = one, action t = two at hruns ⊢
  cases hruns with
  | ok _ h => exact h
  | error _ h => exact h
  | excused h => exact h.elim

end Store

/-- **Encoding into memory of its own.** -/
theorem Script.inStep_encode {more : Nat → Nat} {s₀ t₀ : Store} {excused : Abort → Prop}
    (script : Script) (order : ByteOrder) (home : Option Nat) :
    InStep (Store.Ahead more s₀ t₀) excused (script.encode order home)
      (script.encode order home) := by
  unfold encode
  dsimp only
  cases (script.measure order).length with
  | error failure => exact .pure _
  | ok length =>
    refine (Store.inStep_obtain home length).bind fun memory => ?_
    cases (script.fill order memory.view).outcome with
    | ok => exact .pure _
    | error failure =>
      refine InStep.bind (fun s t hst => .ok PUnit.unit (hst.tell (.abandoned length))) fun _ => ?_
      exact (Store.inStep_release _).bind fun _ => .pure _

end Wirepool
