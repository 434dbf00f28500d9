import Wirepool.Message
import Wirepool.Proofs.Pool.Marks
import Wirepool.Proofs.Store.Books

/-!
# Stores that bear other marks

Two actions are compared on two stores, one of which bears marks that are given from outside.
As the answers have marks too, they are related and need not be the same; otherwise both do
the same, also where they abort. Such pairs of actions are put together as actions are.

An action that makes loans sets their marks itself, by the switches of its store. So it is
compared on stores where these are the marks that are given for all loans to come. Other
actions take loans that are marked already. What they lose is lost to one pool, since the
journal tells of a lost loan by its generation, and so shows the marks of one pool.
-/

namespace Wirepool

section Matches

variable {σ α β γ δ : Type} {R S S' T : σ → σ → Prop} {A : α → β → Prop} {B : γ → δ → Prop}

/-- **Two runs match**: both answer, and the answers are related, or both abort with the same
abort. The states are related in one way or in the other. -/
inductive Matching (A : α → β → Prop) (S T : σ → σ → Prop) :
    EStateM.Result Abort σ α → EStateM.Result Abort σ β → Prop
  | ok {a : α} {b : β} {s t : σ} (hab : A a b) (h : S s t) : Matching A S T (.ok a s) (.ok b t)
  | error (abort : Abort) {s t : σ} (h : T s t) :
    Matching A S T (.error abort s) (.error abort t)

/-- **Two actions match**: from related states on their runs match. -/
def Matches (R : σ → σ → Prop) (A : α → β → Prop) (S T : σ → σ → Prop) (x : EStateM Abort σ α)
    (y : EStateM Abort σ β) : Prop :=
  ∀ s t : σ, R s t → Matching A S T (x s) (y t)

/-- Less may be known of the answers and of the states. -/
theorem Matching.mono {A' : α → β → Prop} {T' : σ → σ → Prop} {x : EStateM.Result Abort σ α}
    {y : EStateM.Result Abort σ β} (h : Matching A S T x y) (hA : ∀ a b, A a b → A' a b)
    (hS : ∀ s t, S s t → S' s t) (hT : ∀ s t, T s t → T' s t) : Matching A' S' T' x y := by
  cases h with
  | ok hab h => exact .ok (hA _ _ hab) (hS _ _ h)
  | error abort h => exact .error abort (hT _ _ h)

namespace Matches

/-- To answer and to do nothing. -/
theorem pure {a : α} {b : β} (hab : A a b) :
    Matches S A S T (Pure.pure a : EStateM Abort σ α) (Pure.pure b) :=
  fun _ _ h => .ok hab h

/-- **Two actions in turn.** -/
theorem bind {x : EStateM Abort σ α} {y : EStateM Abort σ β} {f : α → EStateM Abort σ γ}
    {g : β → EStateM Abort σ δ} (hxy : Matches R A S T x y)
    (hfg : ∀ a b, A a b → Matches S B S' T (f a) (g b)) :
    Matches R B S' T (x >>= f) (y >>= g) := by
  intro s t h
  have hfirst := hxy s t h
  show Matching B S' T (EStateM.bind x f s) (EStateM.bind y g t)
  unfold EStateM.bind
  generalize x s = one, y t = two at hfirst ⊢
  cases hfirst with
  | ok hab h => exact hfg _ _ hab _ _ h
  | error abort h => exact .error abort h

/-- Answers that are changed. -/
theorem map {x : EStateM Abort σ α} {y : EStateM Abort σ β} (hxy : Matches R A S T x y)
    {f : α → γ} {g : β → δ} (hfg : ∀ a b, A a b → B (f a) (g b)) :
    Matches R B S T (f <$> x) (g <$> y) := by
  intro s t h
  have hfirst := hxy s t h
  show Matching B S T (EStateM.map f x s) (EStateM.map g y t)
  unfold EStateM.map
  generalize x s = one, y t = two at hfirst ⊢
  cases hfirst with
  | ok hab h => exact .ok (hfg _ _ hab) h
  | error abort h => exact .error abort h

/-- **An action for each of two rows of things** that are related one by one. -/
theorem forM {f : α → EStateM Abort σ PUnit} {g : β → EStateM Abort σ PUnit}
    (hfg : ∀ a b, A a b → Matches S Eq S T (f a) (g b)) {as : List α} {bs : List β}
    (h : List.Forall₂ A as bs) : Matches S Eq S T (as.forM f) (bs.forM g) := by
  induction h with
  | nil => exact .pure rfl
  | cons hab _ ih =>
    rw [List.forM_eq_forM, List.forM_eq_forM, List.forM_cons, List.forM_cons]
    exact (hfg _ _ hab).bind fun _ _ _ => ih

/-- The answers for each of a row of things. -/
theorem mapM {f : α → EStateM Abort σ γ} {g : α → EStateM Abort σ δ}
    (hfg : ∀ a, Matches S B S T (f a) (g a)) (as : List α) :
    Matches S (List.Forall₂ B) S T (as.mapM f) (as.mapM g) := by
  induction as with
  | nil =>
    rw [List.mapM_nil, List.mapM_nil]
    exact .pure .nil
  | cons a as ih =>
    rw [List.mapM_cons, List.mapM_cons]
    exact (hfg a).bind fun _ _ hab => ih.bind fun _ _ hrow => .pure (.cons hab hrow)

end Matches

end Matches

/-! ## Stores that are the same but for the marks -/

/-- A ticket is for a page of the pool with a number, if it is for a page at all. -/
def Ticket.OfPool (number : Nat) : Ticket → Prop
  | idle => True
  | page home _ _ => home = number

/-- The mark of a loan is nothing to those who look at the loan or write through it. -/
@[simp] theorem Loan.mapBlock_marked (marks : Marks) (f : Block → Block)
    (hf : ∀ b, (f b).size = b.size) (loan : Loan) :
    (loan.marked marks).mapBlock f hf = (loan.mapBlock f hf).marked marks := by
  cases loan <;> rfl

@[simp] theorem Loan.len_marked (marks : Marks) (loan : Loan) :
    (loan.marked marks).len = loan.len := by
  cases loan <;> rfl

@[simp] theorem Loan.capacity_marked (marks : Marks) (loan : Loan) :
    (loan.marked marks).capacity = loan.capacity := by
  cases loan <;> rfl

@[simp] theorem Loan.generation_marked (marks : Marks) (loan : Loan) :
    (loan.marked marks).generation = loan.generation := by
  cases loan <;> rfl

@[simp] theorem Loan.block_marked (marks : Marks) (loan : Loan) :
    (loan.marked marks).block = loan.block := by
  cases loan <;> rfl

@[simp] theorem Loan.read_marked (marks : Marks) (loan : Loan) (offset count : Nat) :
    (loan.marked marks).read offset count = loan.read offset count := by
  rw [read, block_marked, len_marked, read]

@[simp] theorem Loan.view_marked (marks : Marks) (loan : Loan) :
    (loan.marked marks).view = loan.view := by
  rw [view, read_marked, len_marked, view]

@[simp] theorem Loan.runs_marked (marks : Marks) (loan : Loan) (offset count : Nat) :
    (loan.marked marks).runs offset count = loan.runs offset count := by
  rw [runs, block_marked, len_marked, runs]

@[simp] theorem Loan.write_marked (marks : Marks) (loan : Loan) (offset : Nat)
    (row : List UInt8) :
    (loan.marked marks).write offset row = (loan.write offset row).marked marks := by
  simp only [write, mapBlock_marked, len_marked]

@[simp] theorem Loan.fill_marked (marks : Marks) (loan : Loan) (offset count : Nat)
    (value : UInt8) :
    (loan.marked marks).fill offset count value = (loan.fill offset count value).marked marks := by
  simp only [fill, mapBlock_marked, len_marked]

/-- Other marks that are the same for the loan. -/
theorem Loan.marked_congr {marks marks' : Marks} {loan : Loan}
    (h : ∀ lease, loan = .pooled lease →
      marks' lease.home lease.generation = marks lease.home lease.generation) :
    loan.marked marks' = loan.marked marks := by
  cases loan with
  | unpooled block => rfl
  | pooled lease =>
    rw [marked, marked, Lease.marked, Lease.marked, h lease rfl]

/-- A row of loans of one pool, marked one by one. -/
theorem Loan.eq_map_marked {marks : Marks} {number : Nat} {one other : List Loan}
    (h : List.Forall₂ (fun a b => b = a.marked marks ∧ a.OfPool number) one other) :
    other = one.map (Loan.marked marks) ∧ ∀ loan ∈ one, loan.OfPool number := by
  induction h with
  | nil => exact ⟨rfl, nofun⟩
  | cons hab _ ih =>
    obtain ⟨rfl, ha⟩ := hab
    obtain ⟨rfl, hrow⟩ := ih
    exact ⟨rfl, List.forall_mem_cons.mpr ⟨ha, hrow⟩⟩

namespace Store

variable {marks : Marks} {losing : Nat} {s₀ t₀ s t : Store}

/-- **Two stores are the same but for the marks.** Nothing is said of the switches and the
journals. -/
structure Alike (marks : Marks) (s t : Store) : Prop where
  length_eq : t.pools.length = s.pools.length
  pool : ∀ number, (s.pool number).Marked (marks number) (t.pool number)

/-- **And so they have been** since they were as given. What was told meanwhile was told in
both, with the marks that are given in the second one; the tracker there has received a
report on each loan that was lost. All losses were those of one pool. -/
structure Marked (marks : Marks) (losing : Nat) (s₀ t₀ s t : Store) : Prop
    extends Alike marks s t where
  tracker_eq : t.tracker = t₀.tracker
  tracing_eq : t.tracing = t₀.tracing
  told : ∃ row : List Event, s.events = row ++ s₀.events ∧
    t.events = row.map (Event.marked (marks losing)) ++ t₀.events ∧
    t.deliveries = deliver t₀.tracker
      ((row.map (Event.marked (marks losing))).filterMap Event.report?) ++ t₀.deliveries
  leaked_eq : ∀ number, number ≠ losing → (t.pool number).leaked = (t₀.pool number).leaked

/-- **Loans can be made** on them, if no page is in the way and if the marks for the loans to
come are given by the switches of the second store. -/
structure Lends (marks : Marks) (losing : Nat) (s₀ t₀ s t : Store) : Prop
    extends Marked marks losing s₀ t₀ s t where
  orderly : ∀ number, (s.pool number).Orderly
  next : ∀ number generation, (s.pool number).generation < generation →
    marks number generation = (t₀.tracking || t₀.tracing)

/-! ## Telling -/

theorem tracing_tell (s : Store) (event : Event) : (s.tell event).tracing = s.tracing := by
  cases event <;> rfl

/-- What is committed to a pool, if it exists, is the pool then. -/
theorem pool_commit (s : Store) (number : Nat) (p : Pool) (events : List Event) (other : Nat) :
    (s.commit number p events).pool other =
      if other = number ∧ number < s.pools.length then p else s.pool other := by
  by_cases hother : other = number
  · subst hother
    by_cases hlt : other < s.pools.length
    · rw [if_pos ⟨rfl, hlt⟩, pool_commit_self p events hlt]
    · rw [if_neg fun h => hlt h.2, pool, pool, pools_commit, List.set_eq_of_length_le
        (Nat.le_of_not_lt hlt)]
  · rw [if_neg fun h => hother h.1, pool_commit_of_ne p events hother]

namespace Marked

/-- An event that is told in both. -/
theorem tell (h : Marked marks losing s₀ t₀ s t) (event : Event) :
    Marked marks losing s₀ t₀ (s.tell event) (t.tell (event.marked (marks losing))) := by
  obtain ⟨row, hs, ht, hdeliveries⟩ := h.told
  have hpool (u : Store) (event : Event) (number : Nat) : (u.tell event).pool number =
      u.pool number := by
    rw [Store.pool, pools_tell, Store.pool]
  refine ⟨⟨?_, fun number => ?_⟩, ?_, ?_, ⟨event :: row, ?_, ?_, ?_⟩, fun number hne => ?_⟩
  · rw [pools_tell, pools_tell, h.length_eq]
  · rw [hpool, hpool]
    exact h.pool number
  · rw [tracker_tell, h.tracker_eq]
  · rw [tracing_tell, h.tracing_eq]
  · rw [events_tell, hs]
    rfl
  · rw [events_tell, ht]
    rfl
  · rw [deliveries_tell, hdeliveries, h.tracker_eq, ← List.append_assoc, ← deliver_append]
    cases event <;> rfl
  · rw [hpool]
    exact h.leaked_eq number hne

/-- A pool that is changed in both. -/
theorem setPool (h : Marked marks losing s₀ t₀ s t) {number : Nat} {p q : Pool}
    (hpq : p.Marked (marks number) q)
    (hleaked : number = losing ∨ q.leaked = (t.pool number).leaked) :
    Marked marks losing s₀ t₀ (s.commit number p []) (t.commit number q []) := by
  refine ⟨⟨?_, fun other => ?_⟩, h.tracker_eq, h.tracing_eq, h.told, fun other hne => ?_⟩
  · rw [pools_commit, pools_commit, List.length_set, List.length_set, h.length_eq]
  · rw [pool_commit, pool_commit, h.length_eq]
    split
    · next hother => exact hother.1 ▸ hpq
    · exact h.pool other
  · rw [pool_commit]
    split
    · next hother =>
      rw [hleaked.resolve_left (hother.1 ▸ hne), ← hother.1]
      exact h.leaked_eq other hne
    · exact h.leaked_eq other hne

/-- **What is committed in both.** -/
theorem commit (h : Marked marks losing s₀ t₀ s t) {number : Nat} {p q : Pool}
    {events : List Event} (hpq : p.Marked (marks number) q)
    (hlost : number = losing ∨
      q.leaked = (t.pool number).leaked ∧ events.filterMap Event.report? = []) :
    Marked marks losing s₀ t₀ (s.commit number p events)
      (t.commit number q (events.map (Event.marked (marks number)))) := by
  -- a pool that loses nothing tells of no loan, so its marks do not matter
  have hmarks : events.map (Event.marked (marks number)) =
      events.map (Event.marked (marks losing)) := by
    rcases hlost with rfl | ⟨-, htold⟩
    · rfl
    · rw [Event.map_marked htold, Event.map_marked htold]
  have hset := h.setPool hpq (hlost.imp_right And.left)
  rw [hmarks]
  show Marked marks losing s₀ t₀ (events.foldl Store.tell (s.commit number p []))
    ((events.map _).foldl Store.tell (t.commit number q []))
  generalize s.commit number p [] = one, t.commit number q [] = two at hset ⊢
  clear hlost hmarks
  induction events generalizing one two with
  | nil => exact hset
  | cons event events ih => exact ih _ _ (hset.tell event)

end Marked

/-! ## The actions of the store -/

section Actions

variable {α : Type}

/-- **Two actions make loans alike**, as long as they go on. -/
abbrev LendAlike (marks : Marks) (losing : Nat) (s₀ t₀ : Store) (A : α → α → Prop)
    (x y : StoreM α) : Prop :=
  Matches (Lends marks losing s₀ t₀) A (Lends marks losing s₀ t₀) (Marked marks losing s₀ t₀) x y

/-- **Two actions run alike**, and the loans they take are marked. -/
abbrev RunAlike (marks : Marks) (losing : Nat) (s₀ t₀ : Store) (x y : StoreM α) : Prop :=
  Matches (Marked marks losing s₀ t₀) Eq (Marked marks losing s₀ t₀) (Marked marks losing s₀ t₀)
    x y

/-- **A transaction on one pool.** It may lose a loan if it is the pool that loses loans. -/
theorem Marked.onPool_commit {f : α → α} {A : α → α → Prop} {number : Nat}
    (h : Marked marks losing s₀ t₀ s t) (transaction transaction' : Pool → Transaction α)
    (hdone : (transaction (s.pool number)).Marked (marks number) f (transaction' (t.pool number)))
    (hlost : number = losing ∨ (transaction (s.pool number)).Harmless (s.pool number))
    (hA : ∀ a, (transaction (s.pool number)).result = .ok a → A a (f a)) :
    Matching A
      (fun u v => Marked marks losing s₀ t₀ u v ∧ u = s.commit number
        (transaction (s.pool number)).pool (transaction (s.pool number)).events)
      (Marked marks losing s₀ t₀) (Store.onPool number transaction s)
      (Store.onPool number transaction' t) := by
  have hother := hdone.result
  have hcommit := h.commit hdone.pool (hlost.imp_right fun hharmless =>
    ⟨by rw [hdone.pool.leaked_eq, hharmless.leaked, (h.pool number).leaked_eq], hharmless.told⟩)
  rw [← hdone.events] at hcommit
  cases hresult : (transaction (s.pool number)).result with
  | ok a =>
    rw [hresult] at hother
    have hone : Store.onPool number transaction s = .ok a _ := onPool_of_ok (by rw [← hresult])
    have htwo : Store.onPool number transaction' t = .ok (f a) _ :=
      onPool_of_ok (by rw [show Except.ok (f a) = _ from hother.symm])
    rw [hone, htwo]
    exact .ok (hA a hresult) ⟨hcommit, rfl⟩
  | error abort =>
    rw [hresult] at hother
    have hone : Store.onPool number transaction s = .error abort _ :=
      onPool_of_error (by rw [← hresult])
    have htwo : Store.onPool number transaction' t = .error abort _ :=
      onPool_of_error (by rw [show Except.error abort = _ from hother.symm])
    rw [hone, htwo]
    exact .error abort hcommit

/-- A transaction without an answer. -/
theorem Marked.onPool {number : Nat} (h : Marked marks losing s₀ t₀ s t)
    (transaction transaction' : Pool → Transaction Unit)
    (hdone : (transaction (s.pool number)).Marked (marks number) id (transaction' (t.pool number)))
    (hlost : number = losing ∨ (transaction (s.pool number)).Harmless (s.pool number)) :
    Matching Eq (Marked marks losing s₀ t₀) (Marked marks losing s₀ t₀)
      (Store.onPool number transaction s) (Store.onPool number transaction' t) :=
  (h.onPool_commit transaction transaction' hdone hlost fun _ _ => rfl).mono (fun _ _ hab => hab)
    (fun _ _ h => h.1) fun _ _ h => h

/-- **Borrowing.** The loan has the mark that is given for it. -/
theorem matches_borrow (number len : Nat) (zero : Bool) :
    LendAlike marks losing s₀ t₀ (fun a b => b = a.marked marks ∧ a.OfPool number)
      (borrow number len zero) (borrow number len zero) := by
  intro s t h
  obtain ⟨hharmless, hle, horderly⟩ :=
    (s.pool number).harmless_borrow number len zero (s.tracking || s.tracing)
  have hmark : (t.tracking || t.tracing) = marks number ((s.pool number).generation + 1) := by
    rw [h.next number _ (Nat.lt_succ_self _), tracking, h.tracker_eq, ← tracking, h.tracing_eq]
  have hruns := h.toMarked.onPool_commit (A := fun a b => b = a.marked marks ∧ a.OfPool number)
    (fun p => p.borrow number len zero (s.tracking || s.tracing))
    (fun p => p.borrow number len zero (t.tracking || t.tracing))
    ((h.pool number).borrow (h.orderly number) len zero (s.tracking || s.tracing) hmark)
    (.inr hharmless) fun a ha => ⟨rfl, (Pool.offers_of_result_borrow ha).ofPool⟩
  refine hruns.mono (fun _ _ hab => hab) ?_ fun _ _ h => h
  rintro _ v ⟨hv, rfl⟩
  refine ⟨hv, fun other => ?_, fun other generation hlt => ?_⟩
  · rw [pool_commit]
    split
    · exact horderly (h.orderly number)
    · exact h.orderly other
  · refine h.next other generation (Nat.lt_of_le_of_lt ?_ hlt)
    rw [pool_commit]
    split
    · next hother => exact hother.1 ▸ hle
    · exact Nat.le_refl _

/-- Borrowing for given parts. -/
theorem matches_concat (number : Nat) (parts : List (List UInt8)) :
    LendAlike marks losing s₀ t₀ (fun a b => b = a.marked marks ∧ a.OfPool number)
      (concat number parts) (concat number parts) := by
  refine (matches_borrow number _ false).bind ?_
  rintro a _ ⟨rfl, ha⟩
  refine .pure ⟨Loan.write_marked marks a 0 _, ?_⟩
  rwa [Loan.OfPool, Loan.terms_write]

/-- Memory for a message. -/
theorem matches_obtain (home : Option Nat) (len : Nat) :
    LendAlike marks losing s₀ t₀ (fun a b => b = a.marked marks)
      (obtain home len) (obtain home len) := by
  cases home with
  | some number =>
    exact fun s t h => (matches_borrow number len false s t h).mono (fun _ _ hab => hab.1)
      (fun _ _ h => h) fun _ _ h => h
  | none =>
    intro s t h
    unfold Store.obtain
    cases Block.allocate len with
    | ok block => exact .ok rfl h
    | error abort => exact .error abort h.toMarked

/-- **Giving back.** -/
theorem matches_release (loan : Loan) :
    RunAlike marks losing s₀ t₀ (release loan) (release (loan.marked marks)) := by
  cases loan with
  | unpooled block => exact .pure rfl
  | pooled lease =>
    intro s t h
    exact h.onPool (fun p => p.reclaim lease)
      (fun p => p.reclaim (lease.marked (marks lease.home))) ((h.pool lease.home).reclaim lease)
      (.inr ((s.pool lease.home).harmless_reclaim lease))

/-- **Losing** a loan of the pool that loses loans. -/
theorem matches_lose {loan : Loan} (hloan : loan.OfPool losing) :
    RunAlike marks losing s₀ t₀ (lose loan) (lose (loan.marked marks)) := by
  cases loan with
  | unpooled block => exact .pure rfl
  | pooled lease =>
    intro s t h
    exact h.onPool (fun p => p.lose lease) (fun p => p.lose (lease.marked (marks lease.home)))
      ((h.pool lease.home).lose lease) (.inl (hloan lease.home rfl))

/-- A row of loans is given back. -/
theorem matches_releaseAll (loans : List Loan) :
    RunAlike marks losing s₀ t₀ (loans.forM release)
      ((loans.map (Loan.marked marks)).forM release) :=
  Matches.forM (A := fun a b => b = a.marked marks) (fun _ _ h => h ▸ matches_release _)
    (List.forall₂_map_right_iff.mpr (List.forall₂_same.mpr fun _ _ => rfl))

/-- A row of loans of the pool that loses loans. -/
theorem matches_loseAll {loans : List Loan} (hloans : ∀ loan ∈ loans, loan.OfPool losing) :
    RunAlike marks losing s₀ t₀ (loans.forM lose) ((loans.map (Loan.marked marks)).forM lose) :=
  Matches.forM (A := fun a b => b = a.marked marks ∧ a.OfPool losing)
    (fun _ _ h => h.1 ▸ matches_lose h.2)
    (List.forall₂_map_right_iff.mpr
      (List.forall₂_same.mpr fun loan hloan => ⟨rfl, hloans loan hloan⟩))

/-- **Detaching** a loan whose generation is on its slot. -/
theorem Marked.detach (h : Marked marks losing s₀ t₀ s t) {loan : Loan}
    (hloan : ∀ lease, loan = .pooled lease →
      ((s.pool lease.home).slotAt lease.slot).generation = lease.generation) :
    Matching Eq (Marked marks losing s₀ t₀) (Marked marks losing s₀ t₀) (Store.detach loan s)
      (Store.detach (loan.marked marks) t) := by
  cases loan with
  | unpooled block => exact .ok rfl h
  | pooled lease =>
    exact .ok rfl (h.commit ((h.pool lease.home).park (hloan lease rfl))
      (.inr ⟨rfl, rfl⟩))

/-- Copying a ticket. -/
theorem matches_copyTicket (ticket : Ticket) :
    RunAlike marks losing s₀ t₀ (copyTicket ticket) (copyTicket ticket) := by
  cases ticket with
  | idle => exact .pure rfl
  | page home slot generation =>
    exact fun s t h => .ok rfl (h.commit ((h.pool home).copyTicket slot) (.inr ⟨rfl, rfl⟩))

/-- **Handing a ticket in** for a page of the pool that loses loans. -/
theorem matches_redeem {ticket : Ticket} (hticket : ticket.OfPool losing) :
    RunAlike marks losing s₀ t₀ (redeem ticket) (redeem ticket) := by
  cases ticket with
  | idle => exact .pure rfl
  | page home slot generation =>
    intro s t h
    exact h.onPool (fun p => p.redeem slot generation) (fun p => p.redeem slot generation)
      ((h.pool home).redeem slot generation) (.inl hticket)

/-- **Throwing a ticket away** for a page of the pool that loses loans. -/
theorem matches_discardTicket {ticket : Ticket} (hticket : ticket.OfPool losing) :
    RunAlike marks losing s₀ t₀ (discardTicket ticket) (discardTicket ticket) := by
  cases ticket with
  | idle => exact .pure rfl
  | page home slot generation =>
    intro s t h
    exact h.onPool (fun p => p.discardTicket slot) (fun p => p.discardTicket slot)
      ((h.pool home).discardTicket slot) (.inl hticket)

/-- **Something that is done whatever comes of it.** -/
theorem Marked.after (h : Marked marks losing s₀ t₀ s t) {action action' : StoreM Unit}
    (haction : RunAlike marks losing s₀ t₀ action action') :
    Marked marks losing s₀ t₀ (s.after action) (t.after action') := by
  have hruns := haction s t h
  unfold Store.after
  generalize action s = one, action' t = two at hruns ⊢
  cases hruns with
  | ok _ h => exact h
  | error _ h => exact h

end Actions

end Store

/-- The answer of an encoder with its loan marked. -/
def Encoded.marked (marks : Marks) (encoded : Encoded Loan) : Encoded Loan :=
  { encoded with result := encoded.result.map (Loan.marked marks) }

/-- **Encoding into memory of its own.** -/
theorem Script.matches_encode {marks : Marks} {losing : Nat} {s₀ t₀ : Store} (script : Script)
    (order : ByteOrder) (home : Option Nat) :
    Matches (Store.Lends marks losing s₀ t₀) (fun a b => b = a.marked marks)
      (Store.Marked marks losing s₀ t₀) (Store.Marked marks losing s₀ t₀)
      (script.encode order home) (script.encode order home) := by
  unfold encode
  dsimp only
  cases (script.measure order).length with
  | error failure => exact fun s t h => .ok rfl h.toMarked
  | ok length =>
    refine (Store.matches_obtain home length).bind ?_
    rintro memory _ rfl
    rw [Loan.view_marked, Loan.write_marked]
    cases (script.fill order memory.view).outcome with
    | ok => exact fun s t h => .ok rfl h.toMarked
    | error failure =>
      refine Matches.bind (fun s t h => .ok rfl (h.toMarked.tell (.abandoned length)))
        fun _ _ _ => ?_
      exact (Store.matches_release _).bind fun _ _ _ => .pure rfl

end Wirepool
