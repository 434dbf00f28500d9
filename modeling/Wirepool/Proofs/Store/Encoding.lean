import Wirepool.Proofs.Arena.Books
import Wirepool.Proofs.Arena.Charge
import Wirepool.Proofs.Pool.Lends
import Wirepool.Proofs.Store.Messages

/-!
# What encoding does to the memory behind it

A driver asks for memory only when a message has been measured, so a message that fails
before that costs nothing. After that one request is made, for just the length that was
measured. If the message cannot be written then, memory of its own is given back at once,
and a slice stays with its arena: an arena takes no slice back, and what is charged to it
stays charged.
-/

namespace Wirepool

open HolderM

namespace Store

variable {s t : Store} {loans : Multiset Loan} {tickets : Multiset Ticket}

/-- **No loan is lost**: no pool counts one, nothing warns of one, and no tracker receives a
report. -/
structure LosesNothing (s t : Store) : Prop where
  leaked : ∀ number, (t.pool number).leaked = (s.pool number).leaked
  warned : t.warned = s.warned
  reported : t.reported = s.reported

/-- Where no loss is entered there is none. -/
theorem Balances.losesNothing {lent returned : List Account} {loans' : Multiset Loan}
    (h : s.Balances loans ⟨lent, returned, []⟩ t loans') : s.LosesNothing t :=
  ⟨h.leaked, h.warned, by rw [h.reported]; cases s.tracking <;> rfl⟩

/-- **What memory for a message takes from the pools.** -/
structure Obtains (s : Store) (home : Option Nat) (len : Nat) (loan : Loan) (t : Store) :
    Prop where
  /-- A page, if there is a class for it. -/
  pooled : ∀ number ∈ home, ∀ c, SizeClass.ofLength? len = some c →
    ∃ lease, loan = .pooled lease ∧ lease.home = number ∧ lease.len = len ∧
      (s.pool number).Lends c lease (t.pool number)
  /-- Otherwise the request is counted as bypassed. -/
  bypassed : ∀ number ∈ home, SizeClass.ofLength? len = none →
    t.pool number = { s.pool number with bypassed := (s.pool number).bypassed + 1 }
  /-- The memory is of the system then, or if no pool is asked. -/
  system : home = none ∨ SizeClass.ofLength? len = none → loan.isPooled = false
  others : ∀ number, home ≠ some number → t.pool number = s.pool number

/-- **What is left in the pools** if that memory is given back at once. -/
structure Abandons (s : Store) (home : Option Nat) (len : Nat) (t : Store) : Prop where
  /-- The page is on top of its shelf. -/
  pooled : ∀ number ∈ home, ∀ c, SizeClass.ofLength? len = some c →
    ∃ shelved, (s.pool number).LendsBriefly c shelved (t.pool number)
  bypassed : ∀ number ∈ home, SizeClass.ofLength? len = none →
    t.pool number = { s.pool number with bypassed := (s.pool number).bypassed + 1 }
  others : ∀ number, home ≠ some number → t.pool number = s.pool number

/-- **Memory for a message** takes no more than that, if it can be had. -/
theorem Sound.obtains (h : s.Sound loans tickets) {home : Option Nat}
    (hhome : ∀ number ∈ home, number < s.pools.length) (len : Nat) :
    Ends (Store.obtain home len s) (fun loan t => s.Obtains home len loan t) fun _ _ => True := by
  cases home with
  | none =>
    by_cases hlen : len < addressLimit
    · rw [obtain_granted hlen]
      exact ⟨nofun, nofun, fun _ => rfl, fun _ _ => rfl⟩
    · rw [obtain_refused hlen]
      trivial
  | some number =>
    have hnumber := hhome number rfl
    have hothers (q : Pool) (events : List Event) (other : Nat) (hne : some number ≠ some other) :
        (s.commit number q events).pool other = s.pool other :=
      pool_commit_of_ne q events fun heq => hne (congrArg some heq.symm)
    show Ends (Store.borrow number len false s) _ _
    cases hclass : SizeClass.ofLength? len with
    | none =>
      by_cases hlen : len < addressLimit
      · rw [borrow_bypassed hclass hlen]
        refine ⟨fun _ _ c hc => ?_, ?_, fun _ => rfl, hothers _ _⟩
        · rw [hclass] at hc
          cases hc
        · rintro _ ⟨⟩ -
          exact pool_commit_self _ _ hnumber
      · rw [borrow_refused hclass hlen]
        trivial
    | some c =>
      obtain ⟨q, lease, events, hborrow, hlease, hlen, hlends⟩ :=
        (h.pool number).placed.lends_borrow hclass number false (s.tracking || s.tracing)
      rw [borrow_of_ok hborrow]
      refine ⟨?_, fun _ _ hnone => ?_, fun hsystem => ?_, hothers _ _⟩
      · rintro _ ⟨⟩ d hd
        cases hclass.symm.trans hd
        refine ⟨lease, rfl, hlease, hlen, ?_⟩
        rw [pool_commit_self q events hnumber]
        exact hlends
      · rw [hclass] at hnone
        cases hnone
      · rw [hclass] at hsystem
        rcases hsystem with hsystem | hsystem <;> cases hsystem

/-- The accounts of a message's memory. -/
theorem Sound.balances_obtain (h : s.Sound loans tickets) {home : Option Nat}
    (hhome : ∀ number ∈ home, number < s.pools.length) (len : Nat) :
    Ends (Store.obtain home len s)
      (fun loan t => s.Balances loans ⟨loan.account?.toList, [], []⟩ t (loan ::ₘ loans))
      fun _ t => s.Balances loans {} t loans := by
  cases home with
  | some number => exact h.balances_borrow (hhome number rfl) len false
  | none =>
    by_cases hlen : len < addressLimit
    · rw [obtain_granted hlen]
      exact .of_pool_eq (fun _ => rfl) (fun other => heldAccounts_cons_unpooled other loans _) rfl
        rfl rfl
    · rw [obtain_refused hlen]
      exact .refl s loans

/-- **Memory that is given back** right after it was obtained, whatever was written to it and
told. -/
theorem Obtains.abandons {home : Option Nat} {len : Nat} {memory : Loan}
    (h : s.Obtains home len memory t) (hsound : t.Sound (memory ::ₘ loans) tickets)
    (row : List UInt8) (event : Event) :
    Ends (Store.release (memory.write 0 row) (t.tell event)) (fun _ u => s.Abandons home len u)
      fun _ _ => False := by
  have hpool (number : Nat) : (t.tell event).pool number = t.pool number := by
    rw [pool, pools_tell, pool]
  cases memory with
  | unpooled block =>
    refine ⟨fun number hnumber c hc => ?_, fun number hnumber hc => ?_, fun number hne => ?_⟩
    · obtain ⟨lease, hlease, -⟩ := h.pooled number hnumber c hc
      cases hlease
    · rw [hpool, h.bypassed number hnumber hc]
    · rw [hpool, h.others number hne]
  | pooled lease =>
    have hserved : home ≠ none ∧ SizeClass.ofLength? len ≠ none :=
      not_or.mp fun hsystem => Bool.noConfusion (h.system hsystem)
    obtain ⟨number, rfl⟩ := Option.ne_none_iff_exists'.mp hserved.1
    obtain ⟨c, hc⟩ := Option.ne_none_iff_exists'.mp hserved.2
    obtain ⟨_, ⟨⟩, hhome, -, hlends⟩ := h.pooled number rfl c hc
    have htold := (Leads.tell hsound event).1
    have hwritten : (t.tell event).Sound (((Loan.pooled lease).write 0 row) ::ₘ loans) tickets := by
      refine htold.of_terms_eq ?_
      rw [Multiset.map_cons, Multiset.map_cons, Loan.terms_write]
    have howner : ∀ owner ∈ ((Loan.pooled lease).write 0 row).terms.lease.map Prod.fst,
        owner = number := by
      rintro _ ⟨⟩
      exact hhome
    refine (hwritten.collects_release howner).mono (fun _ u hu => ?_) fun _ _ hf => hf
    refine ⟨?_, fun _ _ hnone => absurd hnone hserved.2, fun other hne => ?_⟩
    · rintro _ ⟨⟩ d hd
      cases hc.symm.trans hd
      have hback := hu.pool
      rw [hpool] at hback
      exact ⟨_, hlends.briefly hback rfl rfl⟩
    · rw [hu.others other fun heq => hne (congrArg some heq.symm), hpool, h.others other hne]

end Store

namespace Script

variable {s : Store} {loans : Multiset Loan} {tickets : Multiset Ticket} {order : ByteOrder}
  {script : Script}

/-! ## Memory of its own -/

/-- **A message that cannot be measured** costs nothing. -/
theorem encode_of_unmeasured {failure : Failure}
    (h : (script.measure order).length = .error failure) (home : Option Nat) (s : Store) :
    script.encode order home s =
      .ok ⟨(script.measure order).marks, none, .error failure⟩ s := by
  unfold encode
  dsimp only
  rw [h]
  rfl

/-- Wherever it was to stand. -/
theorem encodeInArena_of_unmeasured {failure : Failure}
    (h : (script.measure order).length = .error failure) (t : Arena × Store) :
    script.encodeInArena order t =
      .ok ⟨(script.measure order).marks, none, .error failure⟩ t := by
  unfold encodeInArena
  dsimp only
  rw [h]
  rfl

/-- **A message that is measured** takes memory from the pools, and keeps it just if it is
written. -/
theorem encode_capacity (h : s.Sound loans tickets) {home : Option Nat}
    (hhome : ∀ number ∈ home, number < s.pools.length) {len : Nat}
    (hmeasure : (script.measure order).length = .ok len) :
    Ends (script.encode order home s)
      (fun encoded t => match encoded.result with
        | .ok loan => s.Obtains home len loan t
        | .error _ => s.Abandons home len t)
      fun abort t => Store.obtain home len s = .error abort t := by
  unfold encode
  dsimp only
  rw [hmeasure]
  dsimp only
  refine Ends.bind ((((h.obtain hhome len).and (h.obtains hhome len)).abort_eq).mono
    (fun _ _ ht => ht) fun _ _ ht => ht.2) fun memory t ht => ?_
  obtain ⟨⟨⟨hsound, -⟩, -⟩, hobtains⟩ := ht
  cases (script.fill order memory.view).outcome with
  | ok =>
    -- writing to the page leaves the loan as it was
    refine ⟨fun number hnumber c hc => ?_, hobtains.bypassed, fun hsystem => ?_, hobtains.others⟩
    · obtain ⟨lease, rfl, hlease, hlen, hlends⟩ := hobtains.pooled number hnumber c hc
      exact ⟨_, rfl, hlease, hlen, hlends.mapBlock _ _⟩
    · have hplain := hobtains.system hsystem
      cases memory with
      | unpooled block => rfl
      | pooled lease => cases hplain
  | error failure =>
    show Ends ((Store.release _ >>= fun _ => pure _) (t.tell (.abandoned len))) _ _
    exact Ends.bind ((hobtains.abandons hsound _ _).mono (fun _ _ hu => hu) fun _ _ hf => hf.elim)
      fun _ _ hu => hu

/-- **The memory that a driver gives back**, because the message cannot be written. -/
def abandons (script : Script) (order : ByteOrder) (home : Option Nat) (s : Store) : List Loan :=
  match (script.measure order).length with
  | .error _ => []
  | .ok length =>
    match Store.obtain home length s with
    | .error _ _ => []
    | .ok memory _ =>
      match (script.fill order memory.view).outcome with
      | .ok () => []
      | .error _ => [memory]

/-- None of it is of a pool if no pool is asked. -/
theorem abandons_none (script : Script) (order : ByteOrder) (s : Store) :
    (script.abandons order none s).filterMap Loan.account? = [] := by
  unfold abandons
  cases (script.measure order).length with
  | error failure => rfl
  | ok length =>
    dsimp only
    by_cases hlen : length < addressLimit
    · rw [Store.obtain_granted hlen]
      dsimp only
      cases (script.fill order (Loan.unpooled (.zeroed length)).view).outcome <;> rfl
    · rw [Store.obtain_refused hlen]
      rfl

/-- **Encoding into memory of its own** enters the loan that is made, and once more if it is
given back. -/
theorem balances_encode (h : s.Sound loans tickets) {home : Option Nat}
    (hhome : ∀ number ∈ home, number < s.pools.length) (script : Script) (order : ByteOrder) :
    Ends (script.encode order home s)
      (fun encoded t => ∃ row, s.Balances loans
        ⟨row, (script.abandons order home s).filterMap Loan.account?, []⟩ t
        (↑encoded.result.toOption.toList + loans))
      fun _ t => ∃ row, s.Balances loans
        ⟨row, (script.abandons order home s).filterMap Loan.account?, []⟩ t loans := by
  unfold encode abandons
  dsimp only
  cases (script.measure order).length with
  | error failure =>
    refine ⟨[], ?_⟩
    show s.Balances loans {} s (↑([] : List Loan) + loans)
    rw [Multiset.coe_nil, zero_add]
    exact .refl s loans
  | ok length =>
    dsimp only
    have hends := (h.obtain hhome length).and (h.balances_obtain hhome length)
    cases hobtain : Store.obtain home length s with
    | error abort t =>
      rw [hobtain] at hends
      simp only [bind, EStateM.bind, hobtain]
      exact ⟨[], hends.2⟩
    | ok memory t =>
      rw [hobtain] at hends
      obtain ⟨⟨⟨hsound, -⟩, -⟩, hbalances⟩ := hends
      simp only [bind, EStateM.bind, hobtain]
      let message := memory.write 0 (script.fill order memory.view).destination
      have hterms : (message ::ₘ loans).map Loan.terms = (memory ::ₘ loans).map Loan.terms := by
        rw [Multiset.map_cons, Multiset.map_cons, Loan.terms_write]
      cases (script.fill order memory.view).outcome with
      | ok =>
        refine ⟨memory.account?.toList, ?_⟩
        show s.Balances loans _ t (↑[message] + loans)
        rw [Multiset.coe_singleton, Multiset.singleton_add]
        exact hbalances.of_terms_eq hterms
      | error failure =>
        have hmessage := hsound.of_terms_eq hterms
        have htold := (Store.Leads.tell hmessage (.abandoned length)).1
        have hfirst := (hbalances.of_terms_eq hterms).trans
          (t.balances_tell _ (rfl : (Event.abandoned length).report? = none))
        show Ends ((Store.release _ >>= fun _ => pure _) (t.tell (.abandoned length))) _ _
        refine Ends.bind (htold.balances_release.mono (fun _ _ hu => hu) fun _ _ hf => hf.elim)
          fun _ u hu => ⟨memory.account?.toList, ?_⟩
        have hboth := hfirst.trans hu
        rw [Loan.account?_write] at hboth
        show s.Balances loans ⟨_, [memory].filterMap Loan.account?, []⟩ u
          (↑([] : List Loan) + loans)
        rw [Multiset.coe_nil, zero_add, List.filterMap_cons]
        cases haccount : memory.account? <;> rw [haccount] at hboth <;> exact hboth

/-! ## A slice of an arena -/

variable {a : Arena}

/-- **Encoding into a slice** charges the arena with the length that was measured, whether
the message is written or not. -/
theorem charged_encodeInArena {len : Nat} (hmeasure : (script.measure order).length = .ok len)
    (a : Arena) (s : Store) :
    Ends (script.encodeInArena order (a, s)) (fun _ t => a.Charged len t.1)
      fun abort t => (t = (a, s) ∨ a.Charged len t.1) ∧
        Arena.get len false (a, s) = .error abort t := by
  unfold encodeInArena
  dsimp only
  rw [hmeasure]
  dsimp only
  exact (Arena.charged_get a s len false).abort_eq.bind fun slice t ht => ⟨ht.1, ht.2, ht.3⟩

/-- No charge is taken back for a message, measured or not. -/
theorem charging_encodeInArena (script : Script) (order : ByteOrder)
    (f : Encoded Slice → Option Slice) : Arena.Charging (f <$> script.encodeInArena order) := by
  cases hmeasure : (script.measure order).length with
  | error failure =>
    have hnothing (a : Arena) (s : Store) : Ends (script.encodeInArena order (a, s))
        (fun _ t => a.Charged 0 t.1) fun _ t => t = (a, s) ∨ a.Charged 0 t.1 := by
      rw [encodeInArena_of_unmeasured hmeasure]
      exact .refl a
    exact Arena.charging_of_charged hnothing f
  | ok len =>
    exact Arena.charging_of_charged (fun a s =>
      (charged_encodeInArena hmeasure a s).mono (fun _ _ ht => ht) fun _ _ ht => ht.1) f

/-- **Encoding into a slice** borrows and does no more. -/
theorem borrows_encodeInArena (h : s.Sound (↑a.chunks + loans) tickets)
    (hhome : a.home < s.pools.length) (script : Script) (order : ByteOrder) :
    Ends (script.encodeInArena order (a, s)) (fun _ => a.Borrows s loans)
      fun _ => a.Borrows s loans := by
  unfold encodeInArena
  dsimp only
  cases (script.measure order).length with
  | error failure => exact Store.Borrows.refl s _
  | ok length =>
    dsimp only
    refine (Arena.borrows_get h hhome length false).bind fun slice t ht => ?_
    exact Store.Borrows.of_terms_eq ht (Arena.terms_modifyChunk t.1 slice fun loan =>
      Loan.terms_write loan _ _)

end Script

end Wirepool
