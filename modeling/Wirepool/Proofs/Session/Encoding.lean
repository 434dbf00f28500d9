import Wirepool.Proofs.Session.Copies
import Wirepool.Proofs.Store.Encoding

/-!
# Encoding and the capacity of pools

What a message may cost depends on how far it gets. If it cannot be measured it costs
nothing, for there was nothing to ask memory for. If it is measured and cannot be written,
memory of its own is back in the pool and the only page that was moved is on top of its
shelf, while a slice stays charged to its arena until that starts afresh. If it is written,
one page more is outstanding, provided that there is a class of pages for its length.

None of this depends on why a message cannot be measured or written: its caller may leave
with a failure, a fault may be kept, or the message may come out too short for what was
measured.
-/

namespace Wirepool

/-- **What a message with a length costs** in memory of its own. -/
structure Store.Spends (s : Store) (home : Option Nat) (len : Nat) (encoded : Encoded Loan)
    (t : Store) : Prop where
  /-- A message that is written keeps its memory. -/
  obtains : ∀ loan, encoded.result = .ok loan → s.Obtains home len loan t
  /-- The memory of a message that is not written is back. -/
  abandons : ∀ failure, encoded.result = .error failure → s.Abandons home len t
  /-- So one page more is outstanding, or none. -/
  outstanding : ∀ number, (t.pool number).outstanding = (s.pool number).outstanding +
    if encoded.result.isOk ∧ home = some number ∧ 9 ≤ len ∧ len ≤ 32 * 1024 * 1024 then 1 else 0
  losesNothing : s.LosesNothing t

namespace Session

variable {s : Session} {name : String} {a : Arena} {command : Command} {script : Script}
  {order : ByteOrder} {len : Nat}

/-! ## Memory of its own -/

/-- The lengths that a class serves, in numbers. -/
theorem served_iff (len : Nat) :
    (SizeClass.ofLength? len).isSome ↔ 9 ≤ len ∧ len ≤ 32 * 1024 * 1024 :=
  SizeClass.isSome_ofLength?_iff len

/-- **One page more is outstanding** just if memory was taken from a class. -/
theorem outstanding_of_obtains {s t : Store} {home : Option Nat} {loan : Loan}
    (h : s.Obtains home len loan t) (hle : ∀ number, (s.pool number).released ≤
      (s.pool number).borrowed) (number : Nat) :
    (t.pool number).outstanding = (s.pool number).outstanding +
      if home = some number ∧ 9 ≤ len ∧ len ≤ 32 * 1024 * 1024 then 1 else 0 := by
  by_cases hhome : home = some number
  · subst hhome
    cases hclass : SizeClass.ofLength? len with
    | none =>
      have hout : ¬(9 ≤ len ∧ len ≤ 32 * 1024 * 1024) := by
        rw [← served_iff, hclass]
        exact Bool.false_ne_true
      rw [if_neg fun hserved => hout hserved.2, h.bypassed number rfl hclass]
      rfl
    | some c =>
      have hin : 9 ≤ len ∧ len ≤ 32 * 1024 * 1024 := by
        rw [← served_iff, hclass]
        rfl
      obtain ⟨lease, -, -, -, hlends⟩ := h.pooled number rfl c hclass
      rw [if_pos ⟨rfl, hin⟩, Pool.outstanding, Pool.outstanding, hlends.borrowed, hlends.released]
      have := hle number
      omega
  · rw [if_neg fun hserved => hhome hserved.1, h.others number hhome, Nat.add_zero]

/-- **As many are outstanding as before** if the memory is back. -/
theorem outstanding_of_abandons {s t : Store} {home : Option Nat}
    (h : s.Abandons home len t) (number : Nat) :
    (t.pool number).outstanding = (s.pool number).outstanding := by
  by_cases hhome : home = some number
  · subst hhome
    cases hclass : SizeClass.ofLength? len with
    | none =>
      rw [h.bypassed number rfl hclass]
      rfl
    | some c =>
      obtain ⟨shelved, hbriefly⟩ := h.pooled number rfl c hclass
      rw [Pool.outstanding, Pool.outstanding, hbriefly.borrowed, hbriefly.released,
        Nat.add_sub_add_right]
  · rw [h.others number hhome]

/-- **A message that is measured** costs no more than its length. -/
theorem Sound.spends_encode (h : s.Sound) (hle : ∀ number,
      (s.store.pool number).released ≤ (s.store.pool number).borrowed)
    (hmeasure : (script.measure order).length = .ok len) {home : Option Nat}
    (hhome : ∀ number ∈ home, number < s.store.pools.length) :
    Ends (script.encode order home s.store)
      (fun encoded t => s.store.Spends home len encoded t)
      fun abort t => Store.obtain home len s.store = .error abort t := by
  have hends := (Script.encode_capacity h.store_sound hhome hmeasure).and
    (Script.balances_encode h.store_sound hhome script order)
  refine hends.mono (fun encoded t ht => ?_) fun _ _ ht => ht.1
  obtain ⟨hcapacity, row, hbalances⟩ := ht
  obtain ⟨counting, writing, result⟩ := encoded
  cases result with
  | ok loan =>
    refine ⟨?_, nofun, fun number => ?_, hbalances.losesNothing⟩
    · rintro _ ⟨⟩
      exact hcapacity
    · rw [outstanding_of_obtains hcapacity hle]
      simp [Except.isOk, Except.toBool]
  | error failure =>
    refine ⟨nofun, ?_, fun number => ?_, hbalances.losesNothing⟩
    · rintro _ ⟨⟩
      exact hcapacity
    · rw [outstanding_of_abandons hcapacity]
      simp [Except.isOk, Except.toBool]

/-- **A message that fails** leaves all things of a session as they are. -/
theorem step_encode_of_failed {pool : Option String} {counting : List Mark}
    {writing : Option (List Mark)} {failure : Failure}
    (h : (s.step (.message (.encode pool order script name))).1 =
      .encoded ⟨counting, writing, .error failure⟩) :
    ∃ t, script.encode order (pool.bind s.pools.get?) s.store =
        .ok ⟨counting, writing, .error failure⟩ t ∧
      (s.step (.message (.encode pool order script name))).2 = { s with store := t } := by
  have hgo (home : Option Nat)
      (hstep : s.step (.message (.encode pool order script name)) =
        s.run (script.encode order home) fun encoded s => s.enterEncoded name encoded) :
      ∃ t, script.encode order home s.store = .ok ⟨counting, writing, .error failure⟩ t ∧
        (s.step (.message (.encode pool order script name))).2 = { s with store := t } := by
    rw [hstep] at h ⊢
    unfold run at h ⊢
    cases hresult : script.encode order home s.store with
    | error abort t =>
      rw [hresult] at h
      cases h
    | ok encoded t =>
      rw [hresult] at h
      obtain ⟨_, _, result⟩ := encoded
      cases result with
      | ok loan => cases h
      | error failure =>
        cases h
        exact ⟨t, rfl, rfl⟩
  cases pool with
  | none => exact hgo none rfl
  | some pool =>
    have hstep : s.step (.message (.encode (some pool) order script name)) =
        s.expect (s.pools.get? pool) fun home => s.run (script.encode order (some home))
          fun encoded s => s.enterEncoded name encoded := rfl
    cases hpool : s.pools.get? pool with
    | none =>
      rw [hstep, hpool] at h
      cases h
    | some home =>
      rw [hpool] at hstep
      show ∃ t, script.encode order (s.pools.get? pool) s.store = _ ∧ _
      rw [hpool]
      exact hgo (some home) hstep

/-! ## Slices -/

/-- No request of a command takes a charge back. -/
theorem charging_requests (s : Session) (name : String) (command : Command) :
    ∀ request ∈ s.requests name command, Arena.Charging request := by
  intro request hrequest
  unfold requests at hrequest
  split at hrequest
  · split at hrequest
    · cases List.mem_singleton.mp hrequest
      exact Arena.charging_of_charged (fun a s => Arena.charged_get a s _ _) _
    · cases hrequest
  · split at hrequest
    · cases List.mem_singleton.mp hrequest
      exact Arena.charging_of_charged (fun a s => Arena.charged_copy a s _) _
    · cases hrequest
  · split at hrequest
    · cases List.mem_singleton.mp hrequest
      exact Script.charging_encodeInArena _ _ _
    · cases hrequest
  · split at hrequest
    · split at hrequest
      · obtain ⟨row, -, rfl⟩ := List.mem_map.mp hrequest
        exact Arena.charging_of_charged (fun a s => Arena.charged_copy a s row) _
      · cases hrequest
    · cases hrequest
  · cases hrequest

/-- **A command that ends no slices** takes no charge back. -/
theorem Sound.length_le_step (h : s.Sound) (ha : s.arenas.get? name = some a)
    (hends : s.endsSlices name command = false) :
    ∃ b, (s.step command).2.arenas.get? name = some b ∧ a.length ≤ b.length := by
  rcases h.arena_step hends with ⟨own, value, found, slice, rfl, hslice, hfound⟩ | hserved
  · obtain rfl : a = found := Option.some.inj (ha.symm.trans (arena_of_slice? hslice))
    exact ⟨_, hfound, Nat.le_refl _⟩
  · rw [ha] at hserved
    exact ⟨_, hserved, Arena.length_le_serve (s.charging_requests name command) (a, s.store)⟩

/-- Nor do such commands in turn. -/
theorem Sound.length_le_play {later : List Command} (h : s.Sound)
    (ha : s.arenas.get? name = some a) (hkeeps : s.KeepsSlices name later) :
    ∃ b, (s.play later).2.arenas.get? name = some b ∧ a.length ≤ b.length := by
  induction later generalizing s a with
  | nil => exact ⟨a, ha, Nat.le_refl _⟩
  | cons command later ih =>
    obtain ⟨b, hb, hle⟩ := h.length_le_step ha (hkeeps [] command later rfl)
    obtain ⟨c, hc, hle'⟩ := ih (h.obeys_step command).sound hb fun front last back heq =>
      hkeeps (command :: front) last back (congrArg (command :: ·) heq)
    exact ⟨c, hc, Nat.le_trans hle hle'⟩

/-- **An arena stays charged** with a length until its slices are ended; then it starts
afresh. -/
structure StaysCharged (s : Session) (name : String) (a : Arena) (len : Nat) : Prop where
  now : ∃ b, s.arenas.get? name = some b ∧ a.Charged len b
  later (commands : List Command) : s.KeepsSlices name commands →
    ∃ b, (s.play commands).2.arenas.get? name = some b ∧ a.length + len ≤ b.length ∧
      ∃ t, ((s.play commands).2.step (.arena (.reset name))).2.arenas.get? name = some t ∧
        t.length = 0

/-- An arena that is charged stays charged. -/
theorem Sound.staysCharged {b : Arena} (h : s.Sound) (hb : s.arenas.get? name = some b)
    (hcharged : a.Charged len b) : s.StaysCharged name a len := by
  refine ⟨⟨b, hb, hcharged⟩, fun commands hkeeps => ?_⟩
  obtain ⟨c, hc, hle⟩ := h.length_le_play hb hkeeps
  have hsound : (s.play commands).2.Sound := h.play commands
  obtain ⟨t, -, hstep⟩ := hsound.step_reset hc
  refine ⟨c, hc, hcharged.length_eq ▸ hle, .new c.home c.size, ?_, rfl⟩
  rw [hstep]
  exact Table.get?_put_self _ _ _

/-- **A message in a slice** is charged to the arena, and no loan is lost for it. -/
structure Charges (s : Session) (name : String) (a : Arena) (len : Nat) (command : Command) :
    Prop where
  answer : ∃ encoded info, (s.step command).1 = .encodedInArena encoded info
  stays : (s.step command).2.StaysCharged name a len
  losesNothing : s.store.LosesNothing (s.step command).2.store

/-- **A message that is measured** is charged to the arena, written or not, unless its slice
cannot be had. -/
theorem Sound.charges_encodeInArena (h : s.Sound) (ha : s.arenas.get? name = some a)
    (hmeasure : (script.measure order).length = .ok len) (sliceName : Option String) :
    let command := .message (.encodeInArena name order script sliceName)
    s.Charges name a len command ∨ ∃ abort t, (s.step command).1 = .aborted abort ∧
      Arena.get len false (a, s.store) = .error abort t := by
  intro command
  have hmem := Table.mem_values_of_get? ha
  obtain ⟨others, hstore⟩ := h.store_of_arena hmem
  have hends := (Script.charged_encodeInArena hmeasure a s.store).and
    (Script.borrows_encodeInArena hstore (h.arenas_lt a hmem) script order)
  have hsound := (h.obeys_step command).sound
  have hstep : s.step command = s.expect (s.arenas.get? name) _ := rfl
  rw [ha] at hstep
  dsimp only [expect, runArena] at hstep
  cases hresult : script.encodeInArena order (a, s.store) with
  | error abort t =>
    rw [hresult] at hends hstep
    exact .inr ⟨abort, t, by rw [hstep], hends.1.2⟩
  | ok encoded t =>
    rw [hresult] at hends hstep
    obtain ⟨hcharged, row, hbalances⟩ := hends
    have hafter : (∃ encoded info, (s.step command).1 = .encodedInArena encoded info) ∧
        (s.step command).2.arenas.get? name = some t.1 ∧ (s.step command).2.store = t.2 := by
      rw [hstep]
      obtain ⟨_, _, result⟩ := encoded
      cases result with
      | ok slice =>
        cases sliceName <;> exact ⟨⟨_, _, rfl⟩, Table.get?_put_self _ _ _, rfl⟩
      | error failure => exact ⟨⟨_, _, rfl⟩, Table.get?_put_self _ _ _, rfl⟩
    obtain ⟨hanswer, hfound, hsame⟩ := hafter
    refine .inl ⟨hanswer, hsound.staysCharged hfound hcharged, ?_⟩
    rw [hsame]
    exact hbalances.losesNothing

/-! ## The sessions that can be reached -/

/-- **Encoding takes no capacity from a pool but that of its message**, in every session
that can be reached, for every script and whatever lets it fail. If the message cannot be
measured, no pool and no arena changes. If it is measured, memory of its own is taken just
if the message is written, and is back on top of its shelf if it is not; it is a page of the
pool for the lengths of nine bytes up to 32 MiB, and otherwise the pool only counts the
request. A slice is charged to its arena either way, and stays charged until the arena ends
its slices. No loan is lost in any of this. The memory that was measured may not be had at
all; then the driver aborts with the abort of that request. -/
theorem encoding_keeps_capacity (commands : List Command) (script : Script) (order : ByteOrder) :
    let s := (({} : Session).play commands).2
    let measured := script.measure order
    (∀ len, (SizeClass.ofLength? len).isSome ↔ 9 ≤ len ∧ len ≤ 32 * 1024 * 1024) ∧
    (∀ failure, measured.length = .error failure →
      (∀ home t, script.encode order home t = .ok ⟨measured.marks, none, .error failure⟩ t) ∧
      ∀ t, script.encodeInArena order t = .ok ⟨measured.marks, none, .error failure⟩ t) ∧
    (∀ len, measured.length = .ok len →
      (∀ home, (∀ number ∈ home, number < s.store.pools.length) →
        Ends (script.encode order home s.store)
          (fun encoded t => s.store.Spends home len encoded t)
          fun abort t => Store.obtain home len s.store = .error abort t) ∧
      ∀ name a sliceName, s.arenas.get? name = some a →
        let command := .message (.encodeInArena name order script sliceName)
        s.Charges name a len command ∨ ∃ abort t, (s.step command).1 = .aborted abort ∧
          Arena.get len false (a, s.store) = .error abort t) ∧
    ∀ pool name counting writing failure,
      (s.step (.message (.encode pool order script name))).1 =
        .encoded ⟨counting, writing, .error failure⟩ →
      ∃ t, script.encode order (pool.bind s.pools.get?) s.store =
          .ok ⟨counting, writing, .error failure⟩ t ∧
        (s.step (.message (.encode pool order script name))).2 = { s with store := t } := by
  intro s measured
  have hsound : s.Sound := sound_play commands
  refine ⟨served_iff, fun failure hmeasure => ⟨?_, ?_⟩, fun len hmeasure => ⟨?_, ?_⟩, ?_⟩
  · exact Script.encode_of_unmeasured hmeasure
  · exact Script.encodeInArena_of_unmeasured hmeasure
  · exact fun home hhome => hsound.spends_encode (released_le_borrowed commands) hmeasure hhome
  · exact fun name a sliceName ha => hsound.charges_encodeInArena ha hmeasure sliceName
  · exact fun pool name counting writing failure hanswer => step_encode_of_failed hanswer

/-- A message that comes out a byte short: its page is back on the shelf. -/
theorem encoding_keeps_capacity_short :
    let s := (({} : Session).play [.pool (.make "pool")]).2
    let script : Script := ⟨[.whenCounting (.put (.skip 9)), .whenWriting (.put (.skip 8))], true⟩
    ∃ encoded t, script.encode .bigEndian (some 0) s.store = .ok encoded t ∧
      encoded.result.isOk = false ∧ s.store.Spends (some 0) 9 encoded t := by
  intro s script
  have hmeasure : (script.measure .bigEndian).length = .ok 9 := by rfl
  have hhome : ∀ number ∈ some 0, number < s.store.pools.length := by
    rintro number ⟨⟩
    show 0 < s.store.pools.length
    decide
  have hspends := ((encoding_keeps_capacity [.pool (.make "pool")] script .bigEndian).2.2.1 9
    hmeasure).1 (some 0) hhome
  have hfails : Ends (script.encode .bigEndian (some 0) s.store)
      (fun encoded _ => encoded.result.isOk = false) fun _ _ => False := by
    dsimp only [script]
    rfl
  obtain ⟨encoded, t, hencode, hfailed⟩ := hfails.exists_ok
  rw [hencode] at hspends
  exact ⟨encoded, t, hencode, hfailed, hspends⟩

end Session

end Wirepool
