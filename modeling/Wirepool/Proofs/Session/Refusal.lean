import Wirepool.Proofs.Session.Beside
import Wirepool.Proofs.Session.Spanned
import Wirepool.Proofs.Session.Verdicts
import Wirepool.Proofs.Wire.Safety

/-!
# A refused request leaves everything usable

A command that wants more memory than addresses can span is refused in the middle of its
work. It leaves two figures ahead, that of the requests which the pool left to the system and
the length of the arena, and it leaves nothing else. So the session is beside the one it was,
and from then on every row of commands does the same in both, the two figures apart.

There is one thing a figure can do. The length of an arena has to stay a number of one word,
so a request that was refused can be what fills it up, and then a later request to that arena
is refused for that. It cannot where no arena was asked, and not any more where the arena has
been reset or replaced.
-/

namespace Wirepool

/-- **A command was refused** for want of memory. A buffer says so in its own answer. -/
inductive Answer.Refused : Answer → Prop
  | aborted : Refused (.aborted .capacityOverflow)
  | request (info : BufferInfo) : Refused (.request (.aborted .capacityOverflow) info)

/-! ## What a command asks for -/

/-- **What a command brings can be spanned**, as any row of bytes in a memory can. It matters only
where a decoder copies into an arena: in front of a row that is too long, other copies would be
there already when it is refused. -/
def Command.Spanned : Command → Prop
  | .message (.decode source (some _) _ calls _) =>
    (∀ row, source = .bytes row → row.length < addressLimit) ∧
      ∀ input, .reset input ∈ calls → input.length < addressLimit
  | _ => True

/-- **What a command asks of the system**, if it asks for anything. -/
structure Demand where
  /-- How much memory is asked for. -/
  size : Nat := 0
  /-- The number of the pool that is asked, if one is. -/
  pool : Option Nat := none
  /-- The name of the arena that asks, if one does. -/
  arena : Option String := none
  /-- The length that the arena charges for it. -/
  charge : Nat := 0

namespace Demand

/-- The figures that are ahead if it is refused. -/
def surplus (demand : Demand) : Surplus where
  bypassed number := if demand.pool = some number then 1 else 0
  length name := if demand.arena = some name then demand.charge else 0

/-- What is told if it is refused. -/
def told (demand : Demand) : List Event :=
  (demand.pool.map fun _ => .bypassed demand.size).toList

end Demand

namespace Session

variable (s : Session)

/-- What is asked for when an arena is to give a slice: memory for it, or a fragment. -/
def arenaDemand (name : String) (len : Nat) : Demand :=
  match s.arenas.get? name with
  | some a => { size := max len a.size, pool := some a.home, arena := some name, charge := len }
  | none => {}

/-- The first copy of a reading that is not empty. -/
def firstCopy (source : Source) (order : ByteOrder) (calls : List ReadCall) : List UInt8 :=
  match s.sourceBytes? source with
  | some input => ((decode order input calls).1.toArena.find? fun row => !row.isEmpty).getD []
  | none => []

/-- **What a command asks for.** A buffer asks for one chunk after another, so it asks first
for one. -/
def demand : Command → Demand
  | .pool (.borrow pool len _ _) => { size := len, pool := s.pools.get? pool }
  | .pool (.concat pool parts _) => { size := parts.flatten.length, pool := s.pools.get? pool }
  | .arena (.get name len _ _) => s.arenaDemand name len
  | .arena (.copy name row _) => s.arenaDemand name row.length
  | .message (.encode pool order script _) =>
    { size := (script.measure order).length.toOption.getD 0, pool := pool.bind s.pools.get? }
  | .message (.encodeInArena name order script _) =>
    s.arenaDemand name ((script.measure order).length.toOption.getD 0)
  | .message (.decode source (some name) order calls _) =>
    s.arenaDemand name (s.firstCopy source order calls).length
  | .buffer (.request name _) =>
    match s.buffers.get? name with
    | some b => { size := b.chunkSize, pool := some b.home }
    | none => {}
  | _ => {}

/-- **What a session is left with by a command that is refused.** The pool that was asked has
left one more request to the system and has told so, and the arena that asked is longer by the
length. Everything else is as it was. -/
structure Refuses (demand : Demand) (t : Session) : Prop where
  /-- Addresses cannot span what was asked for. -/
  too_long : addressLimit ≤ demand.size
  pools_length : t.store.pools.length = s.store.pools.length
  pool_eq (number : Nat) :
    t.store.pool number = (s.store.pool number).ahead (demand.surplus.bypassed number)
  events_eq : t.store.events = demand.told ++ s.store.events
  store_eq : t.store = { s.store with pools := t.store.pools, events := t.store.events }
  arena_eq (name : String) :
    t.arenas.get? name = (s.arenas.get? name).map (·.longer (demand.surplus.length name))
  /-- What is charged leaves the length of the arena a number of one word. -/
  length_lt (name : String) (a : Arena) : demand.arena = some name →
    t.arenas.get? name = some a → a.length < wordLimit
  buffer_eq (name : String) : t.buffers.get? name = s.buffers.get? name
  rest_eq : t = { s with store := t.store, arenas := t.arenas, buffers := t.buffers }

variable {s} {t : Session} {demand : Demand}

/-- A session that is left so is beside the one it was. -/
theorem Refuses.ahead (h : s.Refuses demand t) : Ahead demand.surplus t.store s.store t s where
  store :=
    { length_eq := h.pools_length
      pool_eq := h.pool_eq
      tracker_eq := by rw [h.store_eq]
      tracing_eq := by rw [h.store_eq]
      events := ⟨[], rfl, rfl⟩
      deliveries := ⟨[], by rw [h.store_eq]; rfl, rfl⟩ }
  shared := by rw [h.rest_eq]
  pools := by rw [h.rest_eq]
  loans := by rw [h.rest_eq]
  tickets := by rw [h.rest_eq]
  slices := by rw [h.rest_eq]
  arenas name := by
    rw [h.arena_eq]
    cases s.arenas.get? name with
    | some a => exact .some ⟨_, .inr rfl, rfl⟩
    | none => exact .none
  buffers := h.buffer_eq

/-! ## The parts of a command -/

/-- A session is left so by a store that is left with one more request. -/
theorem refuses_of_bypassing (hlong : addressLimit ≤ demand.size)
    (hpool : ∀ number, demand.pool = some number → number < s.store.pools.length)
    (hstore : t.store = s.store.bypassing (demand.pool.map (·, demand.size)))
    (harena : ∀ name, t.arenas.get? name =
      (s.arenas.get? name).map (·.longer (demand.surplus.length name)))
    (hlength : ∀ name a, demand.arena = some name → t.arenas.get? name = some a →
      a.length < wordLimit)
    (hbuffer : ∀ name, t.buffers.get? name = s.buffers.get? name)
    (hrest : t = { s with store := t.store, arenas := t.arenas, buffers := t.buffers }) :
    s.Refuses demand t := by
  obtain ⟨size, pool, arena, charge⟩ := demand
  cases pool with
  | none =>
    refine ⟨hlong, ?_, fun number => ?_, ?_, ?_, harena, hlength, hbuffer, hrest⟩ <;> rw [hstore]
    all_goals rfl
  | some number =>
    have hlt := hpool number rfl
    change t.store = s.store.commit number _ _ at hstore
    refine ⟨hlong, ?_, fun other => ?_, ?_, ?_, harena, hlength, hbuffer, hrest⟩
    · rw [hstore, Store.pools_commit, List.length_set]
    · show _ = (s.store.pool other).ahead (if some number = some other then 1 else 0)
      rw [hstore]
      by_cases hother : other = number
      · rw [hother, Store.pool_commit_self _ _ hlt, if_pos rfl]
      · rw [Store.pool_commit_of_ne _ _ hother, if_neg fun h => hother (Option.some.inj h).symm]
        rfl
    · rw [hstore]
      rfl
    · rw [hstore]
      rfl

/-- **Steps that are refused leave the session so.** -/
def Withstands (s : Session) (demand : Demand) (step : Step) : Prop :=
  step.1.Refused → s.Refuses demand step.2

theorem withstands_of_not_refused {step : Step} (h : ¬step.1.Refused) : s.Withstands demand step :=
  fun hrefused => absurd hrefused h

/-- What goes on with a thing. -/
theorem withstands_expect {α : Type} {thing : Option α} {go : α → Step}
    (hgo : ∀ a, thing = some a → s.Withstands demand (go a)) :
    s.Withstands demand (s.expect thing go) :=
  expect_of (withstands_of_not_refused nofun) hgo

theorem not_refused_expect {α : Type} {thing : Option α} {go : α → Step}
    (hgo : ∀ a, thing = some a → ¬(go a).1.Refused) : ¬(s.expect thing go).1.Refused := by
  cases thing with
  | none => exact nofun
  | some a => exact hgo a rfl

/-- What goes on with an answer of the store, if neither is ever refused. -/
theorem not_refused_run {α : Type} {action : StoreM α} {go : α → Session → Step}
    (haction : NeverRefused action) (hgo : ∀ a t, ¬(go a t).1.Refused) :
    ¬(s.run action go).1.Refused := by
  have hends := haction s.store
  unfold Session.run
  cases hresult : action s.store with
  | ok a u => exact hgo a _
  | error abort u =>
    rw [hresult] at hends
    rintro ⟨⟩
    exact hends rfl

/-- What goes on with an answer of an arena, if neither is ever refused. -/
theorem not_refused_runArena {α : Type} {name : String} {a : Arena} {action : HolderM Arena α}
    {go : α → Arena → Session → Step} (haction : NeverRefused action)
    (hgo : ∀ x b t, ¬(go x b t).1.Refused) : ¬(s.runArena name a action go).1.Refused := by
  have hends := haction (a, s.store)
  unfold Session.runArena
  cases hresult : action (a, s.store) with
  | ok x u => exact hgo x u.1 _
  | error abort u =>
    rw [hresult] at hends
    rintro ⟨⟩
    exact hends rfl

/-- What goes on with an answer of the store. -/
theorem withstands_run {α : Type} {action : StoreM α} {go : α → Session → Step} {size : Nat}
    {pool : Option Nat} (hpool : ∀ number, pool = some number → number < s.store.pools.length)
    (haction : Leaves (action s.store) size (s.store.bypassing (pool.map (·, size))))
    (hgo : ∀ a t, ¬(go a t).1.Refused) :
    s.Withstands { size, pool } (s.run action go) := by
  unfold Session.run
  cases hresult : action s.store with
  | ok a u => exact withstands_of_not_refused (hgo a _)
  | error abort u =>
    rw [hresult] at haction
    rintro ⟨⟩
    obtain ⟨hlong, rfl⟩ := haction rfl
    refine refuses_of_bypassing hlong hpool rfl (fun name => ?_) nofun (fun _ => rfl) rfl
    exact Option.map_id'.symm

/-- What goes on with an answer of an arena. -/
theorem withstands_runArena {α : Type} {name : String} {a : Arena} {action : HolderM Arena α}
    {go : α → Arena → Session → Step} {len : Nat} (ha : s.arenas.get? name = some a)
    (hhome : a.home < s.store.pools.length)
    (haction : Ends (action (a, s.store)) (fun _ _ => True) fun abort t =>
      abort = .capacityOverflow → a.IsRefused s.store len t)
    (hgo : ∀ x b t, ¬(go x b t).1.Refused) :
    s.Withstands (s.arenaDemand name len) (s.runArena name a action go) := by
  unfold Session.runArena
  cases hresult : action (a, s.store) with
  | ok x u => exact withstands_of_not_refused (hgo x u.1 _)
  | error abort u =>
    rw [hresult] at haction
    rintro ⟨⟩
    obtain ⟨hroom, hlong, rfl⟩ := haction rfl
    have hput (other : String) : (s.arenas.put name (a.longer len)).get? other =
        if other = name then some (a.longer len) else s.arenas.get? other :=
      Table.get?_put s.arenas name other _
    rw [arenaDemand, ha]
    refine refuses_of_bypassing hlong ?_ rfl (fun other => ?_) ?_ (fun _ => rfl) rfl
    · rintro _ ⟨⟩
      exact hhome
    · show (s.arenas.put name (a.longer len)).get? other =
        (s.arenas.get? other).map (·.longer (if some name = some other then len else 0))
      rw [hput]
      by_cases hother : other = name
      · rw [hother, if_pos rfl, if_pos rfl, ha]
        rfl
      · rw [if_neg hother, if_neg fun h => hother (Option.some.inj h).symm]
        exact Option.map_id'.symm
    · rintro _ b ⟨⟩ hb
      change (s.arenas.put name (a.longer len)).get? name = some b at hb
      rw [hput, if_pos rfl] at hb
      cases hb
      exact hroom

/-! ## Every command -/

/-- A name of a pool is the name of one that is there. -/
theorem Sound.pool_lt (h : s.Sound) (pool : String) :
    ∀ number, s.pools.get? pool = some number → number < s.store.pools.length :=
  fun number hnumber => h.pools_lt number (Table.mem_values_of_get? hnumber)

theorem Sound.withstands_poolStep (h : s.Sound) (command : PoolCommand) :
    s.Withstands (s.demand (.pool command)) (s.poolStep command) := by
  have hnot {step : Step} {demand : Demand} (h : ¬step.1.Refused) : s.Withstands demand step :=
    withstands_of_not_refused h
  cases command with
  | make name => exact hnot nofun
  | shared name =>
    unfold Session.poolStep
    dsimp only
    split <;> exact hnot nofun
  | clone pool name => exact withstands_expect fun _ _ => hnot nofun
  | forget pool => exact withstands_expect fun _ _ => hnot nofun
  | same first second =>
    exact withstands_expect fun _ _ => withstands_expect fun _ _ => hnot nofun
  | figures pool => exact withstands_expect fun _ _ => hnot nofun
  | classFigures pool capacity => exact withstands_expect fun _ _ => hnot nofun
  | borrow pool len zero name =>
    refine withstands_expect fun number hnumber =>
      withstands_run (h.pool_lt pool) ?_ fun _ _ => nofun
    rw [hnumber]
    exact (Store.grantedOrLeft_borrow number len zero s.store).leaves
  | concat pool parts name =>
    refine withstands_expect fun number hnumber =>
      withstands_run (h.pool_lt pool) ?_ fun _ _ => nofun
    rw [hnumber]
    exact Store.leaves_concat number parts s.store

theorem not_refused_loanStep (command : LoanCommand) : ¬(s.loanStep command).1.Refused := by
  cases command with
  | idle name => exact nofun
  | release name =>
    exact not_refused_expect fun loan _ =>
      not_refused_run (Store.neverRefused_release loan) fun _ _ => nofun
  | drop name =>
    exact not_refused_expect fun loan _ =>
      not_refused_run (Store.neverRefused_lose loan) fun _ _ => nofun
  | detach loanName name =>
    exact not_refused_expect fun loan _ =>
      not_refused_run (Store.neverRefused_detach loan) fun _ _ => nofun
  | _ => exact not_refused_expect fun _ _ => nofun

theorem not_refused_ticketStep (command : TicketCommand) : ¬(s.ticketStep command).1.Refused := by
  cases command with
  | idle name => exact nofun
  | info name => exact not_refused_expect fun _ _ => nofun
  | clone held name =>
    exact not_refused_expect fun ticket _ =>
      not_refused_run (Store.neverRefused_copyTicket ticket) fun _ _ => nofun
  | redeem name =>
    exact not_refused_expect fun ticket _ =>
      not_refused_run (Store.neverRefused_redeem ticket) fun _ _ => nofun
  | discard name =>
    exact not_refused_expect fun ticket _ =>
      not_refused_run (Store.neverRefused_discardTicket ticket) fun _ _ => nofun

theorem Sound.withstands_arenaStep (h : s.Sound) (command : ArenaCommand) :
    s.Withstands (s.demand (.arena command)) (s.arenaStep command) := by
  have hnot {step : Step} {demand : Demand} (h : ¬step.1.Refused) : s.Withstands demand step :=
    withstands_of_not_refused h
  cases command with
  | make pool size checked name =>
    rcases s.arenaStep_make pool size checked name with hstep | ⟨fault, hstep⟩ |
      ⟨home, -, hstep⟩ <;> rw [hstep] <;> exact hnot nofun
  | get name len zero entered =>
    exact withstands_expect fun a ha =>
      withstands_runArena ha (h.arenas_lt a (Table.mem_values_of_get? ha))
        ((Arena.ends_get_refused len zero).mono (fun _ _ _ => trivial) fun _ _ ht => ht)
        fun _ _ _ => nofun
  | copy name row entered =>
    exact withstands_expect fun a ha =>
      withstands_runArena ha (h.arenas_lt a (Table.mem_values_of_get? ha))
        ((Arena.ends_copy_refused row).mono (fun _ _ _ => trivial) fun _ _ ht => ht)
        fun _ _ _ => nofun
  | reset name =>
    exact hnot (not_refused_expect fun a _ =>
      not_refused_runArena Arena.neverRefused_reset fun _ _ _ => nofun)
  | release name =>
    exact hnot (not_refused_expect fun a _ =>
      not_refused_run a.neverRefused_release fun _ _ => nofun)
  | drop name =>
    exact hnot (not_refused_expect fun a _ =>
      not_refused_run a.neverRefused_drop fun _ _ => nofun)
  | _ => exact hnot (not_refused_expect fun _ _ => nofun)

theorem not_refused_enterEncoded (name : String) (encoded : Encoded Loan) :
    ¬(s.enterEncoded name encoded).1.Refused := by
  unfold enterEncoded
  dsimp only
  split <;> exact nofun

/-- What is decoded can be spanned. -/
theorem Spanned.length_sourceBytes (h : s.Spanned) {source : Source}
    (hsource : ∀ row, source = .bytes row → row.length < addressLimit) {input : List UInt8}
    (hinput : s.sourceBytes? source = some input) : input.length < addressLimit := by
  cases source with
  | loan name =>
    obtain ⟨loan, hloan, rfl⟩ := Option.map_eq_some_iff.1 hinput
    rw [Loan.length_view]
    exact (Nat.min_le_left ..).trans_lt (h.loan name loan hloan)
  | slice name =>
    obtain ⟨⟨arenaName, a, slice⟩, hfound, rfl⟩ := Option.map_eq_some_iff.1 hinput
    exact (h.arena arenaName a (arena_of_slice? hfound)).length_read slice 0 slice.length
  | bytes row =>
    obtain rfl := Option.some.inj hinput
    exact hsource _ rfl

/-- **The copies of a reading** are refused at the first one that is not empty. -/
theorem Spanned.ends_copyOut_refused (h : s.Spanned) (htidy : s.ArenasTidy) {name : String}
    {a : Arena} (ha : s.arenas.get? name = some a) {source : Source} {order : ByteOrder}
    {calls : List ReadCall} {fallible : Bool}
    (hcommand : (Command.message (.decode source (some name) order calls fallible)).Spanned)
    {input : List UInt8} (hinput : s.sourceBytes? source = some input) :
    Ends ((decode order input calls fallible).1.copyOut (a, s.store)) (fun _ _ => True)
      fun abort t => abort = .capacityOverflow →
        a.IsRefused s.store (s.firstCopy source order calls).length t := by
  have hlength := h.length_sourceBytes hcommand.1 hinput
  have hrows : ∀ row ∈ ((Decoder.start order input).calls calls).toArena,
      row.length < addressLimit :=
    Cursor.Sound.length_lt_of_mem_toArena (c := Cursor.start order input)
      ⟨Nat.zero_le _, hlength.trans (by decide)⟩ (by decide) hlength hcommand.2
  rw [fst_decode]
  refine (Arena.ends_copies_refused ((h.arena name a ha).grants (htidy name a ha)) hrows).mono
    (fun _ _ _ => trivial) fun _ _ ht heq => ?_
  obtain ⟨row, hrow, hleft⟩ := ht heq
  have hfirst : s.firstCopy source order calls = row := by
    rw [firstCopy, hinput]
    dsimp only
    rw [fst_decode, hrow]
    rfl
  rw [hfirst]
  exact hleft

theorem Sound.withstands_messageStep (h : s.Sound) (hspanned : s.Spanned) (htidy : s.ArenasTidy)
    (command : MessageCommand) (hcommand : (Command.message command).Spanned) :
    s.Withstands (s.demand (.message command)) (s.messageStep command) := by
  cases command with
  | encode pool order script name =>
    have hgo (home : Option Nat) (hhome : ∀ number, home = some number →
        number < s.store.pools.length) :
        s.Withstands { size := (script.measure order).length.toOption.getD 0, pool := home }
          (s.run (script.encode order home) fun encoded s => s.enterEncoded name encoded) := by
      refine withstands_run hhome ((script.ends_encode_refused order home s.store).mono
        (fun _ _ _ => trivial) fun _ _ ht heq => ?_) fun _ _ => not_refused_enterEncoded _ _
      obtain ⟨length, hlength, hleft⟩ := ht heq
      rw [hlength]
      exact hleft
    cases pool with
    | none => exact hgo none nofun
    | some pool =>
      refine withstands_expect fun number hnumber => ?_
      have hhome : (some pool).bind s.pools.get? = some number := hnumber
      rw [demand, hhome]
      exact hgo (some number) (hnumber ▸ h.pool_lt pool)
  | encodeInArena name order script entered =>
    refine withstands_expect fun a ha =>
      withstands_runArena ha (h.arenas_lt a (Table.mem_values_of_get? ha))
        ((script.ends_encodeInArena_refused order a s.store).mono (fun _ _ _ => trivial)
          fun _ _ ht heq => ?_) fun encoded _ _ => ?_
    · obtain ⟨length, hlength, hleft⟩ := ht heq
      rw [hlength]
      exact hleft
    · dsimp only
      split <;> exact nofun
  | decode source arenaName order calls fallible =>
    cases arenaName with
    | none => exact withstands_of_not_refused (not_refused_expect fun _ _ => nofun)
    | some name =>
      exact withstands_expect fun input hinput => withstands_expect fun a ha =>
        withstands_runArena ha (h.arenas_lt a (Table.mem_values_of_get? ha))
          (hspanned.ends_copyOut_refused htidy ha hcommand hinput) fun _ _ _ => nofun

/-- **A request to a buffer.** The buffer is put back also when it is refused. -/
theorem Sound.withstands_request (h : s.Sound) (name : String) (request : BufferRequest) :
    s.Withstands (s.demand (.buffer (.request name request)))
      (s.bufferStep (.request name request)) := by
  refine withstands_expect fun b hb => ?_
  have hlt := h.buffers_lt b (Table.mem_values_of_get? hb)
  have hleaves := Buffer.leaves_request b s.store request
  obtain ⟨others, hstore⟩ := h.store_of_buffer (Table.mem_values_of_get? hb)
  have hends := Buffer.ends_request hstore hlt request
  generalize request.run (b, s.store) = result at hleaves hends ⊢
  cases result with
  | ok outcome u =>
    refine withstands_of_not_refused ?_
    rintro ⟨⟩
    exact hends.2 _ rfl
  | error abort u =>
    rintro ⟨⟩
    obtain ⟨hlong, rfl⟩ := hleaves rfl
    rw [demand, hb]
    refine refuses_of_bypassing hlong ?_ rfl (fun name => Option.map_id'.symm) nofun
      (fun other => ?_) rfl
    · rintro _ ⟨⟩
      exact hlt
    · -- what is put back is what was there
      show (s.buffers.put name b).get? other = s.buffers.get? other
      rw [Table.get?_put]
      split
      · next hother => rw [hother, hb]
      · rfl

/-- A buffer that cannot be made is refused for its chunks of no bytes. -/
theorem not_refused_make (pool : String) (chunkSize : Nat) (checked : Bool) (name : String) :
    ¬(s.bufferStep (.make pool chunkSize checked name)).1.Refused := by
  refine not_refused_expect fun home _ => ?_
  have hnew (abort : Abort) (h : Buffer.new home chunkSize = .error abort) :
      abort ≠ .capacityOverflow := by
    unfold Buffer.new at h
    split at h <;> cases h
    decide
  dsimp only
  split
  · split <;> rintro ⟨⟩
  · split
    · rintro ⟨⟩
    · next abort habort =>
      rintro ⟨⟩
      exact hnew _ habort rfl

theorem Sound.withstands_bufferStep (h : s.Sound) (command : BufferCommand) :
    s.Withstands (s.demand (.buffer command)) (s.bufferStep command) := by
  have hnot {step : Step} {demand : Demand} (h : ¬step.1.Refused) : s.Withstands demand step :=
    withstands_of_not_refused h
  cases command with
  | make pool chunkSize checked name => exact hnot (not_refused_make pool chunkSize checked name)
  | info name =>
    refine hnot (not_refused_expect fun _ _ => ?_)
    rintro ⟨⟩
  | release name =>
    exact hnot (not_refused_expect fun b _ =>
      not_refused_run b.neverRefused_release fun _ _ => nofun)
  | drop name =>
    exact hnot (not_refused_expect fun b _ =>
      not_refused_run b.neverRefused_drop fun _ _ => nofun)
  | request name request => exact h.withstands_request name request

theorem not_refused_watchStep (command : WatchCommand) : ¬(s.watchStep command).1.Refused := by
  cases command with
  | install tracker => exact nofun
  | trace on => exact nofun
  | describe name => exact not_refused_expect fun _ _ => nofun

/-- **A command that is refused** leaves two figures ahead and nothing else, whatever it is. -/
theorem Sound.withstands_step (h : s.Sound) (hspanned : s.Spanned) (htidy : s.ArenasTidy)
    (command : Command) (hcommand : command.Spanned) :
    s.Withstands (s.demand command) (s.step command) := by
  cases command with
  | pool command => exact h.withstands_poolStep command
  | loan command => exact withstands_of_not_refused (not_refused_loanStep command)
  | ticket command => exact withstands_of_not_refused (not_refused_ticketStep command)
  | arena command => exact h.withstands_arenaStep command
  | message command => exact h.withstands_messageStep hspanned htidy command hcommand
  | buffer command => exact h.withstands_bufferStep command
  | watch command => exact withstands_of_not_refused (not_refused_watchStep command)

/-! ## What comes after -/

/-- **A refused request leaves everything usable.** In every session that can be reached, a
command that is refused because addresses cannot span what it asks for leaves the pool that was
asked with one more request left to the system and the arena that asked with the length charged,
and leaves everything else as it was. From then on every row of commands does the same as if the
command had not been there, those two figures apart. The one exception is a request to the arena
that was charged, if it is crowded out: if there is no room for it in the length of the arena with
what was charged, and there would be without. -/
theorem refusal_leaves_everything_usable (before : List Command) (command : Command)
    (hcommand : command.Spanned)
    (hrefused : ((({} : Session).play before).2.step command).1.Refused) :
    let s := (({} : Session).play before).2
    let next := (s.step command).2
    s.Refuses (s.demand command) next ∧
      ∀ after : List Command,
        (∀ name k other, (s.demand command).arena = some name → after[k]? = some other →
          ¬(next.play (after.take k)).2.CrowdedOut (s.play (after.take k)).2 name other) →
          List.Forall₂ (Seen.Ahead (s.demand command).surplus)
              (next.play after).1 (s.play after).1 ∧
            Ahead (s.demand command).surplus next.store s.store
              (next.play after).2 (s.play after).2 := by
  intro s next
  have hleft : s.Refuses (s.demand command) next :=
    (sound_play before).withstands_step (spanned_play before) (arenasTidy_play before) command
      hcommand hrefused
  refine ⟨hleft, fun after hroom => hleft.ahead.play after fun name hlength k other hother =>
    hroom name k other ?_ hother⟩
  -- nothing but the arena that asked is longer by anything
  by_contra hname
  exact hlength (if_neg hname)

/-- Nearly all that a word can count is asked for at once, and then a little. When the arena has
been reset it is asked for nearly as much again, and then it is full in both sessions. -/
theorem refusal_leaves_everything_usable_huge :
    let before : List Command := [.pool (.make "pool"), .arena (.make "pool" 64 false "arena")]
    let huge : Command := .arena (.get "arena" (wordLimit - 100) true none)
    let after : List Command := [.arena (.get "arena" 20 false none), .arena (.reset "arena"),
      .arena (.get "arena" (wordLimit - 10) false none), .arena (.get "arena" 20 false none)]
    let s := (({} : Session).play before).2
    let next := (s.step huge).2
    huge.Spanned ∧ (s.step huge).1.Refused ∧ s.Refuses (s.demand huge) next ∧
      (∀ name k other, (s.demand huge).arena = some name → after[k]? = some other →
        ¬(next.play (after.take k)).2.CrowdedOut (s.play (after.take k)).2 name other) ∧
      List.Forall₂ (Seen.Ahead (s.demand huge).surplus) (next.play after).1 (s.play after).1 ∧
      Ahead (s.demand huge).surplus next.store s.store (next.play after).2 (s.play after).2 := by
  intro before huge after s next
  have hrefused : (s.step huge).1.Refused := by
    dsimp only [s, huge, before]
    exact .aborted
  have harena : (s.demand huge).arena = some "arena" := by decide +kernel
  have hroom : ∀ name k other, (s.demand huge).arena = some name → after[k]? = some other →
      ¬(next.play (after.take k)).2.CrowdedOut (s.play (after.take k)).2 name other := by
    rintro name k other hname hother ⟨haborted, a, b, ha, hb, hcrowded⟩
    obtain rfl : "arena" = name := Option.some.inj (harena.symm.trans hname)
    -- the two arenas are of one length again when they have been reset
    have hsame (hk : k ∈ [2, 3]) : False := by
      have hreset : ∀ k ∈ [2, 3],
          ((next.play (after.take k)).2.arenas.get? "arena").map Arena.length =
            ((s.play (after.take k)).2.arenas.get? "arena").map Arena.length := by decide +kernel
      have hlength := hreset k hk
      rw [ha, hb] at hlength
      exact Arena.not_crowded_of_length_eq (Option.some.inj hlength) hcrowded
    rcases k with - | - | - | - | k
    · cases Option.some.inj hother
      exact absurd (congrArg Answer.isAborted haborted) (by decide +kernel)
    · cases Option.some.inj hother
      exact absurd (congrArg Answer.isAborted haborted) (by decide +kernel)
    · exact hsame (by decide)
    · exact hsame (by decide)
    · exact nomatch hother
  obtain ⟨hleft, hafter⟩ := refusal_leaves_everything_usable before huge trivial hrefused
  dsimp only [s, next] at hrefused hroom ⊢
  exact ⟨trivial, hrefused, hleft, hroom, hafter after hroom⟩

/-- **Not every row of commands does the same.** The length of a request that was refused can
fill up the length of the arena, and then a request is refused that would be granted. -/
theorem refusal_can_fill_arena :
    ¬∀ (before after : List Command) (command : Command), command.Spanned →
      ((({} : Session).play before).2.step command).1.Refused →
      List.Forall₂ (Seen.Ahead ((({} : Session).play before).2.demand command).surplus)
        (((({} : Session).play before).2.step command).2.play after).1
        ((({} : Session).play before).2.play after).1 := by
  intro h
  have hsame := h [.pool (.make "pool"), .arena (.make "pool" 64 false "arena")]
    [.arena (.get "arena" 20 false none)]
    (.arena (.get "arena" (wordLimit - 10) false none)) trivial .aborted
  obtain ⟨hanswer, -⟩ := List.forall₂_cons.1 hsame
  exact nomatch hanswer.answer

end Session

end Wirepool
