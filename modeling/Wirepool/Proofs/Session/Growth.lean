import Mathlib.Algebra.Order.Floor.Div
import Wirepool.Proofs.Buffer.Growth
import Wirepool.Proofs.Session.Stability
import Wirepool.Proofs.Session.Strips

/-!
# Buffers grow by whole chunks

A buffer has as many chunks as its length needs and not one more, whatever is asked of it:
writes far behind the end, writes of nothing, writes that are refused, and those for which
there is no memory. Each chunk has come from the pool for this buffer, in the order in which
they stand, and goes back there when the buffer is released.

What a buffer has received is counted by the commands, since the pool serves others too. The
count starts when the buffer is made and takes what the pool counts during each request to
the buffer. A pool counts a request also if it refuses it, and then nothing has been
received.
-/

namespace Wirepool

/-- The name that a command gives to a new buffer, if it makes one. -/
def Command.makesBuffer? : Command → Option String
  | .buffer (.make _ _ _ own) => some own
  | _ => none

/-- Whether a buffer is told of, as when it was made. -/
def Answer.isBuffer : Answer → Bool
  | buffer _ => true
  | _ => false

/-- Whether a request to a buffer was stopped on its way. -/
def Answer.isStopped : Answer → Bool
  | request (.aborted _) _ => true
  | _ => false

theorem Answer.isStopped_request {outcome : BufferOutcome} (info : BufferInfo)
    (h : ∀ abort, outcome ≠ .aborted abort) : (request outcome info).isStopped = false := by
  cases outcome with
  | aborted abort => exact absurd rfl (h abort)
  | _ => rfl

namespace Buffer

/-- **The pages that a buffer holds.** -/
def leases (b : Buffer) : List Lease := b.chunks.filterMap Loan.lease?

/-- **A buffer after a command** has grown by what it has received. -/
structure Continues (b : Buffer) (received : Nat) (b' : Buffer) : Prop extends b.Grows b' where
  length_chunks : b'.chunks.length = b.chunks.length + received
  tidy : b.Tidy → b'.Tidy
  atHome : b.AtHome → b'.AtHome

theorem Continues.refl (b : Buffer) : b.Continues 0 b := ⟨.refl b, rfl, id, id⟩

/-- **A buffer that has received so many chunks** has them all, and they are of its pool. -/
structure Supplied (b : Buffer) (received : Nat) : Prop extends b.Tidy where
  atHome : b.AtHome
  received_eq : received = b.chunks.length

/-- A new buffer has received nothing. -/
theorem supplied_new {home chunkSize : Nat} (hpos : 0 < chunkSize) :
    Supplied { home, chunkSize, chunkSize_pos := hpos } 0 := ⟨tidy_new hpos, nofun, rfl⟩

theorem Continues.supplied {b b' : Buffer} {received more : Nat} (h : b.Continues more b')
    (hb : b.Supplied received) : b'.Supplied (received + more) := by
  refine ⟨h.tidy hb.toTidy, h.atHome hb.atHome, ?_⟩
  rw [h.length_chunks, hb.received_eq]

/-- **The number of chunks** is the length over their size, rounded up. -/
theorem Tidy.length_chunks_eq {b : Buffer} (h : b.Tidy) :
    b.chunks.length = b.length ⌈/⌉ b.chunkSize := by
  rw [h.length_chunks, chunksFor, Nat.ceilDiv_eq_add_pred_div]

end Buffer

namespace Session

variable {s : Session} {name : String} {command : Command} {b b' : Buffer}

/-! ## What a buffer receives -/

/-- **Whether a command begins a buffer** with a name. A buffer that had the name is lost. -/
def beginsBuffer (s : Session) (name : String) (command : Command) : Bool :=
  command.makesBuffer? = some name && (s.step command).1.isBuffer

/-- **The number of chunks that a buffer receives** during a command. -/
def receives (s : Session) (name : String) (command : Command) : Nat :=
  match command, s.buffers.get? name with
  | .buffer (.request own _), some b =>
    if own = name then
      ((s.step command).2.store.pool b.home).served - (s.store.pool b.home).served -
        if (s.step command).1.isStopped then 1 else 0
    else 0
  | _, _ => 0

/-- The number that a buffer has received after a command, with what it had before it. -/
def receivedAfter (s : Session) (name : String) (received : Nat) (command : Command) : Nat :=
  if s.beginsBuffer name command then 0 else received + s.receives name command

/-- The number that a buffer has received after commands, with what it had before them. -/
def receivedSince (s : Session) (name : String) (received : Nat) : List Command → Nat
  | [] => received
  | command :: commands =>
    (s.step command).2.receivedSince name (s.receivedAfter name received command) commands

/-- **The number of chunks that a buffer has received** since it was made. -/
def received (name : String) (commands : List Command) : Nat :=
  ({} : Session).receivedSince name 0 commands

/-- What it has received after commands, the last of which is given apart. -/
theorem received_concat (name : String) (commands : List Command) (command : Command) :
    received name (commands ++ [command]) =
      (({} : Session).play commands).2.receivedAfter name (received name commands) command := by
  have happend (s : Session) (count : Nat) :
      s.receivedSince name count (commands ++ [command]) =
        (s.play commands).2.receivedAfter name (s.receivedSince name count commands) command := by
    induction commands generalizing s count with
    | nil => rfl
    | cons first commands ih => exact ih _ _
  exact happend {} 0

/-- During a request to a buffer. -/
theorem receives_request (hb : s.buffers.get? name = some b) (request : BufferRequest) :
    s.receives name (.buffer (.request name request)) =
      ((s.step (.buffer (.request name request))).2.store.pool b.home).served -
        (s.store.pool b.home).served -
          if (s.step (.buffer (.request name request))).1.isStopped then 1 else 0 := by
  unfold receives
  rw [hb]
  exact if_pos rfl

/-- Without a request nothing is received. -/
theorem receives_of_ne (h : ∀ request, command ≠ .buffer (.request name request)) :
    s.receives name command = 0 := by
  unfold receives
  split
  · refine if_neg ?_
    rintro rfl
    exact h _ rfl
  · rfl

/-! ## Requests -/

/-- **A request to a buffer** makes it take chunks, or is stopped at the first one. -/
theorem Sound.step_request (h : s.Sound) (hb : s.buffers.get? name = some b)
    (request : BufferRequest) :
    ∃ outcome t, s.step (.buffer (.request name request)) =
        (.request outcome t.1.info,
          { s with store := t.2, buffers := s.buffers.put name t.1 }) ∧
      (b.Tidy → t.1.Tidy) ∧
      ((∀ abort, outcome ≠ .aborted abort) ∧ (∃ added, b.Receives s.store added t) ∨
        (∃ abort, outcome = .aborted abort) ∧ t = b.left s.store) := by
  have hmem := Table.mem_values_of_get? hb
  have hhome := h.buffers_lt b hmem
  obtain ⟨others, hstore⟩ := h.store_of_buffer hmem
  have hends := Buffer.receives_or_left hstore hhome request
  have htidy (hbtidy : b.Tidy) := hbtidy.ends_request hstore hhome request
  unfold step bufferStep expect
  dsimp only
  rw [hb]
  dsimp only
  cases hresult : request.run (b, s.store) with
  | ok outcome t =>
    rw [hresult] at hends htidy
    exact ⟨outcome, t, rfl, fun hbtidy => (htidy hbtidy).1, .inl hends⟩
  | error abort t =>
    rw [hresult] at hends htidy
    refine ⟨.aborted abort, t, rfl, fun hbtidy => ?_, .inr ⟨⟨abort, rfl⟩, hends⟩⟩
    rw [(htidy hbtidy).1]
    exact hbtidy

/-- **After a request** a buffer has grown by what it has received. -/
theorem Sound.continues_request (h : s.Sound) (hb : s.buffers.get? name = some b)
    (request : BufferRequest) :
    ∃ b', (s.step (.buffer (.request name request))).2.buffers.get? name = some b' ∧
      b.Continues (s.receives name (.buffer (.request name request))) b' := by
  have hhome := h.buffers_lt b (Table.mem_values_of_get? hb)
  obtain ⟨outcome, t, hstep, htidy, hends⟩ := h.step_request hb request
  rw [receives_request hb, hstep]
  refine ⟨t.1, Table.get?_put_self _ _ _, ?_⟩
  rcases hends with ⟨hnot, added, hadded⟩ | ⟨⟨abort, rfl⟩, rfl⟩
  · have hcount : (t.2.pool b.home).served - (s.store.pool b.home).served - 0 = added.length := by
      rw [hadded.delivers.served]
      omega
    rw [Answer.isStopped_request _ hnot, if_neg Bool.false_ne_true, hcount]
    exact ⟨hadded.grows, hadded.length_chunks, htidy, hadded.atHome⟩
  · have hcount : ((b.left s.store).2.pool b.home).served - (s.store.pool b.home).served - 1 =
        0 := by
      rw [Buffer.served_left hhome]
      omega
    show b.Continues (_ - _ - 1) b
    rw [hcount]
    exact .refl b

/-- A request that is stopped leaves the buffer as it is. -/
theorem Sound.get?_of_isStopped (h : s.Sound) (hb : s.buffers.get? name = some b)
    {request : BufferRequest}
    (hstopped : (s.step (.buffer (.request name request))).1.isStopped = true) :
    (s.step (.buffer (.request name request))).2.buffers.get? name = some b := by
  obtain ⟨outcome, t, hstep, -, hends⟩ := h.step_request hb request
  rw [hstep] at hstopped ⊢
  rcases hends with ⟨hnot, -⟩ | ⟨-, rfl⟩
  · rw [Answer.isStopped_request _ hnot] at hstopped
    cases hstopped
  · exact Table.get?_put_self _ _ _

/-! ## All commands -/

/-- A command that does not replace a buffer begins none in its place. -/
theorem beginsBuffer_of_not_replaces (s : Session) (h : ¬command.Replaces name) :
    s.beginsBuffer name command = false := by
  have hmakes : command.makesBuffer? ≠ some name := by
    intro hmakes
    unfold Command.makesBuffer? at hmakes
    split at hmakes <;> cases hmakes
    exact h rfl
  rw [beginsBuffer, decide_eq_false hmakes, Bool.false_and]

/-- **Making a buffer** begins one with nothing in it, or leaves everything as it is. -/
theorem step_make (s : Session) (pool : String) (chunkSize : Nat) (checked : Bool)
    (name : String) :
    s.beginsBuffer name (.buffer (.make pool chunkSize checked name)) = false ∧
        (s.step (.buffer (.make pool chunkSize checked name))).2 = s ∨
      s.beginsBuffer name (.buffer (.make pool chunkSize checked name)) = true ∧
        ∃ home, ∃ hpos : 0 < chunkSize,
          (s.step (.buffer (.make pool chunkSize checked name))).2.buffers =
            s.buffers.put name { home, chunkSize, chunkSize_pos := hpos } := by
  unfold beginsBuffer
  cases hpool : s.pools.get? pool with
  | none =>
    have hstep : s.step (.buffer (.make pool chunkSize checked name)) = s.refuse := by
      show s.expect (s.pools.get? pool) _ = _
      rw [hpool]
      rfl
    rw [hstep]
    exact .inl ⟨Bool.and_false _, rfl⟩
  | some home =>
    rcases Nat.eq_zero_or_pos chunkSize with rfl | hpos
    · have hanswer : (s.step (.buffer (.make pool 0 checked name))).1.isBuffer = false := by
        show (s.expect (s.pools.get? pool) _).1.isBuffer = false
        rw [hpool]
        cases checked <;> rfl
      rw [hanswer]
      exact .inl ⟨Bool.and_false _, (s.bufferStep_make_zero pool checked name).1⟩
    · have hstep : s.step (.buffer (.make pool chunkSize checked name)) =
          (.buffer ⟨chunkSize, 0, 0, 0⟩,
            s.enterBuffer name { home, chunkSize, chunkSize_pos := hpos }) :=
        bufferStep_make hpool hpos checked name
      obtain ⟨u, hentered⟩ := enterBuffer_eq s name { home, chunkSize, chunkSize_pos := hpos }
      rw [hstep, hentered]
      exact .inr ⟨(Bool.and_true _).trans (decide_eq_true rfl), home, hpos, rfl⟩

/-- A buffer that is taken out is gone. -/
theorem get?_of_takenOut (s : Session) (name : String) (action : Buffer → StoreM Unit) :
    (s.expect (s.buffers.get? name) fun buffer =>
      { s with buffers := s.buffers.erase name }.run (action buffer) fun () s =>
        (.done, s)).2.buffers.get? name = none := by
  have hgone : (s.buffers.erase name).get? name = none := by
    rw [Table.get?_erase, if_pos rfl]
  cases hb : s.buffers.get? name with
  | none => exact hb
  | some b =>
    unfold expect run
    dsimp only
    split <;> exact hgone

/-- **What is there after a command that could replace a buffer** is a new one, or what was
there before. -/
theorem buffer_of_replaces (h : command.Replaces name)
    (hb' : (s.step command).2.buffers.get? name = some b') :
    s.beginsBuffer name command = true ∧ b'.Supplied 0 ∨
      s.beginsBuffer name command = false ∧ s.buffers.get? name = some b' := by
  unfold Command.Replaces at h
  split at h
  · next pool chunkSize checked own =>
    subst h
    rcases s.step_make pool chunkSize checked name with ⟨hnot, hsame⟩ | ⟨hbegins, home, hpos, hput⟩
    · exact .inr ⟨hnot, hsame ▸ hb'⟩
    · rw [hput, Table.get?_put_self] at hb'
      cases hb'
      exact .inl ⟨hbegins, Buffer.supplied_new hpos⟩
  · next own =>
    subst h
    cases (s.get?_of_takenOut name Buffer.release).symm.trans hb'
  · next own =>
    subst h
    cases (s.get?_of_takenOut name Buffer.drop).symm.trans hb'
  · exact h.elim

/-- A request to a buffer that is not there is refused. -/
theorem step_request_of_none (hb : s.buffers.get? name = none) (request : BufferRequest) :
    s.step (.buffer (.request name request)) = s.refuse := by
  show s.expect (s.buffers.get? name) _ = _
  rw [hb]
  rfl

/-- **A buffer after a command** is begun by it, or has grown by what it has received. -/
theorem Sound.buffer_step (h : s.Sound)
    (hb' : (s.step command).2.buffers.get? name = some b') :
    s.beginsBuffer name command = true ∧ b'.Supplied 0 ∨
      s.beginsBuffer name command = false ∧
        ∃ b, s.buffers.get? name = some b ∧ b.Continues (s.receives name command) b' := by
  -- whatever is no request leaves the buffer or begins it
  have hleft (hnot : ∀ request, command ≠ .buffer (.request name request)) :
      b'.Continues (s.receives name command) b' := by
    rw [receives_of_ne hnot]
    exact .refl b'
  by_cases hreplaces : command.Replaces name
  · refine (buffer_of_replaces hreplaces hb').imp id fun hsame => ⟨hsame.1, b', hsame.2, hleft ?_⟩
    rintro request rfl
    exact hreplaces
  refine .inr ⟨s.beginsBuffer_of_not_replaces hreplaces, ?_⟩
  by_cases hnames : command.NamesBuffer name
  · obtain ⟨request, rfl⟩ := Command.exists_request_of_namesBuffer hnames hreplaces
    cases hb : s.buffers.get? name with
    | none =>
      rw [step_request_of_none hb] at hb'
      cases hb.symm.trans hb'
    | some b =>
      obtain ⟨found, hfound, hcontinues⟩ := h.continues_request hb request
      cases hfound.symm.trans hb'
      exact ⟨b, rfl, hcontinues⟩
  · refine ⟨b', ((s.spares_step command).buffer name hnames).symm.trans hb', hleft ?_⟩
    rintro request rfl
    exact hnames rfl

/-- **Whether commands keep a buffer**: none of them begins another one in its place. -/
def KeepsBuffer (s : Session) (name : String) : List Command → Prop
  | [] => True
  | command :: commands =>
    s.beginsBuffer name command = false ∧ (s.step command).2.KeepsBuffer name commands

/-- **A buffer that commands keep** has grown. -/
theorem Sound.grows_play (h : s.Sound) {commands : List Command}
    (hkeeps : s.KeepsBuffer name commands)
    (hb' : (s.play commands).2.buffers.get? name = some b') :
    ∃ b, s.buffers.get? name = some b ∧ b.Grows b' := by
  induction commands generalizing s with
  | nil => exact ⟨b', hb', .refl b'⟩
  | cons command commands ih =>
    obtain ⟨hkept, hothers⟩ := hkeeps
    obtain ⟨middle, hmiddle, hlater⟩ := ih (h.obeys_step command).sound hothers hb'
    rcases h.buffer_step hmiddle with ⟨hbegins, -⟩ | ⟨-, b, hb, hcontinues⟩
    · rw [hkept] at hbegins
      cases hbegins
    · exact ⟨b, hb, hcontinues.toGrows.trans hlater⟩

/-- **In every session that can be reached** a buffer has the chunks that it has received. -/
theorem supplied_play {commands : List Command}
    (hb : (({} : Session).play commands).2.buffers.get? name = some b) :
    b.Supplied (received name commands) := by
  induction commands using List.reverseRecOn generalizing b with
  | nil => cases hb
  | append_singleton commands command ih =>
    rw [play_concat] at hb
    rw [received_concat, receivedAfter]
    rcases (sound_play commands).buffer_step hb with ⟨hbegins, hnew⟩ | ⟨hkept, before, hbefore, hb⟩
    · rw [if_pos hbegins]
      exact hnew
    · rw [hkept, if_neg Bool.false_ne_true]
      exact hb.supplied (ih hbefore)

/-! ## Giving everything back -/

/-- No more pages have come back than were borrowed, after one command more. -/
theorem released_le_borrowed_step (commands : List Command) (command : Command) (number : Nat) :
    (((({} : Session).play commands).2.step command).2.store.pool number).released ≤
      (((({} : Session).play commands).2.step command).2.store.pool number).borrowed := by
  rw [← play_concat]
  exact released_le_borrowed (commands ++ [command]) number

/-- **A buffer gives everything back**: its pool collects each page once, as many fewer are
outstanding, and nothing is lost or said to be. -/
structure ReturnsChunks (s : Session) (b : Buffer) (t : Store) : Prop where
  collects : s.store.Collects b.home b.leases t
  outstanding : (s.store.pool b.home).outstanding =
    (t.pool b.home).outstanding + b.leases.length
  leaked : ∀ number, (t.pool number).leaked = (s.store.pool number).leaked
  deliveries : t.deliveries = s.store.deliveries

/-- **Releasing a buffer** gives its chunks back, and it is gone. -/
theorem Sound.collects_of_releaseBuffer (h : s.Sound) (hb : s.buffers.get? name = some b)
    (hhome : b.AtHome) :
    ∃ t, s.step (.buffer (.release name)) =
        (.done, { s with store := t, buffers := s.buffers.erase name }) ∧
      s.store.Collects b.home b.leases t := by
  obtain ⟨others, hstore⟩ := h.store_of_buffer (Table.mem_values_of_get? hb)
  obtain ⟨⟨⟩, t, hrelease, hcollects⟩ := (hstore.collects_forM hhome).exists_ok
  refine ⟨t, ?_, hcollects⟩
  show s.expect (s.buffers.get? name) _ = _
  rw [hb]
  exact run_of_ok (s := { s with buffers := s.buffers.erase name }) hrelease _

/-! ## The sessions that can be reached -/

/-- **Buffers grow by whole chunks**, in every session that can be reached by any commands. A
buffer has as many chunks as its length needs, all of the size of a chunk, and these are all
that it has received since it was made. It makes no difference that the machine puts each
chunk into the buffer as soon as it has it; and a request that is stopped, because a chunk is
not to be had, leaves the buffer as it is. As long as the buffer is not replaced, its length
never falls, and its chunks stay in their places. Once it is released, all of its pages are
back in the pool and none is lost. -/
theorem buffer_grows_by_chunks (commands : List Command) (name : String) (b : Buffer)
    (hb : (({} : Session).play commands).2.buffers.get? name = some b) :
    let s := (({} : Session).play commands).2
    b.chunks.length = b.length ⌈/⌉ b.chunkSize ∧
      (∀ chunk ∈ b.chunks, chunk.view.length = b.chunkSize) ∧
      received name commands = b.chunks.length ∧
      (∀ length, Buffer.growByOne length (b, s.store) = Buffer.grow length (b, s.store)) ∧
      (∀ request, (s.step (.buffer (.request name request))).1.isStopped = true →
        (s.step (.buffer (.request name request))).2.buffers.get? name = some b) ∧
      (∀ more b', s.KeepsBuffer name more → (s.play more).2.buffers.get? name = some b' →
        b.Grows b') ∧
      ∃ t, s.ReturnsChunks b t ∧ s.step (.buffer (.release name)) =
        (.done, { s with store := t, buffers := s.buffers.erase name }) := by
  intro s
  have hsound : s.Sound := sound_play commands
  have hsupplied := supplied_play hb
  have hmem := Table.mem_values_of_get? hb
  obtain ⟨others, hstore⟩ := hsound.store_of_buffer hmem
  obtain ⟨t, hstep, hcollects⟩ := hsound.collects_of_releaseBuffer hb hsupplied.atHome
  have hle := released_le_borrowed_step commands (.buffer (.release name)) b.home
  rw [show (({} : Session).play commands).2.step _ = _ from hstep] at hle
  have hleaked (number : Nat) : (t.pool number).leaked = (s.store.pool number).leaked := by
    by_cases hnumber : number = b.home
    · rw [hnumber, hcollects.pool.leaked]
    · rw [hcollects.others number hnumber]
  refine ⟨hsupplied.length_chunks_eq, hsupplied.even, hsupplied.received_eq,
    Buffer.growByOne_eq hstore (hsound.buffers_lt b hmem),
    fun request => hsound.get?_of_isStopped hb, fun more b' hkeeps hb' => ?_, t,
    ⟨hcollects, outstanding_of_collects hcollects.pool hle, hleaked, hcollects.deliveries⟩, hstep⟩
  obtain ⟨found, hfound, hgrows⟩ := hsound.grows_play hkeeps hb'
  cases hfound.symm.trans hb
  exact hgrows

/-- A write far behind the end, one that is refused, and a cursor that is further out. -/
theorem buffer_grows_by_chunks_sparse :
    let commands : List Command := [.pool (.make "pool"),
      .buffer (.make "pool" 16 false "buffer"),
      .buffer (.request "buffer" (.writeAt [1, 2, 3] 30)),
      .buffer (.request "buffer" (.writeAt [4] 18446744073709551615)),
      .buffer (.request "buffer" (.seek .ending 100 false))]
    let s := (({} : Session).play commands).2
    received "buffer" commands = 3 ∧ (s.store.pool 0).outstanding = 3 ∧
      ∃ b t, s.buffers.get? "buffer" = some b ∧ b.length = 33 ∧ b.chunks.length = 3 ∧
        s.ReturnsChunks b t ∧ (t.pool 0).outstanding = 0 := by
  intro commands s
  obtain ⟨b, hb, hhome, hlength, hsize, hleases⟩ : ∃ b, s.buffers.get? "buffer" = some b ∧
      b.home = 0 ∧ b.length = 33 ∧ b.chunkSize = 16 ∧ b.leases.length = 3 :=
    ⟨_, rfl, rfl, rfl, rfl, rfl⟩
  have hout : (s.store.pool 0).outstanding = 3 := by rfl
  obtain ⟨hcount, -, hreceived, -, -, -, t, hreturns, -⟩ :=
    buffer_grows_by_chunks commands "buffer" b hb
  rw [hlength, hsize] at hcount
  change b.chunks.length = 3 at hcount
  have hfewer := hreturns.outstanding
  rw [hhome, hleases] at hfewer
  change (s.store.pool 0).outstanding = _ at hfewer
  exact ⟨hreceived.trans hcount, hout, b, t, hb, hlength, hcount, hreturns, by omega⟩

end Session

end Wirepool
