import Wirepool.Proofs.Buffer.Strip
import Wirepool.Proofs.Store.Encoding
import Wirepool.Proofs.Store.Refusal
import Wirepool.Proofs.Store.Returns

/-!
# What a buffer takes from its pool

A buffer grows by whole chunks and never shrinks. What it holds is therefore all that it has
ever been given, in the order in which it was given, and the pool has an account of the same
number. Both sides are followed here, through one request: the chunks that are there stay in
front, the ones that were handed out stand behind them, and the pool has handed out just
those.

The machine puts each chunk behind the others as soon as it has it. If it were stopped between
two chunks, a buffer would be left with more of them than its length needs. It never is: the
chunks are of one size, so the first one is refused or none is. `addChunks_eq_push` says that
the loop and the row of requests come to the same, in every way that they can end.
-/

namespace Wirepool

open HolderM

/-- The number of buffers that a pool was asked for and has not refused for good: its own
pages, and requests that it has left to the system. -/
def Pool.served (p : Pool) : Nat := p.borrowed + p.bypassed

namespace Store

variable {s t u : Store} {number : Nat} {row later : List Loan}

/-- **A pool of the store hands out a row of buffers**, and no other pool has a part in it. -/
structure Delivers (s : Store) (number : Nat) (row : List Loan) (t : Store) : Prop where
  /-- The pages among them are the pool's. -/
  ofPool : ∀ loan ∈ row, loan.OfPool number
  /-- They are counted as loans. -/
  borrowed : (t.pool number).borrowed =
    (s.pool number).borrowed + (row.filterMap Loan.lease?).length
  served : (t.pool number).served = (s.pool number).served + row.length
  released : (t.pool number).released = (s.pool number).released
  leaked : (t.pool number).leaked = (s.pool number).leaked
  others : ∀ other, other ≠ number → t.pool other = s.pool other

theorem Delivers.refl (s : Store) (number : Nat) : s.Delivers number [] s :=
  ⟨nofun, rfl, rfl, rfl, rfl, fun _ _ => rfl⟩

theorem Delivers.trans (h : s.Delivers number row t) (h' : t.Delivers number later u) :
    s.Delivers number (row ++ later) u := by
  refine ⟨List.forall_mem_append.2 ⟨h.ofPool, h'.ofPool⟩, ?_, ?_, h'.released.trans h.released,
    h'.leaked.trans h.leaked, fun other hother => (h'.others other hother).trans
      (h.others other hother)⟩
  · rw [h'.borrowed, h.borrowed, List.filterMap_append, List.length_append, Nat.add_assoc]
  · rw [h'.served, h.served, List.length_append, Nat.add_assoc]

variable {loans : Multiset Loan} {tickets : Multiset Ticket}

/-- **Borrowing** hands out one buffer. -/
theorem Sound.delivers_borrow (h : s.Sound loans tickets) (hnumber : number < s.pools.length)
    (len : Nat) :
    Ends (Store.borrow number len false s) (fun loan t => s.Delivers number [loan] t)
      fun _ _ => True := by
  have hmine : ∀ home ∈ some number, home < s.pools.length := by
    rintro _ ⟨⟩
    exact hnumber
  have hobtains : Ends (Store.borrow number len false s)
      (fun loan t => s.Obtains (some number) len loan t) fun _ _ => True := h.obtains hmine len
  refine hobtains.mono (fun loan t ht => ?_) fun _ _ ht => ht
  have hothers (other : Nat) (hother : other ≠ number) : t.pool other = s.pool other :=
    ht.others other fun heq => hother (Option.some.inj heq).symm
  cases hclass : SizeClass.ofLength? len with
  | some c =>
    obtain ⟨lease, rfl, hhome, -, hlends⟩ := ht.pooled number rfl c hclass
    refine ⟨?_, hlends.borrowed, ?_, hlends.released, hlends.leaked, hothers⟩
    · rintro loan hloan home hlease
      cases List.mem_singleton.1 hloan
      cases hlease
      exact hhome
    · rw [Pool.served, hlends.borrowed, hlends.bypassed, Nat.add_right_comm]
      rfl
  | none =>
    have hpool := ht.bypassed number rfl hclass
    have hsystem := ht.system (.inr hclass)
    cases loan with
    | pooled lease => cases hsystem
    | unpooled block =>
      refine ⟨?_, ?_, ?_, ?_, ?_, hothers⟩
      · rintro loan hloan home hlease
        cases List.mem_singleton.1 hloan
        cases hlease
      · rw [hpool]
        rfl
      · rw [hpool]
        rfl
      · rw [hpool]
      · rw [hpool]

/-- **A row of requests** for buffers of one size hands out as many, or not even the first. -/
theorem Sound.delivers_mapM (h : s.Sound loans tickets) (hnumber : number < s.pools.length)
    (size count : Nat) :
    Ends ((List.replicate count size).mapM (fun size => Store.borrow number size false) s)
      (fun row t => s.Delivers number row t) fun _ _ => True := by
  induction count generalizing s loans with
  | zero => exact .refl s number
  | succ count ih =>
    rw [List.replicate_succ, List.mapM_cons]
    refine Ends.bind (((h.borrow hnumber size false).and (h.delivers_borrow hnumber size)).mono
      (fun _ _ ht => ht) fun _ _ _ => trivial) fun chunk t ht => ?_
    obtain ⟨⟨hleads, -, -⟩, hfirst⟩ := ht
    refine Ends.bind (ih hleads.1 (Nat.lt_of_lt_of_le hnumber hleads.2.length_le))
      fun chunks u hu => ?_
    exact hfirst.trans hu

end Store

namespace Buffer

variable {b : Buffer} {s : Store} {loans : Multiset Loan} {tickets : Multiset Ticket}

/-! ## Chunk by chunk -/

/-- Borrows chunks, and puts each of them behind the others as soon as it is there. -/
def pushChunks : Nat → HolderM Buffer Unit
  | 0 => pure ()
  | count + 1 => do
    let b ← now
    let chunk ← onStore (Store.borrow b.home b.chunkSize false)
    update fun b => ((), { b with chunks := b.chunks ++ [chunk] })
    pushChunks count

/-- **Making room as the machine does it.** -/
def growByOne (length : Nat) : HolderM Buffer Unit := do
  let b ← now
  if b.length < length then
    pushChunks (b.chunksFor length - b.chunks.length)
    update fun b => ((), { b with length })

/-- A chunk is there or not, and this decides how the loop goes on. -/
theorem pushChunks_succ (b : Buffer) (s : Store) (count : Nat) :
    pushChunks (count + 1) (b, s) =
      match Store.borrow b.home b.chunkSize false s with
      | .ok chunk t => pushChunks count ({ b with chunks := b.chunks ++ [chunk] }, t)
      | .error abort t => .error abort (b, t) := by
  show (onStore (Store.borrow b.home b.chunkSize false) >>= fun chunk => do
    update fun b => ((), { b with chunks := b.chunks ++ [chunk] })
    pushChunks count : HolderM Buffer Unit) (b, s) = _
  simp only [bind, EStateM.bind, onStore]
  cases Store.borrow b.home b.chunkSize false s <;> rfl

/-- A row of chunks is there or not. -/
theorem addChunks_eq (b : Buffer) (s : Store) (count : Nat) :
    addChunks count (b, s) =
      match (List.replicate count b.chunkSize).mapM
        (fun size => Store.borrow b.home size false) s with
      | .ok chunks t => .ok () ({ b with chunks := b.chunks ++ chunks }, t)
      | .error abort t => .error abort (b, t) := by
  show (onStore ((List.replicate count b.chunkSize).mapM fun size =>
    Store.borrow b.home size false) >>= fun chunks =>
      update fun b => ((), { b with chunks := b.chunks ++ chunks })) (b, s) = _
  simp only [bind, EStateM.bind, onStore]
  cases (List.replicate count b.chunkSize).mapM
    (fun size => Store.borrow b.home size false) s <;> rfl

/-- **The loop comes to the row of requests**, also if it is stopped: what could be had once
can be had again. -/
theorem addChunks_eq_push (h : s.Sound (↑b.chunks + loans) tickets)
    (hhome : b.home < s.pools.length) (count : Nat) :
    pushChunks count (b, s) = addChunks count (b, s) := by
  induction count generalizing b s loans with
  | zero =>
    show EStateM.Result.ok () (b, s) = .ok () ({ b with chunks := b.chunks ++ [] }, s)
    rw [List.append_nil]
  | succ count ih =>
    have hfirst := h.borrow hhome b.chunkSize false
    rw [pushChunks_succ, addChunks_eq, List.replicate_succ, List.mapM_cons]
    simp only [bind, EStateM.bind, pure, EStateM.pure]
    cases hborrow : Store.borrow b.home b.chunkSize false s with
    | error abort t => rfl
    | ok chunk t =>
      rw [hborrow] at hfirst
      obtain ⟨hleads, -, hgranted⟩ := hfirst
      have hhome' : b.home < t.pools.length := Nat.lt_of_lt_of_le hhome hleads.2.length_le
      have hstore : t.Sound (↑(b.chunks ++ [chunk]) + loans) tickets := by
        rw [← Multiset.coe_add, Multiset.coe_singleton, add_right_comm, add_comm,
          Multiset.singleton_add]
        exact hleads.1
      dsimp only
      rw [ih (b := { b with chunks := b.chunks ++ [chunk] }) hstore hhome', addChunks_eq]
      -- a chunk could be had, so the loop is not stopped any more
      have hothers := ends_mapM_borrow hleads.1 hhome' b.chunkSize count
      cases hrow : (List.replicate count b.chunkSize).mapM
          (fun size => Store.borrow b.home size false) t with
      | error abort u =>
        rw [hrow] at hothers
        exact absurd hgranted (Nat.not_lt_of_le hothers.2.2)
      | ok chunks u =>
        dsimp only
        rw [List.append_assoc]
        rfl

/-- **Making room chunk by chunk** is making room. -/
theorem growByOne_eq (h : s.Sound (↑b.chunks + loans) tickets) (hhome : b.home < s.pools.length)
    (length : Nat) : growByOne length (b, s) = grow length (b, s) := by
  show (if b.length < length then
      pushChunks (b.chunksFor length - b.chunks.length) >>= fun _ =>
        update fun b => ((), { b with length })
    else pure () : HolderM Buffer Unit) (b, s) = (if b.length < length then
      addChunks (b.chunksFor length - b.chunks.length) >>= fun _ =>
        update fun b => ((), { b with length })
    else pure () : HolderM Buffer Unit) (b, s)
  split
  · show EStateM.bind _ _ _ = EStateM.bind _ _ _
    unfold EStateM.bind
    rw [addChunks_eq_push h hhome]
  · rfl

/-! ## What a request leaves -/

/-- **The pages of a buffer are of its pool.** -/
def AtHome (b : Buffer) : Prop := ∀ chunk ∈ b.chunks, chunk.OfPool b.home

/-- **A buffer later on** is of the same pool, and no shorter. The chunks that were there are
there still, in their places, and any others are behind them. -/
structure Grows (b b' : Buffer) : Prop where
  home_eq : b'.home = b.home
  chunkSize_eq : b'.chunkSize = b.chunkSize
  length_le : b.length ≤ b'.length
  terms : b.chunks.map Loan.terms <+: b'.chunks.map Loan.terms

theorem Grows.refl (b : Buffer) : b.Grows b := ⟨rfl, rfl, Nat.le_refl _, List.prefix_rfl⟩

theorem Grows.trans {b' b'' : Buffer} (h : b.Grows b') (h' : b'.Grows b'') : b.Grows b'' :=
  ⟨h'.home_eq.trans h.home_eq, h'.chunkSize_eq.trans h.chunkSize_eq,
    h.length_le.trans h'.length_le, h.terms.trans h'.terms⟩

/-- **A buffer takes chunks from its pool**: they stand behind those that are there, and the
pool has handed out nothing else. -/
structure Receives (b : Buffer) (s : Store) (added : List Loan) (t : Buffer × Store) : Prop where
  terms : t.1.chunks.map Loan.terms = (b.chunks ++ added).map Loan.terms
  home_eq : t.1.home = b.home
  chunkSize_eq : t.1.chunkSize = b.chunkSize
  length_le : b.length ≤ t.1.length
  delivers : s.Delivers b.home added t.2

/-- Whatever leaves all but the cursor takes nothing. -/
theorem Receives.of_eq {b' : Buffer} {offset : Nat} (heq : b' = { b with offset }) :
    b.Receives s [] (b', s) := by
  subst heq
  refine ⟨?_, rfl, rfl, Nat.le_refl _, .refl s b.home⟩
  rw [List.append_nil]

/-- What is put into the chunks, and where the cursor is, does not matter. -/
theorem Receives.of_terms_eq {added : List Loan} {b' b'' : Buffer} {t : Store}
    (h : b.Receives s added (b', t)) (hterms : b''.chunks.map Loan.terms =
      b'.chunks.map Loan.terms) (hhome : b''.home = b'.home)
    (hsize : b''.chunkSize = b'.chunkSize) (hlength : b''.length = b'.length) :
    b.Receives s added (b'', t) :=
  ⟨hterms.trans h.terms, hhome.trans h.home_eq, hsize.trans h.chunkSize_eq,
    h.length_le.trans_eq hlength.symm, h.delivers⟩

section Received

variable {added : List Loan} {t : Buffer × Store}

theorem Receives.grows (h : b.Receives s added t) : b.Grows t.1 := by
  refine ⟨h.home_eq, h.chunkSize_eq, h.length_le, ?_⟩
  rw [h.terms, List.map_append]
  exact List.prefix_append _ _

theorem Receives.length_chunks (h : b.Receives s added t) :
    t.1.chunks.length = b.chunks.length + added.length := by
  have hlength := congrArg List.length h.terms
  rwa [List.length_map, List.length_map, List.length_append] at hlength

theorem Receives.atHome (h : b.Receives s added t) (hhome : b.AtHome) : t.1.AtHome := by
  intro chunk hchunk
  rw [h.home_eq]
  exact Loan.OfPool.of_terms_eq (List.forall_mem_append.2 ⟨hhome, h.delivers.ofPool⟩) h.terms
    chunk hchunk

end Received

section Requests

variable (h : s.Sound (↑b.chunks + loans) tickets) (hhome : b.home < s.pools.length)
include h hhome

theorem receives_addChunks (count : Nat) :
    Ends (addChunks count (b, s)) (fun _ t => ∃ added, b.Receives s added t)
      fun _ _ => True := by
  have hrow := h.delivers_mapM hhome b.chunkSize count
  rw [addChunks_eq]
  cases hresult : (List.replicate count b.chunkSize).mapM
      (fun size => Store.borrow b.home size false) s with
  | error abort t => trivial
  | ok chunks t =>
    rw [hresult] at hrow
    exact ⟨chunks, rfl, rfl, rfl, Nat.le_refl _, hrow⟩

theorem receives_grow (length : Nat) :
    Ends (grow length (b, s)) (fun _ t => ∃ added, b.Receives s added t) fun _ _ => True := by
  show Ends ((if b.length < length then
      addChunks (b.chunksFor length - b.chunks.length) >>= fun _ =>
        update fun b => ((), { b with length })
    else pure () : HolderM Buffer Unit) (b, s)) _ _
  split
  · next hlength =>
    refine Ends.bind (receives_addChunks h hhome _) fun _ t ht => ?_
    obtain ⟨added, hadded⟩ := ht
    exact ⟨added, hadded.terms, hadded.home_eq, hadded.chunkSize_eq, Nat.le_of_lt hlength,
      hadded.delivers⟩
  · exact ⟨[], .of_eq rfl⟩

theorem receives_writeAt (row : List UInt8) (offset : Nat) :
    Ends (writeAt row offset (b, s)) (fun _ t => ∃ added, b.Receives s added t)
      fun _ _ => True := by
  unfold writeAt
  dsimp only
  split
  · exact ⟨[], .of_eq rfl⟩
  · let fill (b' : Buffer) : Buffer :=
      { b' with
        chunks := Chunks.write b'.chunkSize
          (Chunks.clear b'.chunkSize b'.chunks b.length (offset - b.length)) offset row }
    show Ends ((do
      grow (offset + row.length)
      update fun b' => ((), fill b')
      return .ok row.length : HolderM Buffer (Except Fault Nat)) (b, s)) _ _
    refine Ends.bind (receives_grow h hhome _) fun _ t ht => ?_
    obtain ⟨added, hadded⟩ := ht
    have hterms : (fill t.1).chunks.map Loan.terms = t.1.chunks.map Loan.terms := by
      rw [Chunks.terms_write, Chunks.terms_clear]
    exact ⟨added, hadded.of_terms_eq hterms rfl rfl rfl⟩

theorem receives_write (row : List UInt8) :
    Ends (write row (b, s)) (fun _ t => ∃ added, b.Receives s added t) fun _ _ => True := by
  show Ends ((writeAt row b.offset >>= _) (b, s)) _ _
  refine Ends.bind (receives_writeAt h hhome row b.offset) fun result t ht => ?_
  obtain ⟨added, hadded⟩ := ht
  cases result with
  | ok count => exact ⟨added, hadded.of_terms_eq rfl rfl rfl rfl⟩
  | error fault => exact ⟨added, hadded⟩

/-- **Every request** takes chunks, or none. -/
theorem receives_request (request : BufferRequest) :
    Ends (request.run (b, s)) (fun _ t => ∃ added, b.Receives s added t)
      fun _ _ => True := by
  cases request with
  | write row stream => exact (receives_write h hhome row).map fun _ _ ht => ht
  | writeAt row offset => exact (receives_writeAt h hhome row offset).map fun _ _ ht => ht
  | read limit stream =>
    cases stream with
    | false => exact ⟨[], .of_eq (b.read_eq _)⟩
    | true => exact ⟨[], .of_eq ((b.streamRead_snd _).trans (b.read_eq _))⟩
  | readAll => exact ⟨[], .of_eq (b.streamReadAll_snd.trans (b.read_eq _))⟩
  | seek origin delta stream => exact ⟨[], .of_eq (b.seek_eq origin delta)⟩
  | _ => exact ⟨[], .of_eq rfl⟩

/-- **A request takes chunks, or it is refused**: then the buffer is as before, and all that
is left of the request is that the pool has counted it. -/
theorem receives_or_left (request : BufferRequest) :
    Ends (request.run (b, s))
      (fun outcome t => (∀ abort, outcome ≠ .aborted abort) ∧ ∃ added, b.Receives s added t)
      fun _ t => t = b.left s := by
  refine Ends.mono ((receives_request h hhome request).and
    ((ends_request h hhome request).and (leaves_request b s request)))
    (fun _ _ ht => ⟨ht.2.1.2, ht.1⟩) fun abort t ht => ?_
  obtain ⟨-, ⟨-, -, hoverflow, -⟩, hleft⟩ := ht
  exact (hleft hoverflow).2

omit h in
/-- The pool has counted the request that it has refused. -/
theorem served_left : ((b.left s).2.pool b.home).served = (s.pool b.home).served + 1 := by
  show ((s.commit b.home ((s.pool b.home).ahead 1) _).pool b.home).served = _
  rw [Store.pool_commit_self _ _ hhome]
  rfl

end Requests

end Buffer

end Wirepool
