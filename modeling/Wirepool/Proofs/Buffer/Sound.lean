import Wirepool.Proofs.Store.Actions
import Wirepool.Session.Request

/-!
# Buffers and the store behind them

What a buffer holds is lent to it, as for arenas. A request to a buffer borrows
chunks or none at all: chunks are all of one length, so if memory for one of
them cannot be had then the first one is refused already. What a request leaves
in the buffer is said in full, because that is where its bytes are.
-/

namespace Wirepool

namespace Chunks

/-- Clearing leaves the terms of the chunks. -/
theorem terms_clear (size : Nat) (chunks : List Loan) (offset count : Nat) :
    (clear size chunks offset count).map Loan.terms = chunks.map Loan.terms := by
  induction chunks generalizing offset count with
  | nil => rfl
  | cons chunk chunks ih =>
    unfold clear
    split
    · rfl
    · split
      · rw [List.map_cons, ih, List.map_cons]
      · rw [List.map_cons, ih, Loan.terms_fill, List.map_cons]

/-- Writing leaves the terms of the chunks. -/
theorem terms_write (size : Nat) (chunks : List Loan) (offset : Nat) (row : List UInt8) :
    (write size chunks offset row).map Loan.terms = chunks.map Loan.terms := by
  induction chunks generalizing offset row with
  | nil => rfl
  | cons chunk chunks ih =>
    unfold write
    split
    · rfl
    · split
      · rw [List.map_cons, ih, List.map_cons]
      · rw [List.map_cons, ih, Loan.terms_write, List.map_cons]

end Chunks

namespace Buffer

open HolderM

variable {b : Buffer} {s : Store} {loans : Multiset Loan} {tickets : Multiset Ticket}

/-- **What holds after an action on a buffer**: the store is in order for what
the buffer holds now, and the buffer is still of its pool. -/
def Leads (b : Buffer) (s : Store) (loans : Multiset Loan) (tickets : Multiset Ticket)
    (t : Buffer × Store) : Prop :=
  s.Leads (↑t.1.chunks + loans) tickets t.2 ∧ t.1.home = b.home

/-- **An abort of an action on a buffer**: a chunk could not be had, and the
buffer is as before. -/
def Stops (b : Buffer) (s : Store) (loans : Multiset Loan) (tickets : Multiset Ticket)
    (abort : Abort) (t : Buffer × Store) : Prop :=
  s.Leads (↑b.chunks + loans) tickets t.2 ∧ t.1 = b ∧ abort = .capacityOverflow ∧
    addressLimit ≤ b.chunkSize

/-- **Several chunks are borrowed**, or not even the first one. -/
theorem ends_mapM_borrow (h : s.Sound loans tickets) {number : Nat}
    (hnumber : number < s.pools.length) (size count : Nat) :
    Ends ((List.replicate count size).mapM (fun size => Store.borrow number size false) s)
      (fun chunks t => s.Leads (↑chunks + loans) tickets t ∧ chunks.length = count ∧
        (∀ chunk ∈ chunks, chunk.len = size) ∧ (0 < count → size < addressLimit))
      (s.Refused loans tickets size) := by
  induction count generalizing s loans with
  | zero =>
    refine ⟨⟨?_, .refl s⟩, rfl, nofun, nofun⟩
    show s.Sound (↑([] : List Loan) + loans) tickets
    rwa [Multiset.coe_nil, zero_add]
  | succ count ih =>
    rw [List.replicate_succ, List.mapM_cons]
    refine Ends.bind (h.borrow hnumber size false) fun chunk t ht => ?_
    have hnumber' : number < t.pools.length := Nat.lt_of_lt_of_le hnumber ht.1.2.length_le
    -- a chunk could be had, so the others can be had as well
    refine Ends.bind ((ih ht.1.1 hnumber').mono (fun _ _ hu => hu) fun abort u hu => ?_)
      fun chunks u hu => ?_
    · exact absurd ht.2.2 (Nat.not_lt_of_le hu.2.2)
    · refine ⟨⟨?_, ht.1.2.trans hu.1.2⟩, congrArg (· + 1) hu.2.1, ?_, fun _ => ht.2.2⟩
      · rw [← Multiset.cons_coe, Multiset.cons_add, ← Multiset.add_cons]
        exact hu.1.1
      · intro other hother
        rcases List.mem_cons.mp hother with rfl | hother
        · exact ht.2.1
        · exact hu.2.2.1 other hother

/-- **New chunks** stand behind the others. -/
theorem ends_addChunks (h : s.Sound (↑b.chunks + loans) tickets) (hhome : b.home < s.pools.length)
    (count : Nat) :
    Ends (addChunks count (b, s))
      (fun _ t => ∃ chunks, t.1 = { b with chunks := b.chunks ++ chunks } ∧
        chunks.length = count ∧ (∀ chunk ∈ chunks, chunk.len = b.chunkSize) ∧
        s.Leads (↑t.1.chunks + loans) tickets t.2)
      (b.Stops s loans tickets) := by
  show Ends ((onStore ((List.replicate count b.chunkSize).mapM fun size =>
    Store.borrow b.home size false) >>= fun chunks =>
      update fun b => ((), { b with chunks := b.chunks ++ chunks })) (b, s)) _ _
  refine Ends.bind ((ends_onStore (ends_mapM_borrow h hhome b.chunkSize count)).mono
    (fun _ _ ht => ht) fun abort t ht => ⟨ht.1.1, ht.2, ht.1.2⟩) fun chunks t ht => ?_
  obtain ⟨b', t⟩ := t
  obtain ⟨⟨hleads, hlength, hlen, -⟩, rfl⟩ := ht
  refine ⟨chunks, rfl, hlength, hlen, ?_⟩
  show s.Leads (↑(b'.chunks ++ chunks) + loans) tickets t
  rw [← Multiset.coe_add, add_comm (↑b'.chunks : Multiset Loan), add_assoc]
  exact hleads

/-- The number of chunks that a length needs and that are not there. -/
def missing (b : Buffer) (length : Nat) : Nat :=
  if b.length < length then b.chunksFor length - b.chunks.length else 0

/-- **Making room** adds the chunks that are missing. -/
theorem ends_grow (h : s.Sound (↑b.chunks + loans) tickets) (hhome : b.home < s.pools.length)
    (length : Nat) :
    Ends (grow length (b, s))
      (fun _ t => ∃ chunks, t.1 = { b with
          length := max b.length length, chunks := b.chunks ++ chunks } ∧
        chunks.length = b.missing length ∧ (∀ chunk ∈ chunks, chunk.len = b.chunkSize) ∧
        s.Leads (↑t.1.chunks + loans) tickets t.2)
      (b.Stops s loans tickets) := by
  show Ends ((if b.length < length then
    addChunks (b.chunksFor length - b.chunks.length) >>= fun _ =>
      update fun b => ((), { b with length })
    else pure ()) (b, s)) _ _
  by_cases hlength : b.length < length
  · rw [if_pos hlength]
    refine Ends.bind (ends_addChunks h hhome _) fun _ t ht => ?_
    obtain ⟨chunks, hb, hcount, hlen, hleads⟩ := ht
    refine ⟨chunks, ?_, by rw [missing, if_pos hlength]; exact hcount, hlen, hleads⟩
    show ({ t.1 with length } : Buffer) = _
    rw [hb, Nat.max_eq_right (Nat.le_of_lt hlength)]
  · rw [if_neg hlength]
    refine ⟨[], ?_, by rw [missing, if_neg hlength]; rfl, nofun, ?_⟩
    · rw [Nat.max_eq_left (Nat.le_of_not_lt hlength), List.append_nil]
    · exact ⟨h, .refl s⟩

/-- The buffer after a write at a position, with the chunks that were added for
it. -/
def written (b : Buffer) (row : List UInt8) (offset : Nat) (added : List Loan) : Buffer :=
  { b with
    length := max b.length (offset + row.length)
    chunks := Chunks.write b.chunkSize (Chunks.clear b.chunkSize (b.chunks ++ added) b.length
      (offset - b.length)) offset row }

/-- **What a write leads to**, with the cursor where it is afterwards. -/
inductive Writes (b : Buffer) (s : Store) (loans : Multiset Loan) (tickets : Multiset Ticket)
    (row : List UInt8) (offset cursor : Nat) : Except Fault Nat → Buffer × Store → Prop
  /-- It is refused as a whole. -/
  | refused (hlimit : wordLimit ≤ offset + row.length) :
    Writes b s loans tickets row offset cursor (.error .invalidOffset) (b, s)
  /-- Or it adds the chunks that are missing, clears the gap and writes. -/
  | written {added : List Loan} {t : Store} (hlimit : offset + row.length < wordLimit)
    (hcount : added.length = b.missing (offset + row.length))
    (hlen : ∀ chunk ∈ added, chunk.len = b.chunkSize)
    (hleads : s.Leads (↑(b.written row offset added).chunks + loans) tickets t) :
    Writes b s loans tickets row offset cursor (.ok row.length)
      ({ b.written row offset added with offset := cursor }, t)

/-- Either way the store is in order. -/
theorem Writes.leads {row : List UInt8} {offset cursor : Nat} {result : Except Fault Nat}
    {t : Buffer × Store} (hwrites : b.Writes s loans tickets row offset cursor result t)
    (h : s.Sound (↑b.chunks + loans) tickets) : b.Leads s loans tickets t := by
  cases hwrites with
  | refused hlimit => exact ⟨⟨h, .refl s⟩, rfl⟩
  | written hlimit hcount hlen hleads => exact ⟨hleads, rfl⟩

/-- **A write at a position** leaves the cursor. -/
theorem ends_writeAt (h : s.Sound (↑b.chunks + loans) tickets) (hhome : b.home < s.pools.length)
    (row : List UInt8) (offset : Nat) :
    Ends (writeAt row offset (b, s)) (b.Writes s loans tickets row offset b.offset)
      (b.Stops s loans tickets) := by
  unfold writeAt
  dsimp only
  by_cases hlimit : wordLimit ≤ offset + row.length
  · rw [if_pos hlimit]
    exact .refused hlimit
  · rw [if_neg hlimit]
    let fill (b' : Buffer) : Buffer :=
      { b' with
        chunks := Chunks.write b'.chunkSize
          (Chunks.clear b'.chunkSize b'.chunks b.length (offset - b.length)) offset row }
    show Ends ((do
      grow (offset + row.length)
      update fun b' => ((), fill b')
      return .ok row.length : HolderM Buffer (Except Fault Nat)) (b, s)) _ _
    refine Ends.bind (ends_grow h hhome (offset + row.length)) fun _ t ht => ?_
    obtain ⟨b', t⟩ := t
    obtain ⟨added, rfl, hcount, hlen, hleads⟩ := ht
    -- clearing and writing go through what is held, so the terms stay
    refine .written (Nat.lt_of_not_le hlimit) hcount hlen ⟨hleads.1.of_terms_eq ?_, hleads.2⟩
    rw [Multiset.map_add, Multiset.map_add, Multiset.map_coe, Multiset.map_coe, written,
      Chunks.terms_write, Chunks.terms_clear]

/-- **A write at the cursor** is a write at a position that moves the cursor. -/
theorem ends_write (h : s.Sound (↑b.chunks + loans) tickets) (hhome : b.home < s.pools.length)
    (row : List UInt8) :
    Ends (write row (b, s)) (b.Writes s loans tickets row b.offset (b.offset + row.length))
      (b.Stops s loans tickets) := by
  show Ends ((writeAt row b.offset >>= _) (b, s)) _ _
  refine Ends.bind (ends_writeAt h hhome row b.offset) fun result t ht => ?_
  cases ht with
  | refused hlimit => exact .refused hlimit
  | written hlimit hcount hlen hleads => exact .written hlimit hcount hlen hleads

/-- **Giving everything back** never fails. -/
theorem ends_release (h : s.Sound (↑b.chunks + loans) tickets) :
    Ends (b.release s) (fun _ t => s.Leads loans tickets t) fun _ _ => False :=
  h.forM Store.Sound.release

/-- **Losing everything** never fails. -/
theorem ends_drop (h : s.Sound (↑b.chunks + loans) tickets) :
    Ends (b.drop s) (fun _ t => s.Leads loans tickets t) fun _ _ => False :=
  h.forM Store.Sound.lose

/-! ## Requests -/

/-- A read moves at most the cursor. -/
theorem read_eq (b : Buffer) (memory : List UInt8) :
    (b.read memory).2 = { b with offset := (b.read memory).2.offset } := by
  unfold read
  split <;> rfl

/-- A read as by a stream leaves the buffer as a read does. -/
theorem streamRead_snd (b : Buffer) (memory : List UInt8) :
    (b.streamRead memory).2 = (b.read memory).2 := by
  unfold streamRead
  split
  · next b' heq => rw [heq]
  · rfl

/-- So does a read to the end. -/
theorem streamReadAll_snd (b : Buffer) :
    b.streamReadAll.2 = (b.read (List.replicate (b.length - b.offset) 0)).2 := by
  rw [← streamRead_snd]
  unfold streamReadAll
  split
  · next count memory b' heq => rw [heq]
  · next fault b' heq => rw [heq]

/-- A seek moves at most the cursor. -/
theorem seek_eq (b : Buffer) (origin : Origin) (delta : Int) :
    (b.seek origin delta).2 = { b with offset := (b.seek origin delta).2.offset } := by
  unfold seek
  cases origin <;> dsimp only <;> split <;> rfl

/-- What leaves all but the cursor keeps the store in order. -/
theorem Leads.of_eq {b' : Buffer} {offset : Nat} (h : s.Sound (↑b.chunks + loans) tickets)
    (heq : b' = { b with offset }) : b.Leads s loans tickets (b', s) := by
  rw [heq]
  exact ⟨⟨h, .refl s⟩, rfl⟩

end Buffer

namespace BufferRequest

/-! What a request makes of a result is never an abort. -/

theorem failed_ne_aborted (stream : Bool) (fault : Fault) (abort : Abort) :
    failed stream fault ≠ .aborted abort := by
  cases stream <;> exact nofun

theorem wrote_ne_aborted (stream : Bool) (result : Except Fault Nat) (abort : Abort) :
    wrote stream result ≠ .aborted abort := by
  cases result with
  | ok count => exact nofun
  | error fault => exact failed_ne_aborted stream fault abort

theorem haveRead_ne_aborted (stream : Bool) (result : Except Fault (Nat × List UInt8))
    (abort : Abort) : haveRead stream result ≠ .aborted abort := by
  cases result with
  | ok read => exact nofun
  | error fault => exact failed_ne_aborted stream fault abort

theorem haveReadAll_ne_aborted (result : Except Fault (List UInt8)) (abort : Abort) :
    haveReadAll result ≠ .aborted abort := by
  cases result <;> exact nofun

theorem sought_ne_aborted (stream : Bool) (result : Except Fault Nat) (abort : Abort) :
    sought stream result ≠ .aborted abort := by
  cases result with
  | ok position => exact nofun
  | error fault => exact failed_ne_aborted stream fault abort

end BufferRequest

namespace Buffer

variable {b : Buffer} {s : Store} {loans : Multiset Loan} {tickets : Multiset Ticket}

/-- **A request** keeps the store in order. It is refused as a whole if memory
cannot be had. -/
theorem ends_request (h : s.Sound (↑b.chunks + loans) tickets) (hhome : b.home < s.pools.length)
    (request : BufferRequest) :
    Ends (request.run (b, s))
      (fun outcome t => b.Leads s loans tickets t ∧ ∀ abort, outcome ≠ .aborted abort)
      (b.Stops s loans tickets) := by
  cases request with
  | write row stream =>
    exact (ends_write h hhome row).map fun _ _ ht =>
      ⟨ht.leads h, BufferRequest.wrote_ne_aborted _ _⟩
  | writeAt row offset =>
    exact (ends_writeAt h hhome row offset).map fun _ _ ht =>
      ⟨ht.leads h, BufferRequest.wrote_ne_aborted _ _⟩
  | read limit stream =>
    cases stream with
    | false => exact ⟨.of_eq h (b.read_eq _), BufferRequest.haveRead_ne_aborted _ _⟩
    | true =>
      refine ⟨.of_eq h ((b.streamRead_snd _).trans (b.read_eq _)), ?_⟩
      exact BufferRequest.haveRead_ne_aborted _ _
  | readAt limit offset => exact ⟨⟨⟨h, .refl s⟩, rfl⟩, BufferRequest.haveRead_ne_aborted _ _⟩
  | readAll =>
    refine ⟨.of_eq h (b.streamReadAll_snd.trans (b.read_eq _)), ?_⟩
    exact BufferRequest.haveReadAll_ne_aborted _
  | seek origin delta stream =>
    exact ⟨.of_eq h (b.seek_eq origin delta), BufferRequest.sought_ne_aborted _ _⟩
  | flush => exact ⟨⟨⟨h, .refl s⟩, rfl⟩, nofun⟩
  | range offset count => exact ⟨⟨⟨h, .refl s⟩, rfl⟩, nofun⟩

end Buffer

end Wirepool
