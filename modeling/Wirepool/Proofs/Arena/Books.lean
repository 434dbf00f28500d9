import Wirepool.Proofs.Arena.Sound
import Wirepool.Proofs.Buffer.Sound
import Wirepool.Proofs.Store.Books

/-!
# What arenas and buffers enter in the books

An arena borrows its chunks when slices are asked for, and gives them back or loses them
all at once. The same goes for a buffer and its bytes. In between nothing ends: whatever is
asked of the two, and whether it can be had or not, all that is entered is loans that they
hold from then on.
-/

namespace Wirepool

open HolderM

namespace Arena

variable {a : Arena} {s : Store} {loans : Multiset Loan} {tickets : Multiset Ticket}

/-- **An arena borrows and does no more**: no loan has ended. -/
def Borrows (a : Arena) (s : Store) (loans : Multiset Loan) (t : Arena × Store) : Prop :=
  s.Borrows (↑a.chunks + loans) t.2 (↑t.1.chunks + loans)

/-- **A chunk that is borrowed** is entered, or nothing is. -/
theorem borrows_borrow (h : s.Sound (↑a.chunks + loans) tickets) (hhome : a.home < s.pools.length)
    (len : Nat) (zero : Bool) :
    Ends (onStore (Store.borrow a.home len zero) (a, s))
      (fun chunk t => t.1 = a ∧ s.Borrows (↑a.chunks + loans) t.2 (↑(a.chunks ++ [chunk]) + loans))
      fun _ => a.Borrows s loans := by
  refine (ends_onStore (h.balances_borrow hhome len zero)).mono (fun chunk t ht => ?_)
    fun abort t ht => ?_
  · refine ⟨ht.2, chunk.account?.toList, ?_⟩
    rw [← Multiset.coe_add, Multiset.coe_singleton, add_comm (↑a.chunks : Multiset Loan) {chunk},
      Multiset.singleton_add, Multiset.cons_add]
    exact ht.1
  · obtain ⟨b, u⟩ := t
    obtain ⟨hbalances, rfl⟩ := ht
    exact ⟨[], hbalances⟩

/-- Cutting a slice off enters nothing. -/
theorem borrows_cutOff {b : Arena} {t : Store} (h : a.Borrows s loans (b, t)) (len : Nat)
    (zero : Bool) :
    Ends (get.cutOff len zero (b, t)) (fun _ => a.Borrows s loans)
      fun _ => a.Borrows s loans := by
  cases zero with
  | false => exact h
  | true =>
    exact Store.Borrows.of_terms_eq h (terms_modifyChunk (b.cut len).2 (b.cut len).1 fun loan =>
      Loan.terms_fill loan _ _ _)

/-- **Asking for a slice** borrows and does no more. -/
theorem borrows_get (h : s.Sound (↑a.chunks + loans) tickets) (hhome : a.home < s.pools.length)
    (len : Nat) (zero : Bool) :
    Ends (get len zero (a, s)) (fun _ => a.Borrows s loans) fun _ => a.Borrows s loans := by
  have hstart : a.Borrows s loans (a, s) := .refl s _
  unfold get
  refine Ends.bind ((ends_count len).mono (fun _ _ ht => ht) fun abort t ht => ?_) fun _ t ht => ?_
  · rw [ht.1]
    exact hstart
  subst ht
  let counted : Arena := { a with length := a.length + len }
  have hnow : Ends (now (counted, s)) (fun b t => b = counted ∧ t = (counted, s))
      fun _ => a.Borrows s loans := ⟨rfl, rfl⟩
  refine hnow.bind fun b t ht => ?_
  obtain ⟨rfl, rfl⟩ := ht
  cases counted.plan len with
  | nothing => exact hstart
  | dedicated =>
    refine Ends.bind (borrows_borrow (a := counted) h hhome len zero) fun chunk t ht => ?_
    obtain ⟨b, u⟩ := t
    obtain ⟨rfl, hrow⟩ := ht
    exact hrow
  | opening =>
    refine Ends.bind (borrows_borrow (a := counted) h hhome a.size false) fun chunk t ht => ?_
    obtain ⟨b, u⟩ := t
    obtain ⟨rfl, hrow⟩ := ht
    exact borrows_cutOff (b := counted.openFragment chunk) hrow len zero
  | current => exact borrows_cutOff (b := counted) hstart len zero

/-- So does copying bytes into a slice. -/
theorem borrows_copy (h : s.Sound (↑a.chunks + loans) tickets) (hhome : a.home < s.pools.length)
    (row : List UInt8) :
    Ends (copy row (a, s)) (fun _ => a.Borrows s loans) fun _ => a.Borrows s loans := by
  unfold copy
  refine (borrows_get h hhome row.length false).bind fun slice t ht => ?_
  exact Store.Borrows.of_terms_eq ht (terms_modifyChunk t.1 slice fun loan =>
    Loan.terms_write loan _ _)

/-- **A row of copies** borrows and does no more. -/
theorem borrows_forM_copy (rows : List (List UInt8)) (h : s.Sound (↑a.chunks + loans) tickets)
    (hhome : a.home < s.pools.length) :
    Ends (rows.forM (fun row => discard (copy row)) (a, s)) (fun _ => a.Borrows s loans)
      fun _ => a.Borrows s loans := by
  have hstart : a.Borrows s loans (a, s) := .refl s _
  refine (Ends.forM (fun _ t => a.Leads s loans tickets t ∧ a.Borrows s loans t)
    (fun row _ t ht => ?_) rows ⟨⟨⟨h, .refl s⟩, rfl⟩, hstart⟩).mono (fun _ _ ht => ht.2)
    fun _ _ ht => ht
  obtain ⟨⟨hleads, hsame⟩, hborrows⟩ := ht
  have hhome' : t.1.home < t.2.pools.length :=
    hsame.symm ▸ Nat.lt_of_lt_of_le hhome hleads.2.length_le
  refine (((ends_copy hleads.1 hhome' row).and (borrows_copy hleads.1 hhome' row)).mono
    (fun _ u hu => ?_) fun _ u hu => Store.Borrows.trans hborrows hu.2).map fun _ _ hu => hu
  exact ⟨⟨hleads.trans hu.1.1, hu.1.2.trans hsame⟩, Store.Borrows.trans hborrows hu.2⟩

/-- **Giving everything back** enters all chunks as given back. -/
theorem balances_release (h : s.Sound (↑a.chunks + loans) tickets) :
    Ends (a.release s) (fun _ t => s.Balances (↑a.chunks + loans)
      ⟨[], a.chunks.filterMap Loan.account?, []⟩ t loans) fun _ _ => False :=
  h.balances_forM_release

/-- **Losing everything** enters all chunks as lost. -/
theorem balances_drop (h : s.Sound (↑a.chunks + loans) tickets) :
    Ends (a.drop s) (fun _ t => s.Balances (↑a.chunks + loans)
      ⟨[], [], a.chunks.filterMap Loan.account?⟩ t loans) fun _ _ => False :=
  h.balances_forM_lose

/-- **Starting afresh** gives everything back. -/
theorem balances_reset (h : s.Sound (↑a.chunks + loans) tickets) :
    Ends (reset (a, s)) (fun _ t => s.Balances (↑a.chunks + loans)
        ⟨[], a.chunks.filterMap Loan.account?, []⟩ t.2 (↑t.1.chunks + loans))
      fun _ _ => False := by
  show Ends ((onStore a.release >>= fun _ => update fun a => ((), new a.home a.size)) (a, s)) _ _
  refine Ends.bind ((ends_onStore (balances_release h)).mono (fun _ _ ht => ht)
    fun _ _ ht => ht.1.elim) fun _ t ht => ?_
  show s.Balances _ _ t.2 (↑([] : List Loan) + loans)
  rw [Multiset.coe_nil, zero_add]
  exact ht.1

end Arena

namespace Buffer

variable {b : Buffer} {s : Store} {loans : Multiset Loan} {tickets : Multiset Ticket}

/-- **Giving everything back** enters all chunks as given back. -/
theorem balances_release (h : s.Sound (↑b.chunks + loans) tickets) :
    Ends (b.release s) (fun _ t => s.Balances (↑b.chunks + loans)
      ⟨[], b.chunks.filterMap Loan.account?, []⟩ t loans) fun _ _ => False :=
  h.balances_forM_release

/-- **Losing everything** enters all chunks as lost. -/
theorem balances_drop (h : s.Sound (↑b.chunks + loans) tickets) :
    Ends (b.drop s) (fun _ t => s.Balances (↑b.chunks + loans)
      ⟨[], [], b.chunks.filterMap Loan.account?⟩ t loans) fun _ _ => False :=
  h.balances_forM_lose

/-- **A buffer borrows and does no more**: no loan has ended. -/
def Borrows (b : Buffer) (s : Store) (loans : Multiset Loan) (t : Buffer × Store) : Prop :=
  s.Borrows (↑b.chunks + loans) t.2 (↑t.1.chunks + loans)

/-- **Several chunks are borrowed**, and each of them is entered. -/
theorem balances_mapM_borrow (h : s.Sound loans tickets) {number : Nat}
    (hnumber : number < s.pools.length) (size count : Nat) :
    Ends ((List.replicate count size).mapM (fun size => Store.borrow number size false) s)
      (fun chunks t => s.Borrows loans t (↑chunks + loans)) fun _ t => s.Borrows loans t loans := by
  induction count generalizing s loans with
  | zero =>
    show s.Borrows loans s (↑([] : List Loan) + loans)
    rw [Multiset.coe_nil, zero_add]
    exact .refl s loans
  | succ count ih =>
    rw [List.replicate_succ, List.mapM_cons]
    refine Ends.bind (((h.borrow hnumber size false).and
      (h.balances_borrow hnumber size false)).mono (fun _ _ ht => ht) fun _ _ ht => ⟨[], ht.2⟩)
      fun chunk t ht => ?_
    obtain ⟨⟨hleads, -, hlt⟩, hfirst⟩ := ht
    have hnumber' : number < t.pools.length := Nat.lt_of_lt_of_le hnumber hleads.2.length_le
    -- a chunk could be had, so the others can be had as well
    refine Ends.bind (((ends_mapM_borrow hleads.1 hnumber' size count).and
      (ih hleads.1 hnumber')).mono (fun _ _ hu => hu.2) fun _ u hu => ?_) fun chunks u hu => ?_
    · exact absurd hlt (Nat.not_lt_of_le hu.1.2.2)
    · show s.Borrows loans u (↑(chunk :: chunks) + loans)
      rw [← Multiset.cons_coe, Multiset.cons_add, ← Multiset.add_cons]
      exact Store.Borrows.trans ⟨_, hfirst⟩ hu

/-- **New chunks** are entered. -/
theorem borrows_addChunks (h : s.Sound (↑b.chunks + loans) tickets)
    (hhome : b.home < s.pools.length) (count : Nat) :
    Ends (addChunks count (b, s)) (fun _ => b.Borrows s loans) fun _ => b.Borrows s loans := by
  show Ends ((onStore ((List.replicate count b.chunkSize).mapM fun size =>
    Store.borrow b.home size false) >>= fun chunks =>
      update fun b => ((), { b with chunks := b.chunks ++ chunks })) (b, s)) _ _
  refine Ends.bind ((ends_onStore (balances_mapM_borrow h hhome b.chunkSize count)).mono
    (fun _ _ ht => ht) fun abort t ht => ?_) fun chunks t ht => ?_
  · obtain ⟨c, u⟩ := t
    obtain ⟨hborrows, rfl⟩ := ht
    exact hborrows
  · obtain ⟨c, u⟩ := t
    obtain ⟨hborrows, rfl⟩ := ht
    show s.Borrows (↑c.chunks + loans) u (↑(c.chunks ++ chunks) + loans)
    rw [← Multiset.coe_add, add_comm (↑c.chunks : Multiset Loan) ↑chunks, add_assoc]
    exact hborrows

/-- Making room borrows and does no more. -/
theorem borrows_grow (h : s.Sound (↑b.chunks + loans) tickets) (hhome : b.home < s.pools.length)
    (length : Nat) :
    Ends (grow length (b, s)) (fun _ => b.Borrows s loans) fun _ => b.Borrows s loans := by
  show Ends ((if b.length < length then
    addChunks (b.chunksFor length - b.chunks.length) >>= fun _ =>
      update fun b => ((), { b with length })
    else pure ()) (b, s)) _ _
  by_cases hlength : b.length < length
  · rw [if_pos hlength]
    exact Ends.bind (borrows_addChunks h hhome _) fun _ t ht => ht
  · rw [if_neg hlength]
    exact .refl s _

/-- **A write at a position** borrows and does no more. -/
theorem borrows_writeAt (h : s.Sound (↑b.chunks + loans) tickets)
    (hhome : b.home < s.pools.length) (row : List UInt8) (offset : Nat) :
    Ends (writeAt row offset (b, s)) (fun _ => b.Borrows s loans) fun _ => b.Borrows s loans := by
  unfold writeAt
  dsimp only
  by_cases hlimit : wordLimit ≤ offset + row.length
  · rw [if_pos hlimit]
    exact .refl s _
  · rw [if_neg hlimit]
    let fill (c : Buffer) : Buffer :=
      { c with
        chunks := Chunks.write c.chunkSize
          (Chunks.clear c.chunkSize c.chunks b.length (offset - b.length)) offset row }
    show Ends ((do
      grow (offset + row.length)
      update fun c => ((), fill c)
      return .ok row.length : HolderM Buffer (Except Fault Nat)) (b, s)) _ _
    refine Ends.bind (borrows_grow h hhome (offset + row.length)) fun _ t ht => ?_
    refine Store.Borrows.of_terms_eq ht ?_
    rw [Chunks.terms_write, Chunks.terms_clear]

/-- So does a write at the cursor. -/
theorem borrows_write (h : s.Sound (↑b.chunks + loans) tickets) (hhome : b.home < s.pools.length)
    (row : List UInt8) :
    Ends (write row (b, s)) (fun _ => b.Borrows s loans) fun _ => b.Borrows s loans := by
  show Ends ((writeAt row b.offset >>= _) (b, s)) _ _
  refine Ends.bind (borrows_writeAt h hhome row b.offset) fun result t ht => ?_
  cases result with
  | ok count => exact ht
  | error fault => exact ht

/-- **A request** borrows and does no more. -/
theorem borrows_request (h : s.Sound (↑b.chunks + loans) tickets)
    (hhome : b.home < s.pools.length) (request : BufferRequest) :
    Ends (request.run (b, s)) (fun _ => b.Borrows s loans) fun _ => b.Borrows s loans := by
  -- what only looks at the buffer or moves the cursor leaves its chunks
  have hlook {c : Buffer} {offset : Nat} (heq : c = { b with offset }) :
      b.Borrows s loans (c, s) := by
    rw [heq]
    exact .refl s _
  cases request with
  | write row stream => exact (borrows_write h hhome row).map fun _ _ ht => ht
  | writeAt row offset => exact (borrows_writeAt h hhome row offset).map fun _ _ ht => ht
  | read limit stream =>
    cases stream with
    | false => exact hlook (b.read_eq _)
    | true => exact hlook ((b.streamRead_snd _).trans (b.read_eq _))
  | readAt limit offset => exact .refl s _
  | readAll => exact hlook (b.streamReadAll_snd.trans (b.read_eq _))
  | seek origin delta stream => exact hlook (b.seek_eq origin delta)
  | flush => exact .refl s _
  | range offset count => exact .refl s _

end Buffer

end Wirepool
