import Wirepool.Proofs.Buffer.Sound
import Wirepool.Proofs.Store.Tenants

/-!
# The pages under arenas, buffers and messages

An arena borrows its chunks as slices are asked for, and all that is ever written through a
slice goes to one of them. A buffer does the same with its own chunks. So whatever the two
are asked for, the moves are loans and writes, and the writes go to pages that nobody else
holds. When an arena or a buffer ends, all its pages come back one after another, and it
makes no difference whether they are given back or lost.

A message in memory of its own is a loan and a write, and a return if it cannot be written.
-/

namespace Wirepool

open HolderM

/-! ## Rows of loans -/

/-- **A change of one loan** of a row. -/
theorem Loan.rewrites_modify {f : Loan → Loan} (hf : ∀ loan : Loan, loan.Rewrites (f loan))
    (chunks : List Loan) (i : Nat) : List.Forall₂ Loan.Rewrites chunks (chunks.modify i f) := by
  induction chunks generalizing i with
  | nil =>
    rw [List.modify_nil]
    exact .nil
  | cons chunk chunks ih =>
    cases i with
    | zero => exact .cons (hf chunk) (forall₂_rewrites_refl chunks)
    | succ i => exact .cons (.refl chunk) (ih i)

namespace Chunks

/-- **Clearing** rewrites the chunks. -/
theorem rewrites_clear (size : Nat) (chunks : List Loan) (offset count : Nat) :
    List.Forall₂ Loan.Rewrites chunks (clear size chunks offset count) := by
  induction chunks generalizing offset count with
  | nil => exact .nil
  | cons chunk chunks ih =>
    unfold clear
    split
    · exact Loan.forall₂_rewrites_refl _
    · split
      · exact .cons (.refl chunk) (ih _ _)
      · exact .cons (chunk.rewrites_fill _ _ _) (ih _ _)

/-- So does writing. -/
theorem rewrites_write (size : Nat) (chunks : List Loan) (offset : Nat) (row : List UInt8) :
    List.Forall₂ Loan.Rewrites chunks (write size chunks offset row) := by
  induction chunks generalizing offset row with
  | nil => exact .nil
  | cons chunk chunks ih =>
    unfold write
    split
    · exact Loan.forall₂_rewrites_refl _
    · split
      · exact .cons (.refl chunk) (ih _ _)
      · exact .cons (chunk.rewrites_write _ _) (ih _ _)

end Chunks

namespace Arena

variable {a : Arena} {s : Store} {loans : Multiset Loan} {tickets : Multiset Ticket}
  {license : License}

/-- **Pages pass** between an arena and a pool. -/
def Passes (a : Arena) (s : Store) (number : Nat) (license : License) (loans : Multiset Loan)
    (t : Arena × Store) : Prop :=
  s.Passes number license (↑a.chunks + loans) t.2 (↑t.1.chunks + loans)

/-- **Writing through a slice** writes to pages of the arena. -/
theorem Passes.modifyChunk {b : Arena} {t : Store} (h : a.Passes s number license loans (b, t))
    (hsound : t.Sound (↑b.chunks + loans) tickets) (slice : Slice) {f : Loan → Loan}
    (hf : ∀ loan : Loan, loan.Rewrites (f loan))
    (hwrites : ∀ page, NotHeld number loans page → license.writes page) :
    a.Passes s number license loans (b.modifyChunk slice f, t) :=
  Store.Passes.trans h (hsound.passes_rewrites (Loan.rewrites_modify hf b.chunks slice.chunk)
    hwrites)

/-- **A chunk that is borrowed** passes to the arena. -/
theorem passes_borrow (h : s.Sound (↑a.chunks + loans) tickets) (number : Nat)
    (hhome : a.home < s.pools.length)
    (len : Nat) (zero : Bool) (hlends : license.lends = true) :
    Ends (onStore (Store.borrow a.home len zero) (a, s))
      (fun chunk t => (t.2.Sound (↑(a.chunks ++ [chunk]) + loans) tickets ∧ t.1 = a) ∧
        s.Passes number license (↑a.chunks + loans) t.2 (↑(a.chunks ++ [chunk]) + loans))
      fun _ => a.Passes s number license loans := by
  refine ((ends_borrow h hhome len zero).and (ends_onStore
    (h.passes_borrow number hhome len zero hlends))).mono (fun chunk t ht => ?_)
    fun abort t ht => ?_
  · obtain ⟨⟨hleads, hsame⟩, hpasses, -⟩ := ht
    refine ⟨⟨hleads.1, hsame⟩, ?_⟩
    rw [← Multiset.coe_add, Multiset.coe_singleton, add_comm (↑a.chunks : Multiset Loan) {chunk},
      Multiset.singleton_add, Multiset.cons_add]
    exact hpasses
  · obtain ⟨b, u⟩ := t
    obtain ⟨-, hpasses, rfl⟩ := ht
    exact hpasses

/-- Cutting a slice off writes to its chunk if zeros are asked for. -/
theorem passes_cutOff {b : Arena} {t : Store} (h : a.Passes s number license loans (b, t))
    (hsound : t.Sound (↑b.chunks + loans) tickets) (len : Nat) (zero : Bool)
    (hwrites : zero = true → ∀ page, NotHeld number loans page → license.writes page) :
    Ends (get.cutOff len zero (b, t)) (fun _ => a.Passes s number license loans)
      fun _ => a.Passes s number license loans := by
  cases zero with
  | false => exact h
  | true =>
    exact Passes.modifyChunk (b := (b.cut len).2) h hsound (b.cut len).1
      (fun loan => loan.rewrites_fill _ _ _) (hwrites rfl)

/-- **Asking for a slice** lends at most one page, and writes just if zeros are asked for. -/
theorem passes_get (h : s.Sound (↑a.chunks + loans) tickets) (number : Nat)
    (hhome : a.home < s.pools.length)
    (len : Nat) (zero : Bool) (hlends : license.lends = true)
    (hwrites : zero = true → ∀ page, NotHeld number loans page → license.writes page) :
    Ends (get len zero (a, s)) (fun _ => a.Passes s number license loans)
      fun _ => a.Passes s number license loans := by
  have hstart : a.Passes s number license loans (a, s) := .refl s _
  unfold get
  refine Ends.bind ((ends_count len).mono (fun _ _ ht => ht) fun abort t ht => ?_) fun _ t ht => ?_
  · rw [ht.1]
    exact hstart
  subst ht
  let counted : Arena := { a with length := a.length + len }
  have hnow : Ends (now (counted, s)) (fun b t => b = counted ∧ t = (counted, s))
      fun _ => a.Passes s number license loans := ⟨rfl, rfl⟩
  refine hnow.bind fun b t ht => ?_
  obtain ⟨rfl, rfl⟩ := ht
  cases counted.plan len with
  | nothing => exact hstart
  | dedicated =>
    refine Ends.bind (passes_borrow (a := counted) h number hhome len zero hlends)
      fun chunk t ht => ?_
    obtain ⟨b, u⟩ := t
    obtain ⟨⟨-, rfl⟩, hpasses⟩ := ht
    exact hpasses
  | opening =>
    refine Ends.bind (passes_borrow (a := counted) h number hhome a.size false hlends)
      fun chunk t ht => ?_
    obtain ⟨b, u⟩ := t
    obtain ⟨⟨hsound, rfl⟩, hpasses⟩ := ht
    exact passes_cutOff (b := counted.openFragment chunk) hpasses hsound len zero hwrites
  | current => exact passes_cutOff (b := counted) hstart h len zero hwrites

/-- **Copying bytes into a slice** writes them to it. -/
theorem passes_copy (h : s.Sound (↑a.chunks + loans) tickets) (number : Nat)
    (hhome : a.home < s.pools.length)
    (row : List UInt8) (hlends : license.lends = true)
    (hwrites : ∀ page, NotHeld number loans page → license.writes page) :
    Ends (copy row (a, s)) (fun _ => a.Passes s number license loans)
      fun _ => a.Passes s number license loans := by
  unfold copy
  refine Ends.bind (((ends_get h hhome row.length false).and
    (passes_get h number hhome row.length false hlends nofun)).mono (fun _ _ ht => ht)
    fun _ _ ht => ht.2) fun slice t ht => ?_
  exact ht.2.modifyChunk ht.1.1.1 slice (fun loan => loan.rewrites_write _ _) hwrites

/-- **A row of copies** lends and writes, and does no more. -/
theorem passes_forM_copy (rows : List (List UInt8)) (h : s.Sound (↑a.chunks + loans) tickets)
    (number : Nat) (hhome : a.home < s.pools.length) (hlends : license.lends = true)
    (hwrites : ∀ page, NotHeld number loans page → license.writes page) :
    Ends (rows.forM (fun row => discard (copy row)) (a, s))
      (fun _ => a.Passes s number license loans) fun _ => a.Passes s number license loans := by
  have hstart : a.Passes s number license loans (a, s) := .refl s _
  refine (Ends.forM (fun _ t => a.Leads s loans tickets t ∧ a.Passes s number license loans t)
    (fun row _ t ht => ?_) rows ⟨⟨⟨h, .refl s⟩, rfl⟩, hstart⟩).mono (fun _ _ ht => ht.2)
    fun _ _ ht => ht
  obtain ⟨⟨hleads, hsame⟩, hpasses⟩ := ht
  have hhome' : t.1.home < t.2.pools.length :=
    hsame.symm ▸ Nat.lt_of_lt_of_le hhome hleads.2.length_le
  refine (((ends_copy hleads.1 hhome' row).and
    (passes_copy hleads.1 number hhome' row hlends hwrites)).mono (fun _ u hu => ?_)
    fun _ u hu => Store.Passes.trans hpasses hu.2).map fun _ _ hu => hu
  exact ⟨⟨hleads.trans hu.1.1, hu.1.2.trans hsame⟩, Store.Passes.trans hpasses hu.2⟩

/-- **Giving everything back** is a return of every page. -/
theorem passes_release (h : s.Sound (↑a.chunks + loans) tickets) (number : Nat)
    (hregains : license.regains = true) :
    Ends (a.release s) (fun _ t => s.Passes number license (↑a.chunks + loans) t loans)
      fun _ _ => False :=
  h.passes_forM_release number hregains

/-- So is losing everything. -/
theorem passes_drop (h : s.Sound (↑a.chunks + loans) tickets) (number : Nat)
    (hregains : license.regains = true) :
    Ends (a.drop s) (fun _ t => s.Passes number license (↑a.chunks + loans) t loans)
      fun _ _ => False :=
  h.passes_forM_lose number hregains

/-- **Starting afresh** gives everything back. -/
theorem passes_reset (h : s.Sound (↑a.chunks + loans) tickets) (number : Nat)
    (hregains : license.regains = true) :
    Ends (reset (a, s)) (fun _ => a.Passes s number license loans) fun _ _ => False := by
  show Ends ((onStore a.release >>= fun _ => update fun a => ((), new a.home a.size)) (a, s)) _ _
  refine Ends.bind ((ends_onStore (passes_release h number hregains)).mono (fun _ _ ht => ht)
    fun _ _ ht => ht.1.elim) fun _ t ht => ?_
  show s.Passes number license _ t.2 (↑([] : List Loan) + loans)
  rw [Multiset.coe_nil, zero_add]
  exact ht.1

end Arena

/-- Whether a request writes. -/
def BufferRequest.writes : BufferRequest → Bool
  | write _ _ | writeAt _ _ => true
  | _ => false

namespace Buffer

variable {b : Buffer} {s : Store} {loans : Multiset Loan} {tickets : Multiset Ticket}
  {license : License}

/-- **Pages pass** between a buffer and a pool. -/
def Passes (b : Buffer) (s : Store) (number : Nat) (license : License) (loans : Multiset Loan)
    (t : Buffer × Store) : Prop :=
  s.Passes number license (↑b.chunks + loans) t.2 (↑t.1.chunks + loans)

/-- **Giving everything back** is a return of every page. -/
theorem passes_release (h : s.Sound (↑b.chunks + loans) tickets) (number : Nat)
    (hregains : license.regains = true) :
    Ends (b.release s) (fun _ t => s.Passes number license (↑b.chunks + loans) t loans)
      fun _ _ => False :=
  h.passes_forM_release number hregains

/-- So is losing everything. -/
theorem passes_drop (h : s.Sound (↑b.chunks + loans) tickets) (number : Nat)
    (hregains : license.regains = true) :
    Ends (b.drop s) (fun _ t => s.Passes number license (↑b.chunks + loans) t loans)
      fun _ _ => False :=
  h.passes_forM_lose number hregains

/-- **Several chunks are borrowed**, one after another. -/
theorem passes_mapM_borrow (h : s.Sound loans tickets) (number : Nat) {home : Nat}
    (hhome : home < s.pools.length) (size count : Nat) (hlends : license.lends = true) :
    Ends ((List.replicate count size).mapM (fun size => Store.borrow home size false) s)
      (fun chunks t => s.Passes number license loans t (↑chunks + loans))
      fun _ t => s.Passes number license loans t loans := by
  induction count generalizing s loans with
  | zero =>
    show s.Passes number license loans s (↑([] : List Loan) + loans)
    rw [Multiset.coe_nil, zero_add]
    exact .refl s loans
  | succ count ih =>
    rw [List.replicate_succ, List.mapM_cons]
    refine Ends.bind (((h.borrow hhome size false).and
      (h.passes_borrow number hhome size false hlends)).mono (fun _ _ ht => ht) fun _ _ ht => ht.2)
      fun chunk t ht => ?_
    obtain ⟨⟨hleads, -, hlt⟩, hfirst⟩ := ht
    have hhome' : home < t.pools.length := Nat.lt_of_lt_of_le hhome hleads.2.length_le
    -- a chunk could be had, so the others can be had as well
    refine Ends.bind (((ends_mapM_borrow hleads.1 hhome' size count).and
      (ih hleads.1 hhome')).mono (fun _ _ hu => hu.2) fun _ u hu => ?_) fun chunks u hu => ?_
    · exact absurd hlt (Nat.not_lt_of_le hu.1.2.2)
    · show s.Passes number license loans u (↑(chunk :: chunks) + loans)
      rw [← Multiset.cons_coe, Multiset.cons_add, ← Multiset.add_cons]
      exact hfirst.trans hu

/-- **New chunks** pass to the buffer. -/
theorem passes_addChunks (h : s.Sound (↑b.chunks + loans) tickets) (number : Nat)
    (hhome : b.home < s.pools.length) (count : Nat) (hlends : license.lends = true) :
    Ends (addChunks count (b, s)) (fun _ => b.Passes s number license loans)
      fun _ => b.Passes s number license loans := by
  show Ends ((onStore ((List.replicate count b.chunkSize).mapM fun size =>
    Store.borrow b.home size false) >>= fun chunks =>
      update fun b => ((), { b with chunks := b.chunks ++ chunks })) (b, s)) _ _
  refine Ends.bind ((ends_onStore (passes_mapM_borrow h number hhome b.chunkSize count hlends)).mono
    (fun _ _ ht => ht) fun abort t ht => ?_) fun chunks t ht => ?_
  · obtain ⟨c, u⟩ := t
    obtain ⟨hpasses, rfl⟩ := ht
    exact hpasses
  · obtain ⟨c, u⟩ := t
    obtain ⟨hpasses, rfl⟩ := ht
    show s.Passes number license (↑c.chunks + loans) u (↑(c.chunks ++ chunks) + loans)
    rw [← Multiset.coe_add, add_comm (↑c.chunks : Multiset Loan) ↑chunks, add_assoc]
    exact hpasses

/-- Making room lends and does no more. -/
theorem passes_grow (h : s.Sound (↑b.chunks + loans) tickets) (number : Nat)
    (hhome : b.home < s.pools.length)
    (length : Nat) (hlends : license.lends = true) :
    Ends (grow length (b, s)) (fun _ => b.Passes s number license loans)
      fun _ => b.Passes s number license loans := by
  show Ends ((if b.length < length then
    addChunks (b.chunksFor length - b.chunks.length) >>= fun _ =>
      update fun b => ((), { b with length })
    else pure ()) (b, s)) _ _
  by_cases hlength : b.length < length
  · rw [if_pos hlength]
    exact Ends.bind (passes_addChunks h number hhome _ hlends) fun _ t ht => ht
  · rw [if_neg hlength]
    exact .refl s _

/-- **A write at a position** lends the pages that are missing and writes to what the buffer
holds then. -/
theorem passes_writeAt (h : s.Sound (↑b.chunks + loans) tickets) (number : Nat)
    (hhome : b.home < s.pools.length) (row : List UInt8) (offset : Nat)
    (hlends : license.lends = true)
    (hwrites : ∀ page, NotHeld number loans page → license.writes page) :
    Ends (writeAt row offset (b, s)) (fun _ => b.Passes s number license loans)
      fun _ => b.Passes s number license loans := by
  unfold writeAt
  dsimp only
  by_cases hlimit : wordLimit ≤ offset + row.length
  · rw [if_pos hlimit]
    exact .refl s _
  · rw [if_neg hlimit]
    let fill (c : Buffer) : Buffer :=
      { c with
        chunks := Chunks.write c.chunkSize
          (Chunks.clear c.chunkSize c.chunks b.length (offset - b.length)) offset row }
    show Ends ((do
      grow (offset + row.length)
      update fun c => ((), fill c)
      return .ok row.length : HolderM Buffer (Except Fault Nat)) (b, s)) _ _
    refine Ends.bind (((ends_grow h hhome (offset + row.length)).and
      (passes_grow h number hhome (offset + row.length) hlends)).mono (fun _ _ ht => ht)
      fun _ _ ht => ht.2) fun _ t ht => ?_
    obtain ⟨⟨added, -, -, -, hleads⟩, hpasses⟩ := ht
    -- the gap is cleared first, and then the row is written
    exact hpasses.trans (hleads.1.passes_rewrites (Loan.forall₂_rewrites_trans
      (Chunks.rewrites_clear _ _ _ _) (Chunks.rewrites_write _ _ _ _)) hwrites)

/-- So does a write at the cursor. -/
theorem passes_write (h : s.Sound (↑b.chunks + loans) tickets) (number : Nat)
    (hhome : b.home < s.pools.length)
    (row : List UInt8) (hlends : license.lends = true)
    (hwrites : ∀ page, NotHeld number loans page → license.writes page) :
    Ends (write row (b, s)) (fun _ => b.Passes s number license loans)
      fun _ => b.Passes s number license loans := by
  show Ends ((writeAt row b.offset >>= _) (b, s)) _ _
  refine Ends.bind (passes_writeAt h number hhome row b.offset hlends hwrites) fun result t ht => ?_
  cases result with
  | ok count => exact ht
  | error fault => exact ht

/-- **A request to a buffer** lends and writes, or it leaves all pages alone. -/
theorem passes_request (h : s.Sound (↑b.chunks + loans) tickets) (number : Nat)
    (hhome : b.home < s.pools.length) (request : BufferRequest)
    (hlends : request.writes = true → license.lends = true)
    (hwrites : request.writes = true → ∀ page, NotHeld number loans page → license.writes page) :
    Ends (request.run (b, s)) (fun _ => b.Passes s number license loans)
      fun _ => b.Passes s number license loans := by
  -- what only looks at the buffer or moves the cursor leaves its chunks
  have hlook {c : Buffer} {offset : Nat} (heq : c = { b with offset }) :
      b.Passes s number license loans (c, s) := by
    rw [heq]
    exact .refl s _
  cases request with
  | write row stream =>
    exact (passes_write h number hhome row (hlends rfl) (hwrites rfl)).map fun _ _ ht => ht
  | writeAt row offset =>
    exact (passes_writeAt h number hhome row offset (hlends rfl) (hwrites rfl)).map fun _ _ ht => ht
  | read limit stream =>
    cases stream with
    | false => exact hlook (b.read_eq _)
    | true => exact hlook ((b.streamRead_snd _).trans (b.read_eq _))
  | readAt limit offset => exact .refl s _
  | readAll => exact hlook (b.streamReadAll_snd.trans (b.read_eq _))
  | seek origin delta stream => exact hlook (b.seek_eq origin delta)
  | flush => exact .refl s _
  | range offset count => exact .refl s _

end Buffer

namespace Script

variable {s : Store} {loans : Multiset Loan} {tickets : Multiset Ticket} {license : License}

/-- **Encoding into memory of its own** writes to the page it was lent, and returns it if the
message cannot be written. -/
theorem passes_encode (h : s.Sound loans tickets) (number : Nat) {home : Option Nat}
    (hhome : ∀ number ∈ home, number < s.pools.length) (script : Script) (order : ByteOrder)
    (hlends : license.lends = true) (hregains : license.regains = true)
    (hwrites : ∀ page, NotHeld number loans page → license.writes page) :
    Ends (script.encode order home s)
      (fun encoded t =>
        s.Passes number license loans t (↑encoded.result.toOption.toList + loans))
      fun _ t => s.Passes number license loans t loans := by
  unfold encode
  dsimp only
  cases (script.measure order).length with
  | error failure =>
    show s.Passes number license loans s (↑([] : List Loan) + loans)
    rw [Multiset.coe_nil, zero_add]
    exact .refl s loans
  | ok length =>
    dsimp only
    refine Ends.bind (((h.obtain hhome length).and
      (h.passes_obtain number hhome length hlends)).mono (fun _ _ ht => ht) fun _ _ ht => ht.2)
      fun memory t ht => ?_
    obtain ⟨⟨⟨hsound, -⟩, -⟩, hpasses⟩ := ht
    let message := memory.write 0 (script.fill order memory.view).destination
    have hwritten : s.Passes number license loans t (message ::ₘ loans) :=
      hpasses.trans (Store.passes_rewrite (memory.rewrites_write 0 _)
        (fun lease hlease => hwrites _ (hsound.notHeld hlease)) loans)
    have hmessage : t.Sound (message ::ₘ loans) tickets := by
      refine hsound.of_terms_eq ?_
      rw [Multiset.map_cons, Multiset.map_cons, Loan.terms_write]
    cases (script.fill order memory.view).outcome with
    | ok =>
      show s.Passes number license loans t (↑[message] + loans)
      rw [Multiset.coe_singleton, Multiset.singleton_add]
      exact hwritten
    | error failure =>
      -- telling the event is nothing to the pools
      have htold : s.Passes number license loans (t.tell (.abandoned length)) (message ::ₘ loans) :=
        hwritten.trans (.of_eq (by rw [Store.pool, Store.pools_tell, Store.pool]) rfl)
      show Ends ((Store.release _ >>= fun _ => pure _) (t.tell (.abandoned length))) _ _
      refine Ends.bind (((Store.Leads.tell hmessage _).1.passes_release number hregains).mono
        (fun _ _ hu => hu) fun _ _ hf => hf.elim) fun _ u hu => ?_
      show s.Passes number license loans u (↑([] : List Loan) + loans)
      rw [Multiset.coe_nil, zero_add]
      exact htold.trans hu

/-- **Encoding into a slice** writes to it. -/
theorem passes_encodeInArena {a : Arena} (h : s.Sound (↑a.chunks + loans) tickets) (number : Nat)
    (hhome : a.home < s.pools.length) (script : Script) (order : ByteOrder)
    (hlends : license.lends = true)
    (hwrites : ∀ page, NotHeld number loans page → license.writes page) :
    Ends (script.encodeInArena order (a, s)) (fun _ => a.Passes s number license loans)
      fun _ => a.Passes s number license loans := by
  unfold encodeInArena
  dsimp only
  cases (script.measure order).length with
  | error failure => exact Store.Passes.refl s _
  | ok length =>
    dsimp only
    refine Ends.bind (((Arena.ends_get h hhome length false).and
      (Arena.passes_get h number hhome length false hlends nofun)).mono (fun _ _ ht => ht)
      fun _ _ ht => ht.2) fun slice t ht => ?_
    exact ht.2.modifyChunk ht.1.1.1 slice (fun loan => loan.rewrites_write _ _) hwrites

end Script

end Wirepool
