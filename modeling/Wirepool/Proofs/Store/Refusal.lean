import Wirepool.Proofs.Arena.Beside
import Wirepool.Proofs.Arena.Tidy

/-!
# What a refused request leaves

A request for more memory than addresses can span is refused, and the refusal comes in the
middle of whatever asked for the memory: when the pool has counted the request, when the
arena has charged it, before any chunk is there and before anything is written. So very
little is left of it: one more in the pool's count of requests that it left to the system,
and the length in the arena's charge.

A request for chunks of one size is refused at its first chunk or not at all. A row of
copies is refused at the first row that is not empty or not at all, since once a slice
could be had from an arena its fragments are no longer than the system grants.
-/

namespace Wirepool

/-! ## Actions that are never refused -/

section NeverRefused

variable {σ α β : Type}

/-- **An action that never aborts for want of memory.** -/
def NeverRefused (action : EStateM Abort σ α) : Prop :=
  ∀ s, Ends (action s) (fun _ _ => True) fun abort _ => abort ≠ .capacityOverflow

namespace NeverRefused

theorem pure (a : α) : NeverRefused (Pure.pure a : EStateM Abort σ α) := fun _ => trivial

theorem bind {x : EStateM Abort σ α} {f : α → EStateM Abort σ β} (hx : NeverRefused x)
    (hf : ∀ a, NeverRefused (f a)) : NeverRefused (x >>= f) :=
  fun s => (hx s).bind fun a t _ => hf a t

theorem forM {f : α → EStateM Abort σ PUnit} (hf : ∀ a, NeverRefused (f a)) (as : List α) :
    NeverRefused (as.forM f) := fun _ =>
  Ends.forM (fun _ _ => True) (fun a _ t _ => hf a t) as (show True from trivial)

theorem mapM {f : α → EStateM Abort σ β} {as : List α} (hf : ∀ a ∈ as, NeverRefused (f a)) :
    NeverRefused (as.mapM f) := by
  induction as with
  | nil =>
    rw [List.mapM_nil]
    exact .pure []
  | cons a as ih =>
    rw [List.mapM_cons]
    exact (hf a List.mem_cons_self).bind fun _ =>
      (ih fun b hb => hf b (List.mem_cons_of_mem a hb)).bind fun _ => .pure _

theorem onStore {ω : Type} {action : StoreM α} (h : NeverRefused action) :
    NeverRefused (HolderM.onStore action : HolderM ω α) := fun s =>
  (HolderM.ends_onStore (h s.2)).mono (fun _ _ _ => trivial) fun _ _ ht => ht.1

theorem update {ω : Type} (f : ω → α × ω) : NeverRefused (HolderM.update f) := fun _ => trivial

end NeverRefused

/-- What depends on a holder as it is now ends as it does for this holder. -/
theorem HolderM.ends_now {ω : Type} {f : ω → HolderM ω α} {u : ω × Store}
    {good : α → ω × Store → Prop} {bad : Abort → ω × Store → Prop} (h : Ends (f u.1 u) good bad) :
    Ends ((now >>= f) u) good bad := h

/-- What is said of the state only is said whether the answer is kept or not. -/
theorem Ends.discard {x : EStateM Abort σ α} {s : σ} {good : σ → Prop} {bad : Abort → σ → Prop}
    (h : Ends (x s) (fun _ => good) bad) : Ends (discard x s) (fun _ => good) bad :=
  h.map fun _ _ ht => ht

end NeverRefused

namespace Pool

/-- **All but borrowing aborts for one reason only**: something is handed in that is not
out. -/
def OnlyMismatch {α : Type} (transaction : Pool → Transaction α) : Prop :=
  ∀ p abort, (transaction p).result = .error abort → abort = .generationMismatch

theorem onlyMismatch_reclaim (lease : Lease) : OnlyMismatch fun p => p.reclaim lease := by
  intro p abort h
  change (p.reclaim lease).result = .error abort at h
  unfold reclaim at h
  split at h <;> cases h
  rfl

theorem onlyMismatch_lose (lease : Lease) : OnlyMismatch fun p => p.lose lease :=
  fun p => onlyMismatch_reclaim lease { p with leaked := p.leaked + 1 }

theorem onlyMismatch_discardTicket (slot : Nat) : OnlyMismatch fun p => p.discardTicket slot := by
  intro p abort h
  unfold discardTicket retire at h
  dsimp only at h
  split at h
  · split at h
    · cases h
    · split at h <;> cases h
  · cases h

theorem onlyMismatch_redeem (slot generation : Nat) :
    OnlyMismatch fun p => p.redeem slot generation := by
  intro p abort h
  change (p.unpark slot generation).result = .error abort at h
  unfold unpark at h
  split at h
  · dsimp only at h
    split at h <;> cases h
    rfl
  · cases h
    rfl

/-- Borrowing a page can fail for that reason too, if a page on a shelf is taken to be out. -/
theorem eq_mismatch_of_borrow {p : Pool} {home len : Nat} {zero traced : Bool} {c : SizeClass}
    (hclass : SizeClass.ofLength? len = some c) {abort : Abort}
    (h : (p.borrow home len zero traced).result = .error abort) : abort = .generationMismatch := by
  have hacquire : ∃ shelved, (p.acquire c).result = .ok shelved := by
    unfold acquire
    dsimp only
    split <;> exact ⟨_, rfl⟩
  obtain ⟨shelved, hshelved⟩ := hacquire
  unfold borrow at h
  rw [hclass] at h
  dsimp only at h
  rw [hshelved] at h
  change ((p.acquire c).pool.lend home shelved len zero traced).result = .error abort at h
  unfold lend at h
  dsimp only at h
  split at h <;> cases h
  rfl

end Pool

namespace Store

open Pool

theorem neverRefused_onPool {α : Type} {transaction : Pool → Transaction α}
    (h : OnlyMismatch transaction) (number : Nat) : NeverRefused (onPool number transaction) := by
  intro s
  unfold onPool
  dsimp only
  split
  · trivial
  · next abort hresult =>
    rw [h _ _ hresult]
    exact nofun

theorem neverRefused_release (loan : Loan) : NeverRefused (release loan) := by
  cases loan with
  | unpooled block => exact .pure _
  | pooled lease =>
    show NeverRefused (onPool lease.home fun p => p.reclaim lease)
    exact neverRefused_onPool (onlyMismatch_reclaim lease) _

theorem neverRefused_lose (loan : Loan) : NeverRefused (lose loan) := by
  cases loan with
  | unpooled block => exact .pure _
  | pooled lease =>
    show NeverRefused (onPool lease.home fun p => p.lose lease)
    exact neverRefused_onPool (onlyMismatch_lose lease) _

theorem neverRefused_detach (loan : Loan) : NeverRefused (detach loan) := by
  cases loan with
  | unpooled block => exact .pure _
  | pooled lease => exact (neverRefused_onPool (fun _ _ h => by cases h) _).bind fun _ => .pure _

theorem neverRefused_copyTicket (ticket : Ticket) : NeverRefused (copyTicket ticket) := by
  cases ticket with
  | idle => exact .pure _
  | page home slot generation =>
    exact (neverRefused_onPool (fun _ _ h => by cases h) _).bind fun _ => .pure _

theorem neverRefused_redeem (ticket : Ticket) : NeverRefused (redeem ticket) := by
  cases ticket with
  | idle => exact .pure _
  | page home slot generation =>
    show NeverRefused (onPool home fun p => p.redeem slot generation)
    exact neverRefused_onPool (onlyMismatch_redeem slot generation) _

theorem neverRefused_discardTicket (ticket : Ticket) : NeverRefused (discardTicket ticket) := by
  cases ticket with
  | idle => exact .pure _
  | page home slot generation =>
    show NeverRefused (onPool home fun p => p.discardTicket slot)
    exact neverRefused_onPool (onlyMismatch_discardTicket slot) _

/-! ## What a store is left with -/

/-- **The store after a request that was refused**: the pool that was asked, if one was, has
counted it and told. -/
def bypassing (s : Store) : Option (Nat × Nat) → Store
  | none => s
  | some (number, len) => s.commit number ((s.pool number).ahead 1) [.bypassed len]

end Store

section Leaves

variable {σ α β : Type} {x : EStateM Abort σ α} {s left : σ} {len : Nat}

/-- **A request is refused only if addresses cannot span it**, and then the state is left as
given. -/
def Leaves (result : EStateM.Result Abort σ α) (len : Nat) (left : σ) : Prop :=
  Ends result (fun _ _ => True) fun abort t =>
    abort = .capacityOverflow → addressLimit ≤ len ∧ t = left

/-- **A request is granted only if addresses can span it**, and refused only if they cannot. -/
def GrantedOrLeft (result : EStateM.Result Abort σ α) (len : Nat) (left : σ) : Prop :=
  Ends result (fun _ _ => len < addressLimit) fun abort t =>
    abort = .capacityOverflow → addressLimit ≤ len ∧ t = left

theorem GrantedOrLeft.leaves {result : EStateM.Result Abort σ α}
    (h : GrantedOrLeft result len left) : Leaves result len left :=
  h.mono (fun _ _ _ => trivial) fun _ _ ht => ht

/-- Whatever is never refused can follow. -/
theorem Leaves.bind (h : Leaves (x s) len left) {f : α → EStateM Abort σ β}
    (hf : ∀ a, NeverRefused (f a)) : Leaves ((x >>= f) s) len left :=
  Ends.bind h fun a t _ =>
    (hf a t).mono (fun _ _ _ => trivial) fun _ _ hne heq => absurd heq hne

end Leaves

namespace Store

/-- **Borrowing.** -/
theorem grantedOrLeft_borrow (number len : Nat) (zero : Bool) (s : Store) :
    GrantedOrLeft (borrow number len zero s) len (s.bypassing (some (number, len))) := by
  cases hclass : SizeClass.ofLength? len with
  | none =>
    by_cases hlen : len < addressLimit
    · rw [borrow_bypassed hclass hlen]
      exact hlen
    · rw [borrow_refused hclass hlen]
      exact fun _ => ⟨Nat.le_of_not_lt hlen, rfl⟩
  | some c =>
    -- a page of a class is within the limit, and a class is never out of pages
    have hlt : len < addressLimit :=
      Nat.lt_of_le_of_lt (SizeClass.le_capacity_of_ofLength? hclass) c.capacity_lt_addressLimit
    show Ends (onPool number (fun p => p.borrow number len zero (s.tracking || s.tracing)) s) _ _
    unfold onPool
    dsimp only
    split
    · exact hlt
    · next abort habort =>
      rw [Pool.eq_mismatch_of_borrow hclass habort]
      rintro ⟨⟩

/-- Borrowing for given parts. -/
theorem leaves_concat (number : Nat) (parts : List (List UInt8)) (s : Store) :
    Leaves (concat number parts s) parts.flatten.length
      (s.bypassing (some (number, parts.flatten.length))) :=
  (grantedOrLeft_borrow number _ false s).leaves.bind fun _ => .pure _

/-- **Memory for a message.** -/
theorem leaves_obtain (home : Option Nat) (len : Nat) (s : Store) :
    Leaves (obtain home len s) len (s.bypassing (home.map (·, len))) := by
  cases home with
  | some number => exact (grantedOrLeft_borrow number len false s).leaves
  | none =>
    by_cases hlen : len < addressLimit
    · rw [obtain_granted hlen]
      trivial
    · rw [obtain_refused hlen]
      exact fun _ => ⟨Nat.le_of_not_lt hlen, rfl⟩

/-- What addresses can span is never refused. -/
theorem neverRefused_borrow (number : Nat) {len : Nat} (hlen : len < addressLimit) (zero : Bool) :
    NeverRefused (borrow number len zero) := fun s =>
  (grantedOrLeft_borrow number len zero s).mono (fun _ _ _ => trivial) fun _ _ hleft heq =>
    Nat.not_le_of_lt hlen (hleft heq).1

/-- **Several chunks of one size** are refused at the first one, or not at all. -/
theorem leaves_mapM_borrow (number size count : Nat) (s : Store) :
    Leaves ((List.replicate count size).mapM (fun size => borrow number size false) s) size
      (s.bypassing (some (number, size))) := by
  cases count with
  | zero =>
    rw [List.replicate_zero, List.mapM_nil]
    trivial
  | succ count =>
    rw [List.replicate_succ, List.mapM_cons]
    refine Ends.bind (grantedOrLeft_borrow number size false s) fun chunk t hlen => ?_
    -- the first chunk could be had, so the others can be had as well
    have hothers : NeverRefused
        ((List.replicate count size).mapM fun size => borrow number size false) :=
      .mapM fun other hother => by
        rw [List.eq_of_mem_replicate hother]
        exact neverRefused_borrow number hlen false
    exact ((hothers.bind fun chunks => .pure (chunk :: chunks)) t).mono (fun _ _ _ => trivial)
      fun _ _ hne heq => absurd heq hne

end Store

/-- **Encoding into memory of its own** is refused when the message is measured. -/
theorem Script.ends_encode_refused (script : Script) (order : ByteOrder) (home : Option Nat)
    (s : Store) :
    Ends (script.encode order home s) (fun _ _ => True) fun abort t => abort = .capacityOverflow →
      ∃ length, (script.measure order).length = .ok length ∧ addressLimit ≤ length ∧
        t = s.bypassing (home.map (·, length)) := by
  unfold encode
  dsimp only
  cases (script.measure order).length with
  | error failure => trivial
  | ok length =>
    refine Ends.mono (Leaves.bind (Store.leaves_obtain home length s) fun memory => ?_)
      (fun _ _ _ => trivial) fun _ _ ht heq => ⟨length, rfl, ht heq⟩
    cases (script.fill order memory.view).outcome with
    | ok => exact .pure _
    | error failure =>
      exact NeverRefused.bind (fun _ => trivial) fun _ =>
        (Store.neverRefused_release _).bind fun _ => .pure _

/-! ## Arenas -/

/-- Nothing is changed where nothing is written. -/
theorem Block.write_zero_nil (b : Block) : b.write 0 [] = b := by
  obtain ⟨size, front, hfront⟩ := b
  simp only [write, withFront, List.take_zero, Nat.zero_sub, List.replicate_zero, List.nil_append,
    List.length_nil, Nat.add_zero, List.drop_zero, List.take_of_length_le hfront]

theorem Loan.write_zero_nil (loan : Loan) : loan.write 0 [] = loan := by
  unfold write
  simp only [List.take_nil, Block.write_zero_nil]
  cases loan <;> rfl

namespace Arena

open HolderM

variable (a : Arena) (s : Store)

/-- What an arena and its store are left with when a request of some length is refused. -/
def charged (len : Nat) : Arena × Store :=
  (a.longer len, s.bypassing (some (a.home, max len a.size)))

/-- **A request to an arena is refused** for want of memory: it was counted, and then the arena
could not have a chunk that holds it. -/
structure IsRefused (len : Nat) (t : Arena × Store) : Prop where
  length_lt : a.length + len < wordLimit
  too_long : addressLimit ≤ max len a.size
  charged_eq : t = a.charged s len

variable {a s}

/-- A request that gets a chunk of its own is longer than a fragment. -/
theorem size_lt_of_plan_eq_dedicated {len : Nat} (h : a.plan len = .dedicated) :
    a.size < len := by
  unfold plan at h
  split at h
  · cases h
  · split at h
    · next hsize => exact hsize
    · split at h <;> cases h

/-- **Asking for a slice.** If one can be had that did not fit into what was left, the system
grants fragments. -/
theorem ends_get_refused (len : Nat) (zero : Bool) :
    Ends (get len zero (a, s))
      (fun _ t => t.1.size = a.size ∧ (len = 0 ∨ len ≤ a.left ∨ a.size < addressLimit))
      fun abort t => abort = .capacityOverflow → a.IsRefused s len t := by
  have hcount : Ends (count len (a, s))
      (fun _ t => t = (a.longer len, s) ∧ a.length + len < wordLimit)
      fun abort t => abort = .capacityOverflow → a.IsRefused s len t := by
    rw [count_eq]
    split
    · exact nofun
    · next hroom => exact ⟨rfl, Nat.lt_of_not_le hroom⟩
  refine hcount.bind fun _ t ht => ?_
  obtain ⟨rfl, hroom⟩ := ht
  -- what is borrowed is as long as a fragment or longer
  have hborrow (size : Nat) (zero : Bool) (hmax : size = max len a.size) :
      Ends (onStore (Store.borrow a.home size zero) (a.longer len, s))
        (fun _ t => t.1 = a.longer len ∧ size < addressLimit)
        fun abort t => abort = .capacityOverflow → a.IsRefused s len t := by
    refine (ends_onStore (Store.grantedOrLeft_borrow a.home size zero s)).mono
      (fun _ t ht => ⟨ht.2, ht.1⟩) fun abort t ht heq => ?_
    obtain ⟨hlong, hleft⟩ := ht.1 heq
    subst hmax
    exact ⟨hroom, hlong, Prod.ext ht.2 hleft⟩
  have hcut (b : Arena) (t : Store) (hsize : b.size = a.size)
      (hgood : len = 0 ∨ len ≤ a.left ∨ a.size < addressLimit) :
      Ends (get.cutOff len zero (b, t))
        (fun _ t => t.1.size = a.size ∧ (len = 0 ∨ len ≤ a.left ∨ a.size < addressLimit))
        fun abort t => abort = .capacityOverflow → a.IsRefused s len t := by
    refine ⟨?_, hgood⟩
    cases zero <;> exact hsize
  refine ends_now ?_
  dsimp only
  cases hserved : (a.longer len).plan len with
  | nothing => exact ⟨rfl, .inl (eq_zero_of_plan_eq_nothing hserved)⟩
  | dedicated =>
    have hsize : a.size < len := size_lt_of_plan_eq_dedicated hserved
    refine (hborrow len zero (by omega)).bind fun chunk t ht => ?_
    obtain ⟨b, t⟩ := t
    obtain ⟨rfl, hlen⟩ := ht
    exact ⟨rfl, .inr (.inr (Nat.lt_trans hsize hlen))⟩
  | opening =>
    have hsize : len ≤ a.size := le_size_of_plan_eq_opening hserved
    refine (hborrow a.size false (by omega)).bind fun chunk t ht => ?_
    obtain ⟨b, t⟩ := t
    obtain ⟨rfl, hlen⟩ := ht
    exact hcut _ t rfl (.inr (.inr hlen))
  | current => exact hcut _ s rfl (.inr (.inl (le_left_of_plan_eq_current hserved)))

/-- **Copying bytes into a slice.** -/
theorem ends_copy_refused (row : List UInt8) :
    Ends (copy row (a, s))
      (fun _ t => t.1.size = a.size ∧
        (row.length = 0 ∨ row.length ≤ a.left ∨ a.size < addressLimit))
      fun abort t => abort = .capacityOverflow → a.IsRefused s row.length t := by
  unfold copy
  exact (ends_get_refused row.length false).bind fun _ _ ht => ht

/-- Giving everything back is never refused. -/
theorem neverRefused_release (a : Arena) : NeverRefused a.release :=
  .forM Store.neverRefused_release a.chunks

theorem neverRefused_drop (a : Arena) : NeverRefused a.drop :=
  .forM Store.neverRefused_lose a.chunks

/-- Starting afresh is never refused. -/
theorem neverRefused_reset : NeverRefused reset := fun t =>
  ((neverRefused_release t.1).onStore.bind fun _ => .update _) t

/-! ### Rows of copies -/

/-- Nothing is changed by a copy of nothing. -/
theorem ends_copy_nil :
    Ends (copy [] (a, s)) (fun _ t => t = (a, s)) fun abort _ => abort ≠ .capacityOverflow := by
  have hwrite : a.write ⟨0, 0, 0⟩ [] = a := by
    have hchunk : (fun chunk : Loan => chunk.write 0 ([].take 0)) = id := by
      funext chunk
      rw [List.take_nil, Loan.write_zero_nil]
      rfl
    show { a with chunks := a.chunks.modify 0 fun chunk => chunk.write 0 ([].take 0) } = a
    rw [hchunk, List.modify_id]
  have hcount : Ends (count 0 (a, s)) (fun _ t => t = (a, s))
      fun abort _ => abort ≠ .capacityOverflow := by
    rw [count_eq]
    split
    · exact nofun
    · rfl
  have hget : Ends (get 0 false (a, s)) (fun slice t => slice = ⟨0, 0, 0⟩ ∧ t = (a, s))
      fun abort _ => abort ≠ .capacityOverflow := by
    unfold get
    refine hcount.bind fun _ t ht => ?_
    subst ht
    exact ⟨rfl, rfl⟩
  unfold copy
  refine hget.bind fun slice t ht => ?_
  obtain ⟨rfl, rfl⟩ := ht
  exact congrArg (·, s) hwrite

/-- **The system grants fragments** wherever something is left of one. -/
def Grants (a : Arena) : Prop := 0 < a.left → a.size < addressLimit

/-- Where the system grants fragments and rows, no copy is refused. -/
theorem ends_copies_granted (hsize : a.size < addressLimit) {rows : List (List UInt8)}
    (hrows : ∀ row ∈ rows, row.length < addressLimit) :
    Ends (rows.forM (fun row => discard (copy row)) (a, s)) (fun _ _ => True)
      fun abort _ => abort ≠ .capacityOverflow := by
  refine (Ends.forM (fun rest t => t.1.size = a.size ∧ ∀ row ∈ rest, row.length < addressLimit)
    (fun row rest t ht => ?_) rows ⟨rfl, hrows⟩).mono (fun _ _ _ => trivial) fun _ _ hne => hne
  obtain ⟨b, t⟩ := t
  obtain ⟨hsame, hrest⟩ := ht
  have hrow := hrest row List.mem_cons_self
  refine Ends.discard ((ends_copy_refused row).mono (fun _ u hu => ?_) fun abort u hu heq => ?_)
  · exact ⟨hu.1.trans hsame, fun other hother => hrest other (List.mem_cons_of_mem row hother)⟩
  · have hlong := (hu heq).too_long
    change b.size = a.size at hsame
    omega

/-- **A row of copies** is refused at the first row that is not empty, or not at all. -/
theorem ends_copies_refused (hgrants : a.Grants) {rows : List (List UInt8)}
    (hrows : ∀ row ∈ rows, row.length < addressLimit) :
    Ends (rows.forM (fun row => discard (copy row)) (a, s)) (fun _ _ => True)
      fun abort t => abort = .capacityOverflow →
        ∃ row, rows.find? (fun row => !row.isEmpty) = some row ∧ a.IsRefused s row.length t := by
  induction rows with
  | nil => trivial
  | cons row rows ih =>
    have hrest (other : List UInt8) (hother : other ∈ rows) : other.length < addressLimit :=
      hrows other (List.mem_cons_of_mem row hother)
    rw [List.forM_eq_forM, List.forM_cons]
    cases row with
    | nil =>
      refine (ends_copy_nil.discard.mono (fun _ _ ht => ht) fun _ _ hne heq =>
        absurd heq hne).bind fun _ t ht => ?_
      subst ht
      exact ih hrest
    | cons byte bytes =>
      refine ((ends_copy_refused (byte :: bytes)).discard.mono (fun _ _ ht => ht) fun _ _ ht heq =>
        ⟨_, rfl, ht heq⟩).bind fun _ t ht => ?_
      obtain ⟨b, t⟩ := t
      obtain ⟨hsame, hgood⟩ := ht
      -- a slice that is not empty could be had, so all others can be had as well
      have hsize : a.size < addressLimit := by
        rcases hgood with hzero | hleft | hsize
        · cases hzero
        · exact hgrants (Nat.lt_of_lt_of_le (Nat.succ_pos _) hleft)
        · exact hsize
      change b.size = a.size at hsame
      exact (ends_copies_granted (hsame ▸ hsize) hrest).mono (fun _ _ _ => trivial)
        fun _ _ hne heq => absurd heq hne

end Arena

/-- **Encoding into a slice** is refused when the message is measured. -/
theorem Script.ends_encodeInArena_refused (script : Script) (order : ByteOrder) (a : Arena)
    (s : Store) :
    Ends (script.encodeInArena order (a, s)) (fun _ _ => True) fun abort t =>
      abort = .capacityOverflow → ∃ length, (script.measure order).length = .ok length ∧
        a.IsRefused s length t := by
  unfold encodeInArena
  dsimp only
  cases (script.measure order).length with
  | error failure => trivial
  | ok length =>
    exact ((Arena.ends_get_refused length false).mono (fun _ _ _ => trivial) fun _ _ ht heq =>
      ⟨length, rfl, ht heq⟩).bind fun _ _ _ => trivial

/-! ## Buffers -/

namespace Buffer

open HolderM

variable (b : Buffer) (s : Store)

/-- Giving everything back is never refused. -/
theorem neverRefused_release : NeverRefused b.release :=
  .forM Store.neverRefused_release b.chunks

theorem neverRefused_drop : NeverRefused b.drop :=
  .forM Store.neverRefused_lose b.chunks

/-- What a buffer and its store are left with. -/
def left : Buffer × Store := (b, s.bypassing (some (b.home, b.chunkSize)))

theorem leaves_addChunks (count : Nat) :
    Leaves (addChunks count (b, s)) b.chunkSize (b.left s) := by
  show Leaves ((onStore ((List.replicate count b.chunkSize).mapM fun size =>
    Store.borrow b.home size false) >>= fun chunks =>
      update fun b => ((), { b with chunks := b.chunks ++ chunks })) (b, s)) _ _
  refine Leaves.bind ?_ fun chunks => .update _
  refine (ends_onStore (Store.leaves_mapM_borrow b.home b.chunkSize count s)).mono
    (fun _ _ _ => trivial) fun _ t ht heq => ?_
  obtain ⟨hlong, hleft⟩ := ht.1 heq
  exact ⟨hlong, Prod.ext ht.2 hleft⟩

theorem leaves_grow (length : Nat) : Leaves (grow length (b, s)) b.chunkSize (b.left s) := by
  show Leaves ((if b.length < length then _ else _ : HolderM Buffer Unit) (b, s)) _ _
  split
  · exact (leaves_addChunks b s _).bind fun _ => .update _
  · trivial

theorem leaves_writeAt (row : List UInt8) (offset : Nat) :
    Leaves (writeAt row offset (b, s)) b.chunkSize (b.left s) := by
  unfold writeAt
  dsimp only
  split
  · trivial
  · exact (leaves_grow b s _).bind fun _ =>
      (NeverRefused.update _).bind fun _ => .pure _

theorem leaves_write (row : List UInt8) :
    Leaves (write row (b, s)) b.chunkSize (b.left s) := by
  refine Leaves.bind (leaves_writeAt b s row b.offset) fun result => ?_
  cases result with
  | ok count => exact (NeverRefused.update _).bind fun _ => .pure _
  | error fault => exact .pure _

/-- **Every request to a buffer.** -/
theorem leaves_request (request : BufferRequest) :
    Leaves (request.run (b, s)) b.chunkSize (b.left s) := by
  cases request with
  | write row stream => exact (leaves_write b s row).map fun _ _ _ => trivial
  | writeAt row offset => exact (leaves_writeAt b s row offset).map fun _ _ _ => trivial
  | read limit stream => cases stream <;> trivial
  | readAt limit offset => trivial
  | readAll => trivial
  | seek origin delta stream => trivial
  | flush => trivial
  | range offset count => trivial

end Buffer

end Wirepool
