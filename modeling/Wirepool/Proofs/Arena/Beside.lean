import Wirepool.Proofs.Arena.Charge
import Wirepool.Proofs.Store.Beside
import Wirepool.Session.Request

/-!
# Holders side by side

An arena whose length is ahead of another's, and which is the same arena otherwise,
serves every request in the same way, unless its length leaves no room for the request
while the other one's does. So on stores of which one is ahead of the other, the two answer
alike and go on as they are, with that one excuse. Where there is no room in either of them,
both refuse. A reset takes all that was charged back, and then the two arenas are the same.

A buffer has no such figure. The same buffer on stores of which one is ahead of the other
answers alike.
-/

namespace Wirepool

namespace HolderM

variable {ω α : Type} {Q : ω → ω → Prop} {R : Store → Store → Prop} {excused : Abort → Prop}

/-- Holders that are related, with stores that are. -/
def Beside (Q : ω → ω → Prop) (R : Store → Store → Prop) (u v : ω × Store) : Prop :=
  Q u.1 v.1 ∧ R u.2 v.2

/-- Actions on the stores leave the holders. -/
theorem inStep_onStore {x y : StoreM α} (h : InStep R excused x y) :
    InStep (Beside Q R) excused (onStore x : HolderM ω α) (onStore y) := by
  intro u v huv
  have hruns := h _ _ huv.2
  unfold onStore
  generalize x u.2 = one, y v.2 = two at hruns ⊢
  cases hruns with
  | ok a h => exact .ok a ⟨huv.1, h⟩
  | error abort h => exact .error abort ⟨huv.1, h⟩
  | excused h s => exact .excused h _ _

/-- A change of the holders that keeps them related. -/
theorem inStep_update {f : ω → α × ω} (h : ∀ a b, Q a b → (f a).1 = (f b).1 ∧ Q (f a).2 (f b).2) :
    InStep (Beside Q R) excused (update f) (update f) := by
  intro u v huv
  obtain ⟨hanswer, hnext⟩ := h _ _ huv.1
  show Together _ _ (.ok (f u.1).1 ((f u.1).2, u.2)) (.ok (f v.1).1 ((f v.1).2, v.2))
  rw [hanswer]
  exact .ok _ ⟨hnext, huv.2⟩

/-- What depends on the holders as they are now. -/
theorem inStep_now {f g : ω → HolderM ω α}
    (h : ∀ a b, Q a b → InStep (Beside Q R) excused (f a) (g b)) :
    InStep (Beside Q R) excused (now >>= f) (now >>= g) :=
  fun u v huv => h _ _ huv.1 u v huv

end HolderM

/-! ## Arenas -/

namespace Arena

open HolderM

/-- The arena with more charged. -/
def longer (a : Arena) (more : Nat) : Arena := { a with length := a.length + more }

/-- **An arena is ahead of another** by a length, or is the same. -/
def Ahead (more : Nat) (a b : Arena) : Prop :=
  ∃ d, (d = 0 ∨ d = more) ∧ a = b.longer d

/-- **An arena is crowded** beside another one by requests for some lengths: one of them finds
room in the length of the other arena, and none in that of this one. -/
def Crowded (lengths : List Nat) (a b : Arena) : Prop :=
  ∃ i, b.length + (lengths.take i).sum < wordLimit ∧ wordLimit ≤ a.length + (lengths.take i).sum

/-- The abort of an arena that is crowded. -/
def Overfull (lengths : List Nat) (a b : Arena) (abort : Abort) : Prop :=
  abort = .lengthOverflow ∧ Crowded lengths a b

variable {more : Nat} {a b : Arena} {s t : Store} {R : Store → Store → Prop}

/-- The same arena. -/
theorem Ahead.refl (more : Nat) (a : Arena) : Ahead more a a := ⟨0, .inl rfl, rfl⟩

/-- **Arenas of one length** do not crowd one another. -/
theorem not_crowded_of_length_eq {lengths : List Nat} (h : a.length = b.length) :
    ¬Crowded lengths a b := by
  rintro ⟨i, hroom, hfull⟩
  rw [h] at hfull
  exact Nat.not_lt_of_le hfull hroom

/-- What is ahead by nothing has the same length. -/
theorem Ahead.length_eq (h : Ahead 0 a b) : a.length = b.length := by
  obtain ⟨d, hd, rfl⟩ := h
  obtain rfl : d = 0 := hd.elim id id
  rfl

/-- What crowds an arena crowds it also in front of other requests. -/
theorem Crowded.append {lengths : List Nat} (h : Crowded lengths a b) (more : List Nat) :
    Crowded (lengths ++ more) a b := by
  obtain ⟨i, hroom, hfull⟩ := h
  refine ⟨min i lengths.length, ?_⟩
  rw [List.take_append_of_le_length (Nat.min_le_right _ _), ← List.take_take, List.take_length]
  exact ⟨hroom, hfull⟩

/-- What crowds arenas that were both charged with a length crowds them behind a request for
it. -/
theorem Crowded.cons {len : Nat} {lengths : List Nat} {a' b' : Arena}
    (h : Crowded lengths a' b') (ha : a.Charged len a') (hb : b.Charged len b') :
    Crowded (len :: lengths) a b := by
  obtain ⟨i, hroom, hfull⟩ := h
  refine ⟨i + 1, ?_⟩
  rw [List.take_succ_cons, List.sum_cons, ← Nat.add_assoc, ← Nat.add_assoc, ← ha.length_eq,
    ← hb.length_eq]
  exact ⟨hroom, hfull⟩

/-- **Whatever does not look at the length** and leaves it alone does the same to an arena that
is ahead. -/
theorem inStep_update {α : Type} {excused : Abort → Prop} {f : Arena → α × Arena}
    (h : ∀ b d, f (longer b d) = ((f b).1, (f b).2.longer d)) :
    InStep (Beside (Ahead more) R) excused (update f) (update f) := by
  refine HolderM.inStep_update ?_
  rintro _ b ⟨d, hd, rfl⟩
  rw [h b d]
  exact ⟨rfl, d, hd, rfl⟩

/-- What is counted or refused. -/
theorem count_eq (len : Nat) (a : Arena) (s : Store) :
    count len (a, s) = if wordLimit ≤ a.length + len then .error .lengthOverflow (a, s)
      else .ok () (a.longer len, s) := by
  by_cases hlimit : wordLimit ≤ a.length + len
  · rw [if_pos hlimit]
    simp only [count, now, bind, EStateM.bind, if_pos hlimit]
    rfl
  · rw [if_neg hlimit]
    simp only [count, now, bind, EStateM.bind, if_neg hlimit]
    rfl

/-- **Counting a request** may be too much for both arenas, or for the one that is ahead. -/
theorem together_count (len : Nat) (hab : Ahead more a b) (hR : R s t) :
    Together (Beside (Ahead more) R) (Overfull [len] a b) (count len (a, s))
      (count len (b, t)) := by
  rw [count_eq, count_eq]
  obtain ⟨d, hd, rfl⟩ := hab
  by_cases hlimit : wordLimit ≤ (b.longer d).length + len
  · rw [if_pos hlimit]
    by_cases hother : wordLimit ≤ b.length + len
    · rw [if_pos hother]
      exact .error _ ⟨⟨d, hd, rfl⟩, hR⟩
    · exact .excused ⟨rfl, 1, Nat.lt_of_not_le hother, hlimit⟩ _ _
  · have hother : ¬wordLimit ≤ b.length + len := fun hle =>
      hlimit (Nat.le_trans hle (Nat.add_le_add_right (Nat.le_add_right _ _) _))
    rw [if_neg hlimit, if_neg hother]
    refine .ok () ⟨⟨d, hd, ?_⟩, hR⟩
    show ({ b with length := b.length + d + len } : Arena) = { b with length := b.length + len + d }
    rw [Nat.add_right_comm]

variable {s₀ t₀ : Store} {figures : Nat → Nat} {excused : Abort → Prop}

/-- Cutting a slice off. -/
theorem inStep_cutOff (len : Nat) (zero : Bool) :
    InStep (Beside (Ahead more) R) excused (get.cutOff len zero) (get.cutOff len zero) := by
  refine inStep_update fun b d => ?_
  cases zero <;> rfl

/-- **Asking for a slice.** -/
theorem together_get (len : Nat) (zero : Bool) (hab : Ahead more a b)
    (hst : Store.Ahead figures s₀ t₀ s t) :
    Together (Beside (Ahead more) (Store.Ahead figures s₀ t₀)) (Overfull [len] a b)
      (get len zero (a, s)) (get len zero (b, t)) := by
  unfold get
  refine (together_count len hab hst).bind fun _ u v _ _ huv =>
    inStep_now (fun a b h => ?_) u v huv
  obtain ⟨d, -, rfl⟩ := h
  -- how a request is served does not depend on the length
  have hplan : (b.longer d).plan len = b.plan len := rfl
  rw [hplan]
  cases b.plan len with
  | nothing => exact .pure _
  | dedicated =>
    exact (inStep_onStore (Store.inStep_borrow b.home len zero)).bind fun _ =>
      inStep_update fun _ _ => rfl
  | opening =>
    exact (inStep_onStore (Store.inStep_borrow b.home b.size false)).bind fun _ =>
      (inStep_update fun _ _ => rfl).bind fun _ => inStep_cutOff len zero
  | current => exact inStep_cutOff len zero

/-- **Copying bytes into a slice.** -/
theorem together_copy (row : List UInt8) (hab : Ahead more a b)
    (hst : Store.Ahead figures s₀ t₀ s t) :
    Together (Beside (Ahead more) (Store.Ahead figures s₀ t₀)) (Overfull [row.length] a b)
      (copy row (a, s)) (copy row (b, t)) := by
  unfold copy
  exact (together_get row.length false hab hst).bind fun _ u v _ _ huv =>
    inStep_update (fun _ _ => rfl) u v huv

/-- **Copying rows in turn.** A row that finds the arena crowded does so behind those in front
of it. -/
theorem together_copies (rows : List (List UInt8)) (hab : Ahead more a b)
    (hst : Store.Ahead figures s₀ t₀ s t) :
    Together (Beside (Ahead more) (Store.Ahead figures s₀ t₀))
      (Overfull (rows.map List.length) a b)
      (rows.forM (fun row => discard (copy row)) (a, s))
      (rows.forM (fun row => discard (copy row)) (b, t)) := by
  induction rows generalizing a b s t with
  | nil => exact .ok _ ⟨hab, hst⟩
  | cons row rows ih =>
    have hcharged (a : Arena) (s : Store) :
        Ends (discard (copy row) (a, s)) (fun _ u => a.Charged row.length u.1) fun _ _ => True :=
      ((charged_copy a s row).mono (fun _ _ h => h) fun _ _ _ => trivial).map fun _ _ h => h
    rw [List.forM_eq_forM, List.forM_cons]
    have hfirst : Together (Beside (Ahead more) (Store.Ahead figures s₀ t₀))
        (Overfull ((row :: rows).map List.length) a b) (discard (copy row) (a, s))
        (discard (copy row) (b, t)) := by
      refine ((together_copy row hab hst).map fun _ => PUnit.unit).mono (fun _ _ h => h) ?_
      exact fun abort h => ⟨h.1, h.2.append (rows.map List.length)⟩
    refine hfirst.bind fun _ u v hu hv huv => ?_
    have ha := hcharged a s
    have hb := hcharged b t
    rw [hu] at ha
    rw [hv] at hb
    exact (ih huv.1 huv.2).mono (fun _ _ h => h) fun abort h => ⟨h.1, h.2.cons ha hb⟩

/-- Giving everything back. -/
theorem inStep_release (a : Arena) :
    InStep (Store.Ahead figures s₀ t₀) excused a.release a.release :=
  InStep.forM Store.inStep_release a.chunks

/-- Losing everything. -/
theorem inStep_drop (a : Arena) :
    InStep (Store.Ahead figures s₀ t₀) excused a.drop a.drop :=
  InStep.forM Store.inStep_lose a.chunks

/-- **Starting afresh.** -/
theorem inStep_reset :
    InStep (Beside (Ahead more) (Store.Ahead figures s₀ t₀)) excused reset reset := by
  refine inStep_now fun a b h => ?_
  obtain ⟨d, -, rfl⟩ := h
  refine (inStep_onStore (inStep_release b)).bind fun _ =>
    HolderM.inStep_update fun a b h => ⟨rfl, ?_⟩
  obtain ⟨d, -, rfl⟩ := h
  exact .refl more _

end Arena

/-! ## Messages and arenas -/

section Messages

open HolderM

variable {more : Nat} {a b : Arena} {s t s₀ t₀ : Store} {figures : Nat → Nat}

/-- **Encoding into a slice.** -/
theorem Script.together_encodeInArena (script : Script) (order : ByteOrder)
    (hab : Arena.Ahead more a b) (hst : Store.Ahead figures s₀ t₀ s t) :
    Together (Beside (Arena.Ahead more) (Store.Ahead figures s₀ t₀))
      (Arena.Overfull (Arena.measured script order) a b)
      (script.encodeInArena order (a, s)) (script.encodeInArena order (b, t)) := by
  unfold encodeInArena Arena.measured
  dsimp only
  cases (script.measure order).length with
  | error failure => exact .ok _ ⟨hab, hst⟩
  | ok length =>
    exact (Arena.together_get length false hab hst).bind fun _ u v _ _ huv =>
      Arena.inStep_update (fun _ _ => rfl) u v huv

end Messages

/-! ## Buffers -/

namespace Buffer

open HolderM

variable {s₀ t₀ : Store} {figures : Nat → Nat} {excused : Abort → Prop}

/-- Whatever changes a buffer changes the same buffer alike. -/
theorem inStep_update {α : Type} (f : Buffer → α × Buffer) {R : Store → Store → Prop} :
    InStep (Beside Eq R) excused (update f) (update f) :=
  HolderM.inStep_update fun _ _ h => ⟨congrArg (fun b => (f b).1) h, congrArg (fun b => (f b).2) h⟩

/-- What depends on the buffer as it is now. -/
theorem inStep_now {α : Type} {f : Buffer → HolderM Buffer α} {R : Store → Store → Prop}
    (h : ∀ b, InStep (Beside Eq R) excused (f b) (f b)) :
    InStep (Beside Eq R) excused (now >>= f) (now >>= f) :=
  HolderM.inStep_now fun a _ hab => hab ▸ h a

/-- Borrowing chunks. -/
theorem inStep_addChunks (count : Nat) :
    InStep (Beside Eq (Store.Ahead figures s₀ t₀)) excused (addChunks count) (addChunks count) :=
  inStep_now fun b => (inStep_onStore (InStep.mapM
    (fun size => Store.inStep_borrow b.home size false) _)).bind fun _ => inStep_update _

/-- Making room. -/
theorem inStep_grow (length : Nat) :
    InStep (Beside Eq (Store.Ahead figures s₀ t₀)) excused (grow length) (grow length) := by
  refine inStep_now fun b => ?_
  split
  · exact (inStep_addChunks _).bind fun _ => inStep_update _
  · exact .pure _

/-- **Writing at a position.** -/
theorem inStep_writeAt (row : List UInt8) (offset : Nat) :
    InStep (Beside Eq (Store.Ahead figures s₀ t₀)) excused (writeAt row offset)
      (writeAt row offset) := by
  unfold writeAt
  dsimp only
  split
  · exact .pure _
  · exact inStep_now fun _ => (inStep_grow _).bind fun _ => (inStep_update _).bind fun _ => .pure _

/-- **Writing at the cursor.** -/
theorem inStep_write (row : List UInt8) :
    InStep (Beside Eq (Store.Ahead figures s₀ t₀)) excused (write row) (write row) := by
  refine inStep_now fun b => (inStep_writeAt row b.offset).bind fun result => ?_
  cases result with
  | ok count => exact (inStep_update _).bind fun _ => .pure _
  | error fault => exact .pure _

/-- Giving everything back. -/
theorem inStep_release (b : Buffer) :
    InStep (Store.Ahead figures s₀ t₀) excused b.release b.release :=
  InStep.forM Store.inStep_release b.chunks

/-- Losing everything. -/
theorem inStep_drop (b : Buffer) :
    InStep (Store.Ahead figures s₀ t₀) excused b.drop b.drop :=
  InStep.forM Store.inStep_lose b.chunks

/-- **Every request to a buffer.** -/
theorem inStep_request (request : BufferRequest) :
    InStep (Beside Eq (Store.Ahead figures s₀ t₀)) excused request.run request.run := by
  cases request with
  | write row stream => exact (inStep_write row).map _
  | writeAt row offset => exact (inStep_writeAt row offset).map _
  | read limit stream =>
    cases stream with
    | false => exact (inStep_update _).map _
    | true => exact (inStep_update _).map _
  | readAt limit offset =>
    exact inStep_update fun b =>
      (BufferRequest.haveRead false (b.readInto offset (BufferRequest.readerMemory limit)), b)
  | readAll => exact (inStep_update _).map _
  | seek origin delta stream => exact (inStep_update _).map _
  | flush => exact .pure _
  | range offset count =>
    exact inStep_update fun b =>
      (BufferOutcome.reply (.parts (Chunks.locate 0 (b.range offset count))), b)

end Buffer

end Wirepool
