import Wirepool.Proofs.Arena.Apart
import Wirepool.Proofs.Arena.Beside
import Wirepool.Proofs.Buffer.Sound
import Wirepool.Proofs.Store.Marks

/-!
# Arenas and buffers that bear other marks

An arena and a buffer hold loans and do not ask where these were made. So each of their
actions goes on with marked loans as it does without the marks. All their loans are of the
pool that they were made for, and so a whole arena and a whole buffer can be lost to one pool.
-/

namespace Wirepool

namespace HolderM

variable {ω α β : Type} {Q Q' : ω → ω → Prop} {A : α → β → Prop} {R S T : Store → Store → Prop}
  {S' T' : ω × Store → ω × Store → Prop}

/-- **Two actions of holders make loans alike**, as long as they go on. -/
abbrev LendAlike (Q : ω → ω → Prop) (marks : Marks) (losing : Nat) (s₀ t₀ : Store)
    (x y : HolderM ω α) : Prop :=
  Matches (Beside Q (Store.Lends marks losing s₀ t₀)) Eq
    (Beside Q (Store.Lends marks losing s₀ t₀)) (Beside Q (Store.Marked marks losing s₀ t₀)) x y

/-- Actions on the stores leave the holders. -/
theorem matches_onStore {x : StoreM α} {y : StoreM β} (h : Matches R A S T x y) :
    Matches (Beside Q R) A (Beside Q S) (Beside Q T) (onStore x) (onStore y) := by
  intro u v huv
  have hruns := h _ _ huv.2
  unfold onStore
  generalize x u.2 = one, y v.2 = two at hruns ⊢
  cases hruns with
  | ok hab h => exact .ok hab ⟨huv.1, h⟩
  | error abort h => exact .error abort ⟨huv.1, h⟩

/-- A change of the holders that keeps them related. -/
theorem matches_update {f : ω → α × ω} {g : ω → β × ω}
    (h : ∀ a b, Q a b → A (f a).1 (g b).1 ∧ Q (f a).2 (g b).2) :
    Matches (Beside Q S) A (Beside Q S) T' (update f) (update g) := by
  intro u v huv
  obtain ⟨hanswer, hnext⟩ := h _ _ huv.1
  exact .ok hanswer ⟨hnext, huv.2⟩

/-- What depends on the holders as they are now. -/
theorem matches_now {f g : ω → HolderM ω α} {A : α → α → Prop}
    (h : ∀ a b, Q a b → Matches (Beside Q R) A S' T' (f a) (g b)) :
    Matches (Beside Q R) A S' T' (now >>= f) (now >>= g) :=
  fun u v huv => h _ _ huv.1 u v huv

end HolderM

/-! ## Arenas -/

namespace Arena

open HolderM

variable {marks : Marks} {home losing : Nat} {a b : Arena} {s₀ t₀ : Store}
  {R T : Store → Store → Prop}

/-- An arena with marked loans. -/
def marked (marks : Marks) (a : Arena) : Arena :=
  { a with chunks := a.chunks.map (Loan.marked marks) }

@[simp] theorem info_marked (a : Arena) : (a.marked marks).info = a.info := by
  rw [info, info, marked, List.length_map]

@[simp] theorem read_marked (a : Arena) (slice : Slice) (offset count : Nat) :
    (a.marked marks).read slice offset count = a.read slice offset count := by
  unfold read marked
  dsimp only
  rw [List.getElem?_map]
  cases a.chunks[slice.chunk]? with
  | none => rfl
  | some chunk => exact chunk.read_marked marks _ _

@[simp] theorem runs_marked (a : Arena) (slice : Slice) (offset count : Nat) :
    (a.marked marks).runs slice offset count = a.runs slice offset count := by
  unfold runs marked
  dsimp only
  rw [List.getElem?_map]
  cases a.chunks[slice.chunk]? with
  | none => rfl
  | some chunk => exact chunk.runs_marked marks _ _

/-- Memory that is changed whatever its mark. -/
theorem modifyChunk_marked (a : Arena) (slice : Slice) {f : Loan → Loan}
    (hf : ∀ loan : Loan, f (loan.marked marks) = (f loan).marked marks) :
    (a.marked marks).modifyChunk slice f = (a.modifyChunk slice f).marked marks := by
  refine congrArg (fun chunks => { a with chunks }) (List.ext_getElem? fun i => ?_)
  show ((a.chunks.map (Loan.marked marks)).modify slice.chunk f)[i]? =
    ((a.chunks.modify slice.chunk f).map (Loan.marked marks))[i]?
  rw [List.getElem?_modify, List.getElem?_map, List.getElem?_map, List.getElem?_modify]
  cases a.chunks[i]? with
  | none => rfl
  | some chunk =>
    show some (if slice.chunk = i then f (chunk.marked marks) else chunk.marked marks) =
      some ((if slice.chunk = i then f chunk else chunk).marked marks)
    split
    · rw [hf]
    · rfl

@[simp] theorem write_marked (a : Arena) (slice : Slice) (row : List UInt8) :
    (a.marked marks).write slice row = (a.write slice row).marked marks :=
  a.modifyChunk_marked slice fun loan => loan.write_marked marks _ _

@[simp] theorem fill_marked (a : Arena) (slice : Slice) (value : UInt8) :
    (a.marked marks).fill slice value = (a.fill slice value).marked marks :=
  a.modifyChunk_marked slice fun loan => loan.fill_marked marks _ _ _

/-- **The same arena but for the marks**, with all loans of its pool. -/
structure Marked (marks : Marks) (home : Nat) (a b : Arena) : Prop where
  eq : b = a.marked marks
  home_eq : a.home = home
  chunks : ∀ chunk ∈ a.chunks, chunk.OfPool home

/-- An arena that holds nothing yet. -/
theorem marked_new (marks : Marks) (home size : Nat) :
    Marked marks home (.new home size) (.new home size) :=
  ⟨rfl, rfl, nofun⟩

/-- A chunk that is added to both. -/
theorem Marked.addChunk (h : Marked marks home a b) {chunk : Loan} (hchunk : chunk.OfPool home) :
    Marked marks home (a.addChunk chunk) (b.addChunk (chunk.marked marks)) := by
  obtain ⟨rfl, rfl, hchunks⟩ := h
  refine ⟨?_, rfl, fun other hother => ?_⟩
  · simp only [Arena.addChunk, marked, List.map_append, List.map_cons, List.map_nil]
  · rcases List.mem_append.mp hother with hold | hnew
    · exact hchunks other hold
    · rwa [List.mem_singleton.mp hnew]

theorem Marked.length_eq (h : Marked marks home a b) : b.chunks.length = a.chunks.length := by
  rw [h.eq, marked, List.length_map]

/-- A fragment that is opened in both. -/
theorem Marked.openFragment (h : Marked marks home a b) {chunk : Loan}
    (hchunk : chunk.OfPool home) :
    Marked marks home (a.openFragment chunk) (b.openFragment (chunk.marked marks)) := by
  have hadded := h.addChunk hchunk
  refine ⟨?_, hadded.home_eq, hadded.chunks⟩
  rw [Arena.openFragment, hadded.eq, h.length_eq, h.eq]
  rfl

/-- What changes bytes at most is done to both. -/
theorem Marked.of_terms (h : Marked marks home a b) {c d : Arena} (hd : d = c.marked marks)
    (hterms : c.chunks.map Loan.terms = a.chunks.map Loan.terms) (hhome : c.home = a.home) :
    Marked marks home c d :=
  ⟨hd, hhome.trans h.home_eq, Loan.OfPool.of_terms_eq h.chunks hterms⟩

/-! ### Actions -/

/-- What is done to both alike. -/
theorem matches_update {α : Type} {f : Arena → α × Arena}
    (hf : ∀ a b, Marked marks home a b → (f a).1 = (f b).1 ∧ Marked marks home (f a).2 (f b).2) :
    Matches (Beside (Marked marks home) R) Eq (Beside (Marked marks home) R)
      (Beside (Marked marks home) T) (update f) (update f) :=
  HolderM.matches_update hf

/-- Counting a request. -/
theorem matches_count (len : Nat) (hRT : ∀ s t, R s t → T s t) :
    Matches (Beside (Marked marks home) R) Eq (Beside (Marked marks home) R)
      (Beside (Marked marks home) T) (count len) (count len) := by
  rintro ⟨a, s⟩ ⟨_, t⟩ ⟨⟨rfl, hhome, hchunks⟩, hst⟩
  rw [count_eq, count_eq]
  show Matching _ _ _ _ (if wordLimit ≤ a.length + len then _ else _)
  split
  · exact .error _ ⟨⟨rfl, hhome, hchunks⟩, hRT s t hst⟩
  · exact .ok rfl ⟨⟨rfl, hhome, hchunks⟩, hst⟩

/-- Cutting a slice off. -/
theorem matches_cutOff (len : Nat) (zero : Bool) :
    Matches (Beside (Marked marks home) R) Eq (Beside (Marked marks home) R)
      (Beside (Marked marks home) T) (get.cutOff len zero) (get.cutOff len zero) := by
  refine matches_update fun a b h => ?_
  obtain rfl := h.eq
  have hcut : (a.marked marks).cut len = ((a.cut len).1, (a.cut len).2.marked marks) := rfl
  cases zero with
  | false => exact ⟨rfl, h.of_terms rfl rfl rfl⟩
  | true =>
    dsimp only
    rw [hcut]
    refine ⟨rfl, h.of_terms (fill_marked _ _ _) ?_ rfl⟩
    exact terms_modifyChunk _ _ fun loan => loan.terms_fill _ _ _

/-- **Asking for a slice.** -/
theorem matches_get (len : Nat) (zero : Bool) :
    LendAlike (Marked marks home) marks losing s₀ t₀ (get len zero) (get len zero) := by
  unfold get
  refine (matches_count len fun _ _ h => h.toMarked).bind fun _ _ _ =>
    matches_now fun a b h => ?_
  obtain ⟨rfl, rfl, -⟩ := h
  have hborrow (size : Nat) (zero : Bool) :
      Store.LendAlike marks losing s₀ t₀ (fun c d => d = c.marked marks ∧ c.OfPool a.home)
        (Store.borrow a.home size zero) (Store.borrow a.home size zero) :=
    Store.matches_borrow a.home size zero
  have hplan : (a.marked marks).plan len = a.plan len := rfl
  rw [hplan]
  cases a.plan len with
  | nothing => exact .pure rfl
  | dedicated =>
    refine (matches_onStore (hborrow len zero)).bind ?_
    rintro chunk _ ⟨rfl, hchunk⟩
    refine HolderM.matches_update fun c d hcd => ⟨?_, hcd.addChunk hchunk⟩
    rw [hcd.length_eq]
  | opening =>
    refine (matches_onStore (hborrow a.size false)).bind ?_
    rintro chunk _ ⟨rfl, hchunk⟩
    exact Matches.bind (A := Eq)
      (HolderM.matches_update fun c d hcd => ⟨rfl, hcd.openFragment hchunk⟩)
      fun _ _ _ => matches_cutOff len zero
  | current => exact matches_cutOff len zero

/-- **Copying bytes into a slice.** -/
theorem matches_copy (row : List UInt8) :
    LendAlike (Marked marks home) marks losing s₀ t₀ (copy row) (copy row) := by
  refine (matches_get row.length false).bind ?_
  rintro slice _ rfl
  refine matches_update fun a b h => ⟨rfl, ?_⟩
  obtain rfl := h.eq
  exact h.of_terms (write_marked _ _ _) (terms_modifyChunk _ _ fun loan => loan.terms_write _ _) rfl

/-- **Giving everything back.** -/
theorem matches_release (a : Arena) :
    Store.RunAlike marks losing s₀ t₀ a.release (a.marked marks).release :=
  Store.matches_releaseAll _

/-- **Losing everything** to the pool of the arena. -/
theorem matches_drop (hchunks : ∀ chunk ∈ a.chunks, chunk.OfPool losing) :
    Store.RunAlike marks losing s₀ t₀ a.drop (a.marked marks).drop :=
  Store.matches_loseAll hchunks

/-- **Starting afresh.** -/
theorem matches_reset :
    Matches (Beside (Marked marks home) (Store.Marked marks losing s₀ t₀)) Eq
      (Beside (Marked marks home) (Store.Marked marks losing s₀ t₀))
      (Beside (Marked marks home) (Store.Marked marks losing s₀ t₀)) reset reset := by
  refine matches_now fun a b h => ?_
  obtain ⟨rfl, -, -⟩ := h
  refine (matches_onStore (matches_release a)).bind fun _ _ _ =>
    matches_update fun c d h => ⟨rfl, ?_⟩
  obtain ⟨rfl, rfl, -⟩ := h
  exact marked_new marks c.home c.size

end Arena

/-! ### Messages -/

section Messages

open HolderM

variable {marks : Marks} {home losing : Nat} {s₀ t₀ : Store}

/-- **Encoding into a slice.** -/
theorem Script.matches_encodeInArena (script : Script) (order : ByteOrder) :
    LendAlike (Arena.Marked marks home) marks losing s₀ t₀ (script.encodeInArena order)
      (script.encodeInArena order) := by
  unfold encodeInArena
  dsimp only
  cases (script.measure order).length with
  | error failure => exact .pure rfl
  | ok length =>
    refine (Arena.matches_get length false).bind ?_
    rintro slice _ rfl
    refine Arena.matches_update fun a b h => ?_
    obtain rfl := h.eq
    dsimp only
    rw [Arena.read_marked]
    exact ⟨rfl, h.of_terms (Arena.write_marked _ _ _)
      (Arena.terms_modifyChunk _ _ fun loan => loan.terms_write _ _) rfl⟩

/-- **Copying out what was read.** -/
theorem Reading.matches_copyOut (reading : Reading) :
    LendAlike (Arena.Marked marks home) marks losing s₀ t₀ reading.copyOut reading.copyOut :=
  Matches.forM (A := Eq) (fun row _ h => h ▸ (Arena.matches_copy row).map fun _ _ _ => rfl)
    (List.forall₂_same.mpr fun _ _ => rfl)

end Messages

/-! ## Buffers -/

namespace Chunks

variable (marks : Marks) (size : Nat)

/-- The parts of marked chunks. -/
theorem parts_marked (first : Nat) (chunks : List Loan) (offset count : Nat) :
    parts size first (chunks.map (Loan.marked marks)) offset count =
      parts size first chunks offset count := by
  induction chunks generalizing first offset count with
  | nil => rfl
  | cons chunk chunks ih => simp only [List.map_cons, parts, Loan.read_marked, ih]

/-- Marked chunks that are cleared. -/
theorem clear_marked (chunks : List Loan) (offset count : Nat) :
    clear size (chunks.map (Loan.marked marks)) offset count =
      (clear size chunks offset count).map (Loan.marked marks) := by
  induction chunks generalizing offset count with
  | nil => rfl
  | cons chunk chunks ih =>
    rw [List.map_cons, clear, clear]
    dsimp only
    split
    · rfl
    · split
      · rw [ih, List.map_cons]
      · rw [ih, Loan.fill_marked, List.map_cons]

/-- Marked chunks that are written. -/
theorem write_marked (chunks : List Loan) (offset : Nat) (row : List UInt8) :
    write size (chunks.map (Loan.marked marks)) offset row =
      (write size chunks offset row).map (Loan.marked marks) := by
  induction chunks generalizing offset row with
  | nil => rfl
  | cons chunk chunks ih =>
    rw [List.map_cons, write, write]
    dsimp only
    split
    · rfl
    · split
      · rw [ih, List.map_cons]
      · rw [ih, Loan.write_marked, List.map_cons]

end Chunks

namespace Buffer

open HolderM

variable {marks : Marks} {home losing : Nat} {a b : Buffer} {s₀ t₀ : Store}
  {R T : Store → Store → Prop}

/-- A buffer with marked loans. -/
def marked (marks : Marks) (b : Buffer) : Buffer :=
  { b with chunks := b.chunks.map (Loan.marked marks) }

@[simp] theorem offset_marked (b : Buffer) : (b.marked marks).offset = b.offset := rfl

@[simp] theorem length_marked (b : Buffer) : (b.marked marks).length = b.length := rfl

@[simp] theorem info_marked (b : Buffer) : (b.marked marks).info = b.info := by
  rw [info, info, marked, List.length_map]

@[simp] theorem readAt_marked (b : Buffer) (offset limit : Nat) :
    (b.marked marks).readAt offset limit = b.readAt offset limit := by
  unfold readAt marked
  dsimp only
  rw [Chunks.parts_marked]

@[simp] theorem readInto_marked (b : Buffer) (offset : Nat) (memory : List UInt8) :
    (b.marked marks).readInto offset memory = b.readInto offset memory := by
  rw [readInto, readAt_marked, readInto]

@[simp] theorem range_marked (b : Buffer) (offset count : Nat) :
    (b.marked marks).range offset count = b.range offset count :=
  Chunks.parts_marked marks _ _ _ _ _

theorem read_marked (b : Buffer) (memory : List UInt8) :
    (b.marked marks).read memory = ((b.read memory).1, (b.read memory).2.marked marks) := by
  unfold read
  rw [readInto_marked, offset_marked]
  cases b.readInto b.offset memory <;> rfl

theorem streamRead_marked (b : Buffer) (memory : List UInt8) :
    (b.marked marks).streamRead memory =
      ((b.streamRead memory).1, (b.streamRead memory).2.marked marks) := by
  unfold streamRead
  rw [read_marked]
  obtain ⟨result, next⟩ := b.read memory
  cases result with
  | ok count => rfl
  | error fault => cases fault <;> rfl

theorem streamReadAll_marked (b : Buffer) :
    (b.marked marks).streamReadAll = (b.streamReadAll.1, b.streamReadAll.2.marked marks) := by
  unfold streamReadAll
  rw [offset_marked, length_marked, streamRead_marked]
  obtain ⟨result, next⟩ := b.streamRead (List.replicate (b.length - b.offset) 0)
  cases result <;> rfl

theorem seek_marked (b : Buffer) (origin : Origin) (delta : Int) :
    (b.marked marks).seek origin delta =
      ((b.seek origin delta).1, (b.seek origin delta).2.marked marks) := by
  unfold seek
  rw [offset_marked, length_marked]
  cases origin <;> dsimp only <;> split <;> rfl

/-- **The same buffer but for the marks**, with all loans of its pool. -/
structure Marked (marks : Marks) (home : Nat) (a b : Buffer) : Prop where
  eq : b = a.marked marks
  home_eq : a.home = home
  chunks : ∀ chunk ∈ a.chunks, chunk.OfPool home

/-- Chunks that are of the pool as those before were. -/
theorem Marked.of_terms (h : Marked marks home a b) {c d : Buffer} (hd : d = c.marked marks)
    (hterms : c.chunks.map Loan.terms = a.chunks.map Loan.terms) (hhome : c.home = a.home) :
    Marked marks home c d :=
  ⟨hd, hhome.trans h.home_eq, Loan.OfPool.of_terms_eq h.chunks hterms⟩

/-! ### Actions -/

/-- **What only looks at a buffer or moves its cursor** does the same to both. -/
theorem matches_look {α : Type} {f : Buffer → α × Buffer}
    (hf : ∀ b : Buffer, f (b.marked marks) = ((f b).1, (f b).2.marked marks))
    (hcursor : ∀ b, (f b).2 = { b with offset := (f b).2.offset }) :
    Matches (Beside (Marked marks home) R) Eq (Beside (Marked marks home) R)
      (Beside (Marked marks home) T) (update f) (update f) := by
  refine HolderM.matches_update fun a b h => ?_
  obtain rfl := h.eq
  rw [hf]
  exact ⟨rfl, h.of_terms rfl (by rw [hcursor]) (by rw [hcursor])⟩

/-- Borrowing chunks. -/
theorem matches_addChunks (count : Nat) :
    LendAlike (Marked marks home) marks losing s₀ t₀ (addChunks count) (addChunks count) := by
  refine matches_now fun a b h => ?_
  obtain ⟨rfl, rfl, -⟩ := h
  refine (matches_onStore (Matches.mapM
    (fun size => Store.matches_borrow a.home size false) _)).bind fun one other hrow => ?_
  obtain ⟨rfl, hone⟩ := Loan.eq_map_marked hrow
  refine HolderM.matches_update fun c d h => ⟨rfl, ?_⟩
  obtain ⟨rfl, hhome, hchunks⟩ := h
  refine ⟨?_, hhome, fun chunk hchunk => ?_⟩
  · simp only [marked, List.map_append]
  · exact (List.mem_append.mp hchunk).elim (hchunks chunk) (hone chunk)

/-- Making room. -/
theorem matches_grow (length : Nat) :
    LendAlike (Marked marks home) marks losing s₀ t₀ (grow length) (grow length) := by
  refine matches_now fun a b h => ?_
  have hlength : b.length = a.length := by rw [h.eq]; rfl
  have hcount : b.chunksFor length - b.chunks.length = a.chunksFor length - a.chunks.length := by
    rw [h.eq, marked, List.length_map]
    rfl
  rw [hlength, hcount]
  split
  · refine (matches_addChunks _).bind fun _ _ _ => HolderM.matches_update fun c d hcd => ?_
    obtain rfl := hcd.eq
    exact ⟨rfl, hcd.of_terms rfl rfl rfl⟩
  · exact .pure rfl

/-- **Writing at a position.** -/
theorem matches_writeAt (row : List UInt8) (offset : Nat) :
    LendAlike (Marked marks home) marks losing s₀ t₀ (writeAt row offset) (writeAt row offset) := by
  unfold writeAt
  dsimp only
  split
  · exact .pure rfl
  · refine matches_now fun a b h => ?_
    have hlength : b.length = a.length := by rw [h.eq]; rfl
    rw [hlength]
    refine (matches_grow _).bind fun _ _ _ => Matches.bind (A := Eq)
      (HolderM.matches_update fun c d hcd => ⟨rfl, ?_⟩) fun _ _ _ => .pure rfl
    obtain rfl := hcd.eq
    refine hcd.of_terms ?_ ?_ rfl
    · simp only [marked, Chunks.clear_marked, Chunks.write_marked]
    · rw [Chunks.terms_write, Chunks.terms_clear]

/-- **Writing at the cursor.** -/
theorem matches_write (row : List UInt8) :
    LendAlike (Marked marks home) marks losing s₀ t₀ (write row) (write row) := by
  refine matches_now fun a b h => ?_
  have hoffset : b.offset = a.offset := by rw [h.eq]; rfl
  rw [hoffset]
  refine (matches_writeAt row a.offset).bind ?_
  rintro result _ rfl
  cases result with
  | ok count =>
    refine Matches.bind (A := Eq) (matches_look (fun b => rfl) fun b => rfl) fun _ _ _ => .pure rfl
  | error fault => exact .pure rfl

/-- Giving everything back. -/
theorem matches_release (b : Buffer) :
    Store.RunAlike marks losing s₀ t₀ b.release (b.marked marks).release :=
  Store.matches_releaseAll _

/-- Losing everything to the pool of the buffer. -/
theorem matches_drop (hchunks : ∀ chunk ∈ a.chunks, chunk.OfPool losing) :
    Store.RunAlike marks losing s₀ t₀ a.drop (a.marked marks).drop :=
  Store.matches_loseAll hchunks

/-- **Every request to a buffer.** -/
theorem matches_request (request : BufferRequest) :
    LendAlike (Marked marks home) marks losing s₀ t₀ request.run request.run := by
  cases request with
  | write row stream => exact (matches_write row).map fun _ _ h => h ▸ rfl
  | writeAt row offset => exact (matches_writeAt row offset).map fun _ _ h => h ▸ rfl
  | read limit stream =>
    cases stream with
    | false =>
      exact (matches_look (fun b => b.read_marked _) fun b => b.read_eq _).map
        fun _ _ h => h ▸ rfl
    | true =>
      exact (matches_look (fun b => b.streamRead_marked _) fun b => by
        rw [streamRead_snd]; exact b.read_eq _).map fun _ _ h => h ▸ rfl
  | readAt limit offset =>
    exact matches_look (f := fun b => (BufferRequest.haveRead false
      (b.readInto offset (BufferRequest.readerMemory limit)), b))
      (fun b => by rw [readInto_marked]) fun b => rfl
  | readAll =>
    exact (matches_look (fun b => b.streamReadAll_marked) fun b => by
      rw [streamReadAll_snd]; exact b.read_eq _).map fun _ _ h => h ▸ rfl
  | seek origin delta stream =>
    exact (matches_look (fun b => b.seek_marked _ _) fun b => b.seek_eq _ _).map
      fun _ _ h => h ▸ rfl
  | flush => exact .pure rfl
  | range offset count =>
    exact matches_look (f := fun b => (BufferOutcome.reply
      (.parts (Chunks.locate 0 (b.range offset count))), b))
      (fun b => by rw [range_marked]) fun b => rfl

end Buffer

end Wirepool
