import Wirepool.Proofs.Buffer.Growth

/-!
# A buffer as a stream

A stream is used in pieces whose sizes nobody has agreed on. Readers bring memory of any
size and are given what fits; writers hand over pieces of any size, of no bytes at all now
and then. What is read and what is written must not depend on where the cuts are.

For reads this is so because the cursor stands at the end of what was delivered, up to the
end of the content, where it stays. For writes the first piece does all the work at the end
of the content: it closes the gap in front of the cursor, even if it has no bytes itself.
From then on the cursor is not behind the end, so no later piece finds a gap. That is why
pieces can be put together (`Strip.after_append`), but no pieces are not the same as one
piece of no bytes.
-/

namespace Wirepool

/-! ## Writes in pieces -/

namespace Strip

variable (strip : Strip)

/-- **The strip after a write at the cursor** that is not refused. -/
def after (row : List UInt8) : Strip :=
  ⟨splice (strip.reaching (strip.cursor + row.length)) strip.cursor row,
    strip.cursor + row.length⟩

theorem write_eq_after {row : List UInt8} (h : strip.cursor + row.length < wordLimit) :
    strip.write row = (.ok row.length, strip.after row) := by
  rw [write, writeAt, if_neg (Nat.not_le_of_lt h)]
  rfl

theorem length_reaching (length : Nat) :
    (strip.reaching length).length = max strip.content.length length := by
  rw [reaching, List.length_append, List.length_replicate]
  omega

/-- **A byte of the content with zeros behind it.** -/
theorem getElem?_reaching (length i : Nat) : (strip.reaching length)[i]? =
    if i < strip.content.length then strip.content[i]?
    else if i < length then some 0 else none := by
  rw [reaching, List.getElem?_append, List.getElem?_replicate]
  split
  · rfl
  · next hout => exact if_congr (by omega) rfl rfl

theorem length_content_after (row : List UInt8) :
    (strip.after row).content.length = max strip.content.length (strip.cursor + row.length) := by
  have hfit : strip.cursor + row.length ≤
      (strip.reaching (strip.cursor + row.length)).length := by
    rw [length_reaching]
    exact Nat.le_max_right _ _
  rw [after, length_splice hfit, length_reaching]

/-- **A byte after a write** is one that was written, or an old one, or a zero of the gap. -/
theorem getElem?_content_after (row : List UInt8) (i : Nat) :
    (strip.after row).content[i]? =
      if strip.cursor ≤ i ∧ i < strip.cursor + row.length then row[i - strip.cursor]?
      else if i < strip.content.length then strip.content[i]?
      else if i < strip.cursor + row.length then some 0 else none := by
  have hfit : strip.cursor ≤ (strip.reaching (strip.cursor + row.length)).length := by
    rw [length_reaching]
    omega
  rw [after, getElem?_splice hfit, getElem?_reaching]

/-- **Two writes one behind the other are one write.** -/
theorem after_append (row later : List UInt8) :
    (strip.after row).after later = strip.after (row ++ later) := by
  have hcursor : (strip.after row).cursor = strip.cursor + row.length := rfl
  have hlength : strip.cursor + (row ++ later).length =
      strip.cursor + row.length + later.length := by
    rw [List.length_append, Nat.add_assoc]
  refine congrArg₂ Strip.mk (List.ext_getElem? fun i => ?_) hlength.symm
  change ((strip.after row).after later).content[i]? = (strip.after (row ++ later)).content[i]?
  rw [getElem?_content_after, getElem?_content_after, getElem?_content_after, hcursor, hlength,
    length_content_after]
  -- the byte is in the first row or in front of it, in the second row, or behind both
  rcases Nat.lt_or_ge i (strip.cursor + row.length) with hearly | hlate
  · rcases Nat.lt_or_ge i strip.cursor with hfront | hrow
    · simp (disch := omega) only [if_pos, if_neg]
    · simp (disch := omega) only [if_pos, if_neg]
      rw [List.getElem?_append_left (by omega)]
  · rcases Nat.lt_or_ge i (strip.cursor + row.length + later.length) with hlater | hbehind
    · simp (disch := omega) only [if_pos]
      rw [List.getElem?_append_right (by omega), Nat.sub_sub]
    · rcases Nat.lt_or_ge i strip.content.length with hold | hnone
      · simp (disch := omega) only [if_pos, if_neg]
      · simp (disch := omega) only [if_neg]

/-- **Writes in turn** are one write of all pieces, if there is a first one. -/
theorem foldl_after (row : List UInt8) (pieces : List (List UInt8)) :
    (row :: pieces).foldl after strip = strip.after (row :: pieces).flatten := by
  induction pieces generalizing row with
  | nil => rw [List.foldl_cons, List.foldl_nil, List.flatten_singleton]
  | cons later pieces ih =>
    have hrows := ih (row ++ later)
    rw [List.foldl_cons] at hrows
    rw [List.foldl_cons, List.foldl_cons, after_append, hrows, List.flatten_cons,
      List.flatten_cons, List.flatten_cons, List.append_assoc]

end Strip

/-! ## Reads in turn -/

/-- **What a read delivers** to the memory of its reader. -/
def delivered : Except Fault (Nat × List UInt8) → List UInt8
  | .ok (count, memory) => memory.take count
  | .error _ => []

namespace Buffer

/-- **Reads of a stream in turn**, each into memory of its own. -/
def streamReads (b : Buffer) : List (List UInt8) → List (Except Fault (Nat × List UInt8)) × Buffer
  | [] => ([], b)
  | memory :: memories =>
    let (answer, next) := b.streamRead memory
    let (answers, last) := next.streamReads memories
    (answer :: answers, last)

/-- The buffer with its cursor behind the next bytes, as many as there are. -/
def ahead (b : Buffer) (count : Nat) : Buffer :=
  { b with offset := b.offset + min count (b.length - b.offset) }

@[simp] theorem length_ahead (b : Buffer) (count : Nat) : (b.ahead count).length = b.length := rfl

@[simp] theorem content_ahead (b : Buffer) (count : Nat) : (b.ahead count).content = b.content :=
  rfl

theorem offset_ahead (b : Buffer) (count : Nat) :
    (b.ahead count).offset = b.offset + min count (b.length - b.offset) := rfl

/-- Going ahead twice is going ahead once. -/
theorem ahead_ahead (b : Buffer) (count more : Nat) :
    (b.ahead count).ahead more = b.ahead (count + more) := by
  have hoffset : b.offset + min count (b.length - b.offset) +
      min more (b.length - (b.offset + min count (b.length - b.offset))) =
        b.offset + min (count + more) (b.length - b.offset) := by omega
  rw [ahead, ahead]
  exact congrArg (fun offset => ({ b with offset } : Buffer)) hoffset

/-- **What is to be read after some bytes** is the rest behind them. -/
theorem drop_offset_ahead {b : Buffer} (h : b.content.length = b.length) (count : Nat) :
    b.content.drop (b.ahead count).offset = b.content.drop (b.offset + count) := by
  rw [offset_ahead]
  rcases Nat.le_total count (b.length - b.offset) with hle | hge
  · rw [Nat.min_eq_left hle]
  · -- nothing is left behind the end, wherever one looks
    rw [Nat.min_eq_right hge, List.drop_of_length_le (by omega), List.drop_of_length_le (by omega)]

namespace Tidy

variable {b : Buffer}

theorem ahead (h : b.Tidy) (count : Nat) : (b.ahead count).Tidy := by
  refine h.of_eq rfl ?_
  have hlength := h.length_lt
  have hoffset := h.offset_lt
  omega

/-- **A read of a stream** never fails. It gives what is left, as far as the memory goes, and
leaves the memory behind that. -/
theorem streamRead_eq_ahead (h : b.Tidy) (memory : List UInt8) :
    b.streamRead memory =
      (.ok (min memory.length (b.length - b.offset),
        (b.content.drop b.offset).take memory.length ++ memory.drop (b.length - b.offset)),
      b.ahead memory.length) := by
  rw [streamRead]
  rcases Nat.lt_or_ge b.offset b.length with hmore | hend
  · have hleft : (b.content.drop b.offset).length = b.length - b.offset := by
      rw [List.length_drop, h.length_content]
    rw [h.read_of_lt hmore, Nat.min_comm (b.length - b.offset), Buffer.ahead]
    dsimp only
    rcases Nat.le_total memory.length (b.length - b.offset) with hle | hge
    · rw [Nat.min_eq_left hle, List.drop_length, List.drop_of_length_le hle]
    · rw [Nat.min_eq_right hge, List.take_of_length_le (by omega),
        List.take_of_length_le (by omega)]
  · rw [read_of_le hend, Buffer.ahead, Nat.sub_eq_zero_of_le hend, Nat.min_zero, List.drop_zero,
      List.drop_of_length_le (h.length_content.trans_le hend), List.take_nil, List.nil_append]
    rfl

theorem delivered_streamRead (h : b.Tidy) (memory : List UInt8) :
    delivered (b.streamRead memory).1 = (b.content.drop b.offset).take memory.length := by
  rw [h.streamRead_eq_ahead, delivered]
  have hcount : ((b.content.drop b.offset).take memory.length).length =
      min memory.length (b.length - b.offset) := by
    rw [List.length_take, List.length_drop, h.length_content]
  rw [← hcount, List.take_left]

/-- **Reads in turn go ahead** by all that they have room for. -/
theorem snd_streamReads (h : b.Tidy) (memories : List (List UInt8)) :
    (b.streamReads memories).2 = b.ahead memories.flatten.length := by
  induction memories generalizing b with
  | nil => rfl
  | cons memory memories ih =>
    rw [streamReads, h.streamRead_eq_ahead]
    dsimp only
    rw [ih (h.ahead _), ahead_ahead, List.flatten_cons, List.length_append]

/-- **Each of them reads** where those in front of it have gone. -/
theorem getElem?_streamReads (h : b.Tidy) (memories : List (List UInt8)) (i : Nat) :
    (b.streamReads memories).1[i]? =
      memories[i]?.map fun memory =>
        ((b.ahead (memories.take i).flatten.length).streamRead memory).1 := by
  induction memories generalizing b i with
  | nil => rfl
  | cons memory memories ih =>
    rw [streamReads, h.streamRead_eq_ahead]
    dsimp only
    cases i with
    | zero =>
      have hhere : b.ahead 0 = b := by rw [Buffer.ahead, Nat.zero_min, Nat.add_zero]
      rw [List.getElem?_cons_zero, List.getElem?_cons_zero, Option.map_some, List.take_zero,
        List.flatten_nil, List.length_nil, hhere, h.streamRead_eq_ahead]
    | succ i =>
      rw [List.getElem?_cons_succ, List.getElem?_cons_succ, ih (h.ahead _), List.take_succ_cons,
        List.flatten_cons, List.length_append, ahead_ahead]

/-- **What they deliver**, one behind the other, is the front of what there is to read. -/
theorem flatMap_streamReads (h : b.Tidy) (memories : List (List UInt8)) :
    (b.streamReads memories).1.flatMap delivered =
      (b.content.drop b.offset).take memories.flatten.length := by
  induction memories generalizing b with
  | nil => exact (List.take_zero).symm
  | cons memory memories ih =>
    have hfirst := h.delivered_streamRead memory
    rw [h.streamRead_eq_ahead] at hfirst
    rw [streamReads, h.streamRead_eq_ahead]
    dsimp only
    rw [List.flatMap_cons, hfirst, ih (h.ahead _), content_ahead,
      drop_offset_ahead h.length_content, ← List.drop_drop, List.flatten_cons,
      List.length_append, List.take_add]

end Tidy

/-- **A stream of reads is complete.** -/
structure Streams (b : Buffer) (memories : List (List UInt8)) : Prop where
  /-- No read fails. It gives as many bytes as its memory has room for, or all that are left
  behind the reads in front of it, and leaves the memory behind them. -/
  answers (i : Nat) : (b.streamReads memories).1[i]? = memories[i]?.map fun memory =>
    let here := (b.ahead (memories.take i).flatten.length).offset
    .ok (min memory.length (b.length - here),
      (b.content.drop here).take memory.length ++ memory.drop (b.length - here))
  /-- What is delivered is the front of what there is to read. -/
  delivered_eq : (b.streamReads memories).1.flatMap delivered =
    (b.content.drop b.offset).take memories.flatten.length
  /-- Only the cursor moves. -/
  buffer_eq : (b.streamReads memories).2 = b.ahead memories.flatten.length
  /-- If every memory has room for something, then as many reads as there are bytes deliver
  all of them. From then on each read delivers nothing, and the cursor stays at the end, or
  where it was behind it. -/
  complete : (∀ memory ∈ memories, memory ≠ []) → b.length - b.offset ≤ memories.length →
    (b.streamReads memories).1.flatMap delivered = b.content.drop b.offset ∧
      (b.streamReads memories).2 = { b with offset := max b.offset b.length } ∧
      ∀ later, (b.streamReads memories).2.streamReads later =
        (later.map fun memory => .ok (0, memory), { b with offset := max b.offset b.length })

/-- Memories with room for something have room for as many bytes as they are. -/
theorem length_le_of_ne_nil {memories : List (List UInt8)}
    (h : ∀ memory ∈ memories, memory ≠ []) : memories.length ≤ memories.flatten.length := by
  induction memories with
  | nil => exact Nat.le_refl 0
  | cons memory memories ih =>
    obtain ⟨hfirst, hothers⟩ := List.forall_mem_cons.1 h
    have hpos := List.length_pos_of_ne_nil hfirst
    have hle := ih hothers
    rw [List.length_cons, List.flatten_cons, List.length_append]
    omega

/-- A buffer with its cursor at the end or behind it delivers nothing, however often. -/
theorem streamReads_of_le {b : Buffer} (hend : b.length ≤ b.offset)
    (memories : List (List UInt8)) :
    b.streamReads memories = (memories.map fun memory => .ok (0, memory), b) := by
  induction memories with
  | nil => rfl
  | cons memory memories ih =>
    have hread : b.streamRead memory = (.ok (0, memory), b) := by
      rw [streamRead, Tidy.read_of_le hend]
    rw [streamReads, hread]
    dsimp only
    rw [ih, List.map_cons]

/-- **Every stream of reads from a tidy buffer is complete.** -/
theorem Tidy.streams {b : Buffer} (h : b.Tidy) (memories : List (List UInt8)) :
    b.Streams memories := by
  refine ⟨fun i => ?_, h.flatMap_streamReads memories, h.snd_streamReads memories,
    fun hroom hmany => ?_⟩
  · rw [h.getElem?_streamReads]
    refine Option.map_congr fun memory _ => ?_
    rw [(h.ahead _).streamRead_eq_ahead]
    rfl
  · have hall : b.length - b.offset ≤ memories.flatten.length :=
      hmany.trans (length_le_of_ne_nil hroom)
    have hlast : (b.streamReads memories).2 = { b with offset := max b.offset b.length } := by
      rw [h.snd_streamReads, Buffer.ahead, Nat.min_eq_right hall]
      exact congrArg (fun offset => ({ b with offset } : Buffer)) (by omega)
    refine ⟨?_, hlast, fun later => ?_⟩
    · rw [h.flatMap_streamReads, List.take_of_length_le]
      rw [List.length_drop, h.length_content]
      exact hall
    · rw [hlast, streamReads_of_le]
      exact Nat.le_max_right _ _

/-! ## Chunks that can be had -/

/-- **The chunks of a buffer could be had**: where there are any, they are no longer than
addresses can span. -/
def Granted (b : Buffer) : Prop := b.chunks ≠ [] → b.chunkSize < addressLimit

section Granted

variable {b : Buffer} {s : Store} {loans : Multiset Loan} {tickets : Multiset Ticket}

/-- Whether there are chunks is all that matters. -/
theorem Granted.of_length_eq {b' : Buffer} (hb : b.Granted) (hsize : b'.chunkSize = b.chunkSize)
    (hlength : b'.chunks.length = b.chunks.length) : b'.Granted := by
  intro hchunks
  rw [hsize]
  exact hb (List.ne_nil_of_length_pos (hlength ▸ List.length_pos_of_ne_nil hchunks))

/-- A buffer whose chunks cannot be had has no bytes. -/
theorem Granted.length_eq_zero (hb : b.Granted) (htidy : b.Tidy)
    (hsize : addressLimit ≤ b.chunkSize) : b.length = 0 := by
  have hchunks : b.chunks = [] := by
    by_contra hne
    exact Nat.not_lt_of_le hsize (hb hne)
  have hroom := b.le_chunksFor_mul b.length
  rw [← htidy.length_chunks, hchunks, List.length_nil, Nat.zero_mul] at hroom
  exact Nat.le_zero.1 hroom

variable (hb : b.Granted) (h : s.Sound (↑b.chunks + loans) tickets)
  (hhome : b.home < s.pools.length)
include hb h hhome

theorem granted_addChunks (count : Nat) :
    Ends (addChunks count (b, s)) (fun _ t => t.1.Granted) fun _ _ => True := by
  have hrow := ends_mapM_borrow h hhome b.chunkSize count
  rw [addChunks_eq]
  cases hresult : (List.replicate count b.chunkSize).mapM
      (fun size => Store.borrow b.home size false) s with
  | error abort t => trivial
  | ok chunks t =>
    rw [hresult] at hrow
    obtain ⟨-, hcount, -, hgranted⟩ := hrow
    intro hchunks
    rcases Nat.eq_zero_or_pos count with rfl | hpos
    · rw [List.eq_nil_of_length_eq_zero hcount, List.append_nil] at hchunks
      exact hb hchunks
    · exact hgranted hpos

theorem granted_grow (length : Nat) :
    Ends (grow length (b, s)) (fun _ t => t.1.Granted) fun _ _ => True := by
  show Ends ((if b.length < length then
      addChunks (b.chunksFor length - b.chunks.length) >>= fun _ =>
        HolderM.update fun b => ((), { b with length })
    else pure () : HolderM Buffer Unit) (b, s)) _ _
  split
  · exact Ends.bind (granted_addChunks hb h hhome _) fun _ t ht => ht
  · exact hb

theorem granted_writeAt (row : List UInt8) (offset : Nat) :
    Ends (writeAt row offset (b, s)) (fun _ t => t.1.Granted) fun _ _ => True := by
  unfold writeAt
  dsimp only
  split
  · exact hb
  · let fill (b' : Buffer) : Buffer :=
      { b' with
        chunks := Chunks.write b'.chunkSize
          (Chunks.clear b'.chunkSize b'.chunks b.length (offset - b.length)) offset row }
    show Ends ((do
      grow (offset + row.length)
      HolderM.update fun b' => ((), fill b')
      return .ok row.length : HolderM Buffer (Except Fault Nat)) (b, s)) _ _
    refine Ends.bind (granted_grow hb h hhome _) fun _ t ht => ?_
    show (fill t.1).Granted
    refine ht.of_length_eq rfl ?_
    rw [Chunks.length_write, Chunks.length_clear]

theorem granted_write (row : List UInt8) :
    Ends (write row (b, s)) (fun _ t => t.1.Granted) fun _ _ => True := by
  show Ends ((writeAt row b.offset >>= _) (b, s)) _ _
  refine Ends.bind (granted_writeAt hb h hhome row b.offset) fun result t ht => ?_
  cases result with
  | ok count => exact ht.of_length_eq rfl rfl
  | error fault => exact ht

/-- **A request leaves no chunks that could not be had.** -/
theorem granted_request (request : BufferRequest) :
    Ends (request.run (b, s)) (fun _ t => t.1.Granted) fun _ t => t.1.Granted := by
  have hstopped : Ends (request.run (b, s)) (fun _ _ => True) fun _ t => t.1.Granted :=
    (ends_request h hhome request).mono (fun _ _ _ => trivial) fun _ _ ht => ht.2.1 ▸ hb
  have hmoved {b' : Buffer} {offset : Nat} (heq : b' = { b with offset }) : b'.Granted := by
    rw [heq]
    exact hb
  refine ((?_ : Ends _ (fun _ t => t.1.Granted) fun _ _ => True).and hstopped).mono
    (fun _ _ ht => ht.1) fun _ _ ht => ht.2
  cases request with
  | write row stream => exact (granted_write hb h hhome row).map fun _ _ ht => ht
  | writeAt row offset => exact (granted_writeAt hb h hhome row offset).map fun _ _ ht => ht
  | read limit stream =>
    cases stream with
    | false => exact hmoved (b.read_eq _)
    | true => exact hmoved ((b.streamRead_snd _).trans (b.read_eq _))
  | readAll => exact hmoved (b.streamReadAll_snd.trans (b.read_eq _))
  | seek origin delta stream => exact hmoved (b.seek_eq origin delta)
  | _ => exact hb

end Granted

end Buffer

end Wirepool
