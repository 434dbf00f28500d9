import Mathlib.Tactic.Common
import Wirepool.Proofs.Buffer.Chunks
import Wirepool.Proofs.Buffer.Sound

/-!
# A buffer is a strip of bytes

Whoever uses a buffer sees a plain row of bytes with a cursor, called a *strip*
here. It knows nothing of chunks, pools, or the bytes that earlier borrowers have
left behind. Every request says what it does to a strip, and a buffer does the
same to the strip it shows.

Three facts about a buffer carry this. There are as many chunks as its length
needs, each of them has the size of a chunk, and length and cursor are 64-bit
numbers. What stands behind the end is whatever it is: a write clears all of it
that it makes part of the buffer and does not write itself.
-/

namespace Wirepool

/-- **A plain row of bytes with a cursor.** -/
structure Strip where
  content : List UInt8 := []
  cursor : Nat := 0

namespace Strip

/-- The content, with zeros behind it up to a length. -/
def reaching (strip : Strip) (length : Nat) : List UInt8 :=
  strip.content ++ List.replicate (length - strip.content.length) 0

/-- A write at a position. -/
def writeAt (strip : Strip) (row : List UInt8) (offset : Nat) : Except Fault Nat × Strip :=
  if wordLimit ≤ offset + row.length then (.error .invalidOffset, strip)
  else (.ok row.length,
    { strip with content := splice (strip.reaching (offset + row.length)) offset row })

/-- A write at the cursor, which it moves. -/
def write (strip : Strip) (row : List UInt8) : Except Fault Nat × Strip :=
  match strip.writeAt row strip.cursor with
  | (.ok count, written) => (.ok count, { written with cursor := strip.cursor + count })
  | (.error fault, _) => (.error fault, strip)

/-- A read into memory, which stays as it is behind what was read. -/
def readInto (strip : Strip) (offset : Nat) (memory : List UInt8) :
    Except Fault (Nat × List UInt8) :=
  if strip.content.length ≤ offset then .error .endOfData
  else
    let count := min (strip.content.length - offset) memory.length
    .ok (count, (strip.content.drop offset).take count ++ memory.drop count)

/-- A read at the cursor, which it moves. -/
def read (strip : Strip) (memory : List UInt8) : Except Fault (Nat × List UInt8) × Strip :=
  match strip.readInto strip.cursor memory with
  | .ok (count, memory) => (.ok (count, memory), { strip with cursor := strip.cursor + count })
  | .error fault => (.error fault, strip)

/-- A read as by a stream: nothing is delivered at the end. -/
def streamRead (strip : Strip) (memory : List UInt8) : Except Fault (Nat × List UInt8) × Strip :=
  if strip.content.length ≤ strip.cursor then (.ok (0, memory), strip) else strip.read memory

/-- A read of everything from the cursor on. -/
def readAll (strip : Strip) : List UInt8 × Strip :=
  (strip.content.drop strip.cursor,
    { strip with cursor := max strip.cursor strip.content.length })

/-- A move of the cursor. -/
def seek (strip : Strip) (origin : Origin) (delta : Int) : Except Fault Nat × Strip :=
  let base : Nat := match origin with
    | .start => 0
    | .current => strip.cursor
    | .ending => strip.content.length
  let target := base + delta
  if 0 ≤ target ∧ target < wordLimit then (.ok target.toNat, { strip with cursor := target.toNat })
  else (.error .invalidOffset, strip)

open BufferRequest in
/-- **What a strip makes of a request.** It cannot say what the parts of a window
are, as it has none. -/
def request (strip : Strip) : BufferRequest → Option BufferOutcome × Strip
  | .write row stream => ((strip.write row).map (fun r => some (wrote stream r)) id)
  | .writeAt row offset => ((strip.writeAt row offset).map (fun r => some (wrote false r)) id)
  | .read limit false =>
    (strip.read (readerMemory limit)).map (fun r => some (haveRead false r)) id
  | .read limit true =>
    (strip.streamRead (readerMemory limit)).map (fun r => some (haveRead true r)) id
  | .readAt limit offset =>
    (some (haveRead false (strip.readInto offset (readerMemory limit))), strip)
  | .readAll => strip.readAll.map (fun row => some (haveReadAll (.ok row))) id
  | .seek origin delta stream =>
    (strip.seek origin delta).map (fun r => some (sought stream r)) id
  | .flush => (some (.reply (.count 0)), strip)
  | .range _ _ => (none, strip)

end Strip

namespace Buffer

variable {b : Buffer}

/-- **The strip that a buffer shows.** -/
def strip (b : Buffer) : Strip := ⟨b.content, b.offset⟩

/-- **A buffer is tidy.** -/
structure Tidy (b : Buffer) : Prop where
  /-- There are as many chunks as the length needs. -/
  length_chunks : b.chunks.length = b.chunksFor b.length
  /-- They are of one size. -/
  even : Chunks.Even b.chunkSize b.chunks
  length_lt : b.length < wordLimit
  offset_lt : b.offset < wordLimit

/-- Enough chunks are those that a length needs. -/
theorem le_chunksFor_mul (b : Buffer) (length : Nat) :
    length ≤ b.chunksFor length * b.chunkSize := by
  have hdiv := Nat.div_add_mod (length + b.chunkSize - 1) b.chunkSize
  have hmod := Nat.mod_lt (length + b.chunkSize - 1) b.chunkSize_pos
  rw [chunksFor, Nat.mul_comm]
  omega

/-- A greater length needs no fewer chunks. -/
theorem chunksFor_le {length length' : Nat} (h : length ≤ length') :
    b.chunksFor length ≤ b.chunksFor length' :=
  Nat.div_le_div_right (by omega)

/-- A new buffer is tidy. -/
theorem tidy_new {home chunkSize : Nat} (h : 0 < chunkSize) :
    Tidy { home, chunkSize, chunkSize_pos := h } := by
  refine ⟨?_, nofun, Nat.two_pow_pos 64, Nat.two_pow_pos 64⟩
  show 0 = (0 + chunkSize - 1) / chunkSize
  rw [Nat.zero_add, Nat.div_eq_of_lt (Nat.sub_one_lt_of_lt h)]

namespace Tidy

/-- The chunks have room for all bytes. -/
theorem length_le (h : b.Tidy) : b.length ≤ (Chunks.joined b.chunks).length := by
  rw [h.even.length_joined, h.length_chunks]
  exact b.le_chunksFor_mul b.length

/-- **The content** is the front of the bytes of the chunks. -/
theorem content_eq (h : b.Tidy) : b.content = (Chunks.joined b.chunks).take b.length := by
  rw [content, h.even.flatMap_parts, List.drop_zero]

theorem length_content (h : b.Tidy) : b.content.length = b.length := by
  rw [h.content_eq, List.length_take_of_le h.length_le]

/-! ## Reading -/

/-- What is read in front of the end is a stretch of the content. -/
theorem flatMap_parts (h : b.Tidy) {offset count : Nat} (hfit : offset + count ≤ b.length) :
    (Chunks.parts b.chunkSize 0 b.chunks offset count).flatMap Chunks.Part.bytes =
      (b.content.drop offset).take count := by
  rw [h.even.flatMap_parts, h.content_eq, List.drop_take, List.take_take,
    Nat.min_eq_left (Nat.le_sub_of_add_le' hfit)]

/-- **A read into memory** is that of the strip. -/
theorem readInto_eq (h : b.Tidy) (offset : Nat) (memory : List UInt8) :
    b.readInto offset memory = b.strip.readInto offset memory := by
  rw [readInto, readAt, Strip.readInto, strip, h.length_content]
  by_cases hend : b.length ≤ offset
  · rw [if_pos hend, if_pos hend]
    rfl
  · have hfit : offset + min (b.length - offset) memory.length ≤ b.length := by omega
    have hcount : ((b.content.drop offset).take (min (b.length - offset) memory.length)).length =
        min (b.length - offset) memory.length := by
      rw [List.length_take_of_le]
      rw [List.length_drop, h.length_content]
      exact Nat.min_le_left _ _
    rw [if_neg hend, if_neg hend, h.flatMap_parts hfit]
    show Except.ok (_, _) = _
    rw [hcount]

/-- **A read at the cursor** is that of the strip. -/
theorem read_eq (h : b.Tidy) (memory : List UInt8) :
    (b.read memory).map id strip = b.strip.read memory := by
  rw [read, Strip.read, h.readInto_eq]
  show _ = match b.strip.readInto b.offset memory with
    | .ok (count, memory) => _
    | .error fault => _
  cases b.strip.readInto b.offset memory with
  | ok answer => rfl
  | error fault => rfl

/-- Behind the end there is nothing to read. -/
theorem read_of_le (hend : b.length ≤ b.offset) (memory : List UInt8) :
    b.read memory = (.error .endOfData, b) := by
  rw [read, readInto, readAt, if_pos hend]
  rfl

/-- In front of the end there is. -/
theorem read_of_lt (h : b.Tidy) (hmore : b.offset < b.length) (memory : List UInt8) :
    b.read memory =
      (.ok (min (b.length - b.offset) memory.length,
        (b.content.drop b.offset).take (min (b.length - b.offset) memory.length) ++
          memory.drop (min (b.length - b.offset) memory.length)),
        { b with offset := b.offset + min (b.length - b.offset) memory.length }) := by
  rw [read, h.readInto_eq, Strip.readInto, if_neg]
  · rw [strip, h.length_content]
  · rw [strip, h.length_content]
    exact Nat.not_le_of_lt hmore

/-- **A read as by a stream** is that of the strip. -/
theorem streamRead_eq (h : b.Tidy) (memory : List UInt8) :
    (b.streamRead memory).map id strip = b.strip.streamRead memory := by
  have hread := h.read_eq memory
  rw [streamRead, Strip.streamRead]
  show _ = if b.content.length ≤ b.offset then _ else _
  rw [h.length_content]
  by_cases hend : b.length ≤ b.offset
  · rw [if_pos hend, read_of_le hend]
    rfl
  · rw [if_neg hend, ← hread, h.read_of_lt (Nat.lt_of_not_le hend)]

/-- **A read to the end** is that of the strip. -/
theorem streamReadAll_eq (h : b.Tidy) :
    b.streamReadAll.map id strip = b.strip.readAll.map Except.ok id := by
  rw [streamReadAll, streamRead, Strip.readAll]
  by_cases hend : b.length ≤ b.offset
  · have hlength : b.strip.content.length ≤ b.strip.cursor := h.length_content.symm ▸ hend
    rw [read_of_le hend, List.drop_eq_nil_of_le hlength, Nat.max_eq_left hlength]
    rfl
  · -- the memory is as long as what there is, so all of it is delivered
    have hmore : b.offset < b.length := Nat.lt_of_not_le hend
    have hrow : (b.content.drop b.offset).length = b.length - b.offset := by
      rw [List.length_drop, h.length_content]
    have hcursor : b.offset + (b.length - b.offset) = max b.offset b.content.length := by
      rw [h.length_content, Nat.add_sub_of_le (Nat.le_of_lt hmore),
        Nat.max_eq_right (Nat.le_of_lt hmore)]
    rw [h.read_of_lt hmore, List.length_replicate, Nat.min_self, List.drop_replicate, Nat.sub_self,
      List.replicate_zero, List.append_nil]
    show (Except.ok (((b.content.drop b.offset).take _).take _), Strip.mk b.content _) =
      (Except.ok (b.content.drop b.offset), Strip.mk b.content _)
    rw [List.take_take, Nat.min_self, List.take_of_length_le (Nat.le_of_eq hrow), hcursor]
    rfl

/-- **A move of the cursor** is that of the strip. -/
theorem seek_eq (h : b.Tidy) (origin : Origin) (delta : Int) :
    (b.seek origin delta).map id strip = b.strip.seek origin delta := by
  have hlength : b.strip.content.length = b.length := h.length_content
  have hcursor : b.strip.cursor = b.offset := rfl
  unfold Buffer.seek Strip.seek
  rw [hlength, hcursor]
  cases origin <;> dsimp only <;> split <;> rfl

/-- Whatever leaves all but the cursor leaves a buffer tidy. -/
theorem of_eq {b' : Buffer} {offset : Nat} (h : b.Tidy) (heq : b' = { b with offset })
    (hoffset : offset < wordLimit) : b'.Tidy := by
  rw [heq]
  exact ⟨h.length_chunks, h.even, h.length_lt, hoffset⟩

/-! ## Writing -/

section Written

/-- **Whatever stands behind the end of a row**, clearing the gap in front of a
stretch and then writing the stretch is the same as putting zeros behind the end
and writing the stretch. -/
theorem take_splice_splice {memory row : List UInt8} {length offset : Nat}
    (hlength : length ≤ memory.length) (hfinish : offset + row.length ≤ memory.length) :
    (splice (splice memory length (List.replicate (offset - length) 0)) offset row).take
        (max length (offset + row.length)) =
      splice (memory.take length ++ List.replicate (offset + row.length - length) 0) offset
        row := by
  have hcleared : (splice memory length (List.replicate (offset - length) 0)).length =
      memory.length := length_splice (by rw [List.length_replicate]; omega)
  have hold : (memory.take length).length = length := List.length_take_of_le hlength
  have hfront : offset ≤
      (memory.take length ++ List.replicate (offset + row.length - length) 0).length := by
    rw [List.length_append, hold, List.length_replicate]
    omega
  -- byte by byte: in the stretch, in front of the old end, in the gap, or behind all
  apply List.ext_getElem?
  intro i
  rw [List.getElem?_take, getElem?_splice (by omega), getElem?_splice hlength,
    getElem?_splice hfront, List.getElem?_append, hold, List.length_replicate,
    List.getElem?_replicate, List.getElem?_replicate]
  by_cases hwindow : offset ≤ i ∧ i < offset + row.length
  · rw [if_pos (by omega), if_pos hwindow, if_pos hwindow]
  · rw [if_neg hwindow, if_neg hwindow]
    rcases Nat.lt_or_ge i length with hin | hout
    · rw [if_pos (by omega), if_neg (by omega), if_pos hin, List.getElem?_take_of_lt hin]
    · rw [if_neg (Nat.not_lt_of_le hout)]
      rcases Nat.lt_or_ge i offset with hbefore | hbehind
      · -- a byte of the gap
        rw [if_pos (by omega), if_pos (by omega), if_pos (by omega), if_pos (by omega)]
      · rw [if_neg (by omega), if_neg (by omega)]

variable {row : List UInt8} {offset : Nat} {added : List Loan}

/-- The chunks of a buffer, with those that were added for a write. -/
theorem length_grown (h : b.Tidy) (hcount : added.length = b.missing (offset + row.length)) :
    (b.chunks ++ added).length = b.chunksFor (max b.length (offset + row.length)) := by
  rw [List.length_append, hcount, missing, h.length_chunks]
  by_cases hlength : b.length < offset + row.length
  · rw [if_pos hlength, Nat.max_eq_right (Nat.le_of_lt hlength),
      Nat.add_sub_of_le (chunksFor_le (Nat.le_of_lt hlength))]
  · rw [if_neg hlength, Nat.max_eq_left (Nat.le_of_not_lt hlength), Nat.add_zero]

/-- A write leaves a buffer tidy. -/
theorem written (h : b.Tidy) (hadded : Chunks.Even b.chunkSize added)
    (hcount : added.length = b.missing (offset + row.length))
    (hlimit : offset + row.length < wordLimit) : (b.written row offset added).Tidy := by
  refine ⟨?_, ((h.even.append hadded).clear _ _).write _ _, Nat.max_lt.mpr ⟨h.length_lt, hlimit⟩,
    h.offset_lt⟩
  show (Chunks.write _ _ _ _).length = _
  rw [Chunks.length_write, Chunks.length_clear, h.length_grown hcount]
  rfl

/-- **A write** is that of the strip: whatever the chunks held behind the end, the
gap is zero afterwards, and all that is not written is as before. -/
theorem content_written (h : b.Tidy) (hadded : Chunks.Even b.chunkSize added)
    (hcount : added.length = b.missing (offset + row.length))
    (hlimit : offset + row.length < wordLimit) :
    (b.written row offset added).content =
      splice (b.strip.reaching (offset + row.length)) offset row := by
  have heven := h.even.append hadded
  -- with the chunks that were added there is room for the old bytes and the new ones
  have hroom : max b.length (offset + row.length) ≤ (Chunks.joined (b.chunks ++ added)).length := by
    rw [heven.length_joined, h.length_grown hcount]
    exact b.le_chunksFor_mul _
  obtain ⟨hlength, hfinish⟩ := Nat.max_le.mp hroom
  have hgap : b.length + (offset - b.length) ≤ (Chunks.joined (b.chunks ++ added)).length := by
    omega
  have hcleared := heven.joined_clear hgap
  have hlength_cleared : (Chunks.joined (Chunks.clear b.chunkSize (b.chunks ++ added) b.length
      (offset - b.length))).length = (Chunks.joined (b.chunks ++ added)).length := by
    rw [hcleared, length_splice (by rwa [List.length_replicate])]
  have hcontent : b.content = (Chunks.joined (b.chunks ++ added)).take b.length := by
    rw [h.content_eq, Chunks.joined_append, List.take_append_of_le_length h.length_le]
  have hend : b.strip.content.length = b.length := h.length_content
  rw [(h.written hadded hcount hlimit).content_eq]
  show ((Chunks.joined (Chunks.write _ (Chunks.clear _ _ _ _) _ _)).take
    (max b.length (offset + row.length))) = splice (b.content ++ List.replicate _ 0) _ _
  rw [(heven.clear _ _).joined_write (hlength_cleared ▸ hfinish), hcleared,
    take_splice_splice hlength hfinish, ← hcontent, hend]

end Written

end Tidy

/-! ## Requests -/

section Requests

variable {s : Store} {loans : Multiset Loan} {tickets : Multiset Ticket}

/-- Chunks that a store in order has lent for a write are of the size of a chunk. -/
theorem even_added {row : List UInt8} {offset : Nat} {added : List Loan} {t : Store}
    (h : t.Sound (↑(b.written row offset added).chunks + loans) tickets)
    (hlen : ∀ chunk ∈ added, chunk.len = b.chunkSize) : Chunks.Even b.chunkSize added := by
  intro chunk hchunk
  have hterms : (b.written row offset added).chunks.map Loan.terms =
      (b.chunks ++ added).map Loan.terms := by
    rw [written, Chunks.terms_write, Chunks.terms_clear]
  have hmem : chunk.terms ∈ (b.written row offset added).chunks.map Loan.terms :=
    hterms ▸ List.mem_map_of_mem (List.mem_append_right _ hchunk)
  obtain ⟨filled, hfilled, heq⟩ := List.mem_map.mp hmem
  have hfit := h.fit filled (Multiset.mem_add.mpr (.inl hfilled))
  rw [heq, Terms.Fit, Loan.len_terms, Loan.capacity_terms] at hfit
  rw [Loan.length_view, Nat.min_eq_left hfit, hlen chunk hchunk]

/-- **A buffer follows a strip**: it is tidy, shows the strip, and has given the
answer that the strip gives, if that has one. -/
def Follows (b : Buffer) (answer : Option BufferOutcome × Strip) (outcome : BufferOutcome)
    (t : Buffer) : Prop :=
  t.Tidy ∧ t.chunkSize = b.chunkSize ∧ t.strip = answer.2 ∧
    ∀ expected ∈ answer.1, outcome = expected

/-- What moves at most the cursor follows the strip that it shows. -/
theorem Tidy.follows_of_eq {t : Buffer} {offset : Nat} (h : b.Tidy) (heq : t = { b with offset })
    (hoffset : t.offset < wordLimit) (outcome : BufferOutcome) :
    b.Follows (some outcome, t.strip) outcome t := by
  refine ⟨h.of_eq heq ?_, ?_, rfl, fun expected hexpected => Option.some.inj hexpected⟩
  · rw [heq] at hoffset
    exact hoffset
  · rw [heq]

/-- What has been written follows the strip. -/
theorem Tidy.follows_written (h : b.Tidy) {row : List UInt8} {offset cursor : Nat}
    {added : List Loan} {t : Store} (hlimit : offset + row.length < wordLimit)
    (hcursor : cursor < wordLimit)
    (hcount : added.length = b.missing (offset + row.length))
    (hlen : ∀ chunk ∈ added, chunk.len = b.chunkSize)
    (hsound : t.Sound (↑(b.written row offset added).chunks + loans) tickets)
    (outcome : BufferOutcome) :
    b.Follows (some outcome, ⟨splice (b.strip.reaching (offset + row.length)) offset row, cursor⟩)
      outcome { b.written row offset added with offset := cursor } := by
  have hadded := even_added hsound hlen
  refine ⟨(h.written hadded hcount hlimit).of_eq rfl hcursor, rfl, ?_,
    fun expected hexpected => Option.some.inj hexpected⟩
  show Strip.mk (b.written row offset added).content cursor = _
  rw [h.content_written hadded hcount hlimit]

/-- A read leaves the cursor at a position. -/
theorem Tidy.offset_read_lt (h : b.Tidy) (memory : List UInt8) :
    (b.read memory).2.offset < wordLimit := by
  rcases Nat.lt_or_ge b.offset b.length with hmore | hend
  · rw [h.read_of_lt hmore]
    have hle : b.offset + min (b.length - b.offset) memory.length ≤ b.length := by omega
    exact Nat.lt_of_le_of_lt hle h.length_lt
  · rw [Tidy.read_of_le hend]
    exact h.offset_lt

/-- So does a seek. -/
theorem Tidy.offset_seek_lt (h : b.Tidy) (origin : Origin) (delta : Int) :
    (b.seek origin delta).2.offset < wordLimit := by
  have htarget (target : Int) : (if 0 ≤ target ∧ target < wordLimit then
      ((.ok target.toNat, { b with offset := target.toNat }) : Except Fault Nat × Buffer)
      else (.error .invalidOffset, b)).2.offset < wordLimit := by
    split
    · next hrange => exact (Int.toNat_lt hrange.1).mpr hrange.2
    · exact h.offset_lt
  cases origin <;> exact htarget _

/-- **Every request** does to a buffer what it does to the strip, if a chunk can
be had. Otherwise the buffer is as before. -/
theorem Tidy.ends_request (h : b.Tidy) (hstore : s.Sound (↑b.chunks + loans) tickets)
    (hhome : b.home < s.pools.length) (request : BufferRequest) :
    Ends (request.run (b, s)) (fun outcome t => b.Follows (b.strip.request request) outcome t.1)
      fun _ t => t.1 = b ∧ addressLimit ≤ b.chunkSize := by
  have hrefused (outcome : BufferOutcome) : b.Follows (some outcome, b.strip) outcome b :=
    ⟨h, rfl, rfl, fun expected hexpected => Option.some.inj hexpected⟩
  cases request with
  | write row stream =>
    refine ((ends_write hstore hhome row).mono (fun _ _ ht => ht)
      fun _ _ ht => ⟨ht.2.1, ht.2.2.2⟩).map fun result t ht => ?_
    have hcursor : b.strip.cursor = b.offset := rfl
    rw [Strip.request, Strip.write, Strip.writeAt, hcursor]
    cases ht with
    | refused hlimit =>
      rw [if_pos hlimit]
      exact hrefused _
    | written hlimit hcount hlen hleads =>
      rw [if_neg (Nat.not_le_of_lt hlimit)]
      exact h.follows_written hlimit hlimit hcount hlen hleads.1 _
  | writeAt row offset =>
    refine ((ends_writeAt hstore hhome row offset).mono (fun _ _ ht => ht)
      fun _ _ ht => ⟨ht.2.1, ht.2.2.2⟩).map fun result t ht => ?_
    rw [Strip.request, Strip.writeAt]
    cases ht with
    | refused hlimit =>
      rw [if_pos hlimit]
      exact hrefused _
    | written hlimit hcount hlen hleads =>
      rw [if_neg (Nat.not_le_of_lt hlimit)]
      exact h.follows_written hlimit h.offset_lt hcount hlen hleads.1 _
  | read limit stream =>
    cases stream with
    | false =>
      have hread := h.read_eq (BufferRequest.readerMemory limit)
      rw [Strip.request, ← hread]
      exact h.follows_of_eq (b.read_eq _) (h.offset_read_lt _) _
    | true =>
      have hread := h.streamRead_eq (BufferRequest.readerMemory limit)
      have hsnd := b.streamRead_snd (BufferRequest.readerMemory limit)
      rw [Strip.request, ← hread]
      refine h.follows_of_eq (hsnd.trans (b.read_eq _)) ?_ _
      exact hsnd ▸ h.offset_read_lt _
  | readAt limit offset =>
    rw [Strip.request, ← h.readInto_eq]
    exact hrefused _
  | readAll =>
    have hrow : b.streamReadAll.1 = .ok b.strip.readAll.1 := congrArg Prod.fst h.streamReadAll_eq
    have hstrip : b.streamReadAll.2.strip = b.strip.readAll.2 :=
      congrArg Prod.snd h.streamReadAll_eq
    have hsnd := b.streamReadAll_snd
    show b.Follows (some (BufferRequest.haveReadAll (.ok b.strip.readAll.1)), b.strip.readAll.2)
      (BufferRequest.haveReadAll b.streamReadAll.1) b.streamReadAll.2
    rw [← hrow, ← hstrip]
    refine h.follows_of_eq (hsnd.trans (b.read_eq _)) ?_ _
    exact hsnd ▸ h.offset_read_lt _
  | seek origin delta stream =>
    rw [Strip.request, ← h.seek_eq]
    exact h.follows_of_eq (b.seek_eq _ _) (h.offset_seek_lt _ _) _
  | flush => exact hrefused _
  | range offset count => exact ⟨h, rfl, rfl, nofun⟩

end Requests

/-! ## What is seen of a buffer -/

/-- **A buffer shows a strip.** -/
structure Shows (b : Buffer) (strip : Strip) : Prop where
  content_eq : b.content = strip.content
  length_eq : b.length = strip.content.length
  offset_eq : b.offset = strip.cursor
  /-- Length and cursor are 64-bit numbers, so no sum of them is cut off. -/
  length_lt : b.length < wordLimit
  offset_lt : b.offset < wordLimit
  /-- Reads are those of the strip, whatever the memory that is read into. -/
  readInto_eq : ∀ offset memory, b.readInto offset memory = strip.readInto offset memory
  read_eq : ∀ memory, (b.read memory).map id Buffer.strip = strip.read memory
  /-- A loop over any window in the buffer finds a chunk at every turn, and the
  part that it takes of it lies in the chunk. -/
  turn : ∀ position count, 0 < count → position + count ≤ b.length →
    let within := position % b.chunkSize
    let here := min (b.chunkSize - within) count
    ∃ chunk, b.chunks[position / b.chunkSize]? = some chunk ∧
      within + here ≤ chunk.view.length ∧ 0 < here ∧
      Chunks.parts b.chunkSize 0 b.chunks position count =
        ⟨position / b.chunkSize, within, (chunk.view.drop within).take here⟩ ::
          Chunks.parts b.chunkSize 0 b.chunks (position + here) (count - here)

/-- A tidy buffer shows its strip. -/
theorem Tidy.shows (h : b.Tidy) : b.Shows b.strip := by
  refine ⟨rfl, h.length_content.symm, rfl, h.length_lt, h.offset_lt, h.readInto_eq, h.read_eq,
    fun position count hcount hfit => ?_⟩
  have hroom : position + count ≤ b.chunks.length * b.chunkSize := by
    rw [← h.even.length_joined]
    exact Nat.le_trans hfit h.length_le
  have hwithin := Nat.mod_lt position b.chunkSize_pos
  obtain ⟨chunk, hchunk, hparts⟩ := Chunks.parts_eq_cons b.chunkSize_pos 0 hcount hroom
  rw [Loan.read_eq_view, Nat.zero_add] at hparts
  refine ⟨chunk, hchunk, ?_, ?_, hparts⟩
  · rw [h.even chunk (List.mem_of_getElem? hchunk)]
    omega
  · omega

end Buffer

end Wirepool
