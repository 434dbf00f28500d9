import Wirepool.Proofs.Buffer.Streaming
import Wirepool.Proofs.Session.Growth

/-!
# Streams in a session

Reading a stream needs nothing but the buffer, so a row of reads in a session is the row of
reads on the buffer. A row of writes needs chunks on its way, and here a buffer has a chunk
size for which memory can be had or one for which it cannot. In the first case every piece
is written. In the second one there are no bytes and there never will be, and no write moves
the cursor, whether it is stopped or, at the start of the buffer, asks for nothing. So there
is no third case, in which the first pieces would be written and a later one would not.
-/

namespace Wirepool

namespace Session

variable {s : Session} {name : String} {b : Buffer}

/-! ## Reads -/

/-- The commands that read a stream in turn, each as far as a limit. -/
def streamReads (name : String) (limits : List Nat) : List Command :=
  limits.map fun limit => .buffer (.request name (.read limit true))

/-- **Reads in a session** are the reads on the buffer. -/
theorem play_streamReads (hb : s.buffers.get? name = some b) (limits : List Nat) :
    (s.play (streamReads name limits)).2.buffers.get? name =
        some (b.streamReads (limits.map BufferRequest.readerMemory)).2 ∧
      List.Forall₂ (fun answer seen =>
          ∃ info, seen.answer = .request (BufferRequest.haveRead true answer) info)
        (b.streamReads (limits.map BufferRequest.readerMemory)).1
        (s.play (streamReads name limits)).1 := by
  induction limits generalizing s b with
  | nil => exact ⟨hb, .nil⟩
  | cons limit limits ih =>
    let next := (b.streamRead (BufferRequest.readerMemory limit)).2
    have hstep : s.step (.buffer (.request name (.read limit true))) =
        (.request (BufferRequest.haveRead true
          (b.streamRead (BufferRequest.readerMemory limit)).1) next.info,
        { s with buffers := s.buffers.put name next }) := by
      show s.expect (s.buffers.get? name) _ = _
      rw [hb]
      rfl
    have hnext : (s.step (.buffer (.request name (.read limit true)))).2.buffers.get? name =
        some next := by
      rw [hstep]
      exact Table.get?_put_self _ _ _
    obtain ⟨hlast, hanswers⟩ := ih hnext
    exact ⟨hlast, .cons ⟨next.info, congrArg Prod.fst hstep⟩ hanswers⟩

/-! ## Chunks that can be had -/

/-- A request to a buffer runs on it and the store. -/
theorem step_request_run (hb : s.buffers.get? name = some b) (request : BufferRequest)
    {good : Buffer × Store → Prop}
    (h : Ends (request.run (b, s.store)) (fun _ => good) fun _ => good) :
    ∃ t, good t ∧ (s.step (.buffer (.request name request))).2 =
      { s with store := t.2, buffers := s.buffers.put name t.1 } := by
  unfold step bufferStep expect
  dsimp only
  rw [hb]
  dsimp only
  cases hresult : request.run (b, s.store) with
  | ok outcome t =>
    rw [hresult] at h
    exact ⟨t, h, rfl⟩
  | error abort t =>
    rw [hresult] at h
    exact ⟨t, h, rfl⟩

/-- **In every session that can be reached** the chunks of a buffer could be had. -/
theorem granted_play {commands : List Command}
    (hb : (({} : Session).play commands).2.buffers.get? name = some b) : b.Granted := by
  induction commands using List.reverseRecOn generalizing b with
  | nil => cases hb
  | append_singleton commands command ih =>
    have hsound := sound_play commands
    rw [play_concat] at hb
    by_cases hrequest : ∃ request, command = .buffer (.request name request)
    · obtain ⟨request, rfl⟩ := hrequest
      cases hbefore : (({} : Session).play commands).2.buffers.get? name with
      | none =>
        rw [step_request_of_none hbefore] at hb
        cases hbefore.symm.trans hb
      | some before =>
        have hmem := Table.mem_values_of_get? hbefore
        obtain ⟨others, hstore⟩ := hsound.store_of_buffer hmem
        obtain ⟨t, hgranted, hstep⟩ := step_request_run hbefore request
          (Buffer.granted_request (ih hbefore) hstore (hsound.buffers_lt before hmem) request)
        rw [hstep, show Table.get? _ name = some t.1 from Table.get?_put_self _ _ _] at hb
        exact Option.some.inj hb ▸ hgranted
    · -- whatever is no request begins the buffer or gives it nothing
      rcases hsound.buffer_step hb with ⟨-, hnew⟩ | ⟨-, before, hbefore, hcontinues⟩
      · exact fun hchunks => absurd hnew.received_eq.symm
          (Nat.ne_of_gt (List.length_pos_of_ne_nil hchunks))
      · refine (ih hbefore).of_length_eq hcontinues.chunkSize_eq ?_
        rw [hcontinues.length_chunks, receives_of_ne fun request heq => hrequest ⟨request, heq⟩,
          Nat.add_zero]

/-! ## Writes -/

/-- The commands that write pieces to a stream in turn. -/
def streamWrites (name : String) (pieces : List (List UInt8)) : List Command :=
  pieces.map fun piece => .buffer (.request name (.write piece true))

/-- **What comes of pieces written to a buffer `b`**, if the answers are `seen` and the buffer
is `t` afterwards. -/
def Writes (b : Buffer) (pieces : List (List UInt8)) (seen : List Answer) (t : Buffer) : Prop :=
  t.Tidy ∧ t.chunkSize = b.chunkSize ∧
    (b.chunkSize < addressLimit ∧ t.strip = pieces.foldl Strip.after b.strip ∧
        List.Forall₂ (fun piece answer =>
          ∃ info, answer = .request (.reply (.count piece.length)) info) pieces seen ∨
      addressLimit ≤ b.chunkSize ∧ t.strip = b.strip)

/-- **A piece** is written, or there is no memory and the buffer shows what it has shown. -/
theorem writes_step {commands : List Command} (piece : List UInt8)
    (hb : (({} : Session).play commands).2.buffers.get? name = some b)
    (hlimit : b.offset + piece.length < wordLimit) :
    let step := (({} : Session).play commands).2.step (.buffer (.request name (.write piece true)))
    ∃ t, step.2.buffers.get? name = some t ∧ Writes b [piece] [step.1] t := by
  intro step
  have htidy : b.Tidy := (supplied_play hb).toTidy
  obtain ⟨outcome, t, u, hstep, hfollows⟩ :=
    (sound_play commands).request hb htidy (.write piece true)
  have ht : step.2.buffers.get? name = some t := by
    rw [show step = _ from hstep]
    exact Table.get?_put_self _ _ _
  have hreached : (({} : Session).play (commands ++
      [.buffer (.request name (.write piece true))])).2.buffers.get? name = some t := by
    rw [play_concat]
    exact ht
  have htidy' : t.Tidy := (supplied_play hreached).toTidy
  refine ⟨t, ht, htidy', ?_⟩
  rcases hfollows with ⟨-, hsize, hstrip, houtcome⟩ | ⟨rfl, hlarge⟩
  · refine ⟨hsize, ?_⟩
    have hwrite := b.strip.write_eq_after hlimit
    rw [Strip.request, hwrite] at hstrip houtcome
    have hafter : t.strip = b.strip.after piece := hstrip
    rcases Nat.lt_or_ge b.chunkSize addressLimit with hsmall | hlarge
    · have hanswer : step.1 = .request (.reply (.count piece.length)) t.info := by
        rw [show step = _ from hstep]
        exact congrArg (Answer.request · t.info) (houtcome _ rfl)
      exact .inl ⟨hsmall, hafter, .cons ⟨t.info, hanswer⟩ .nil⟩
    · -- the buffer is empty before and after, so nothing was asked for
      have hbefore := (granted_play hb).length_eq_zero htidy hlarge
      have hnow := (granted_play hreached).length_eq_zero htidy' (hsize ▸ hlarge)
      have hlength := b.strip.length_content_after piece
      rw [← hafter] at hlength
      change t.content.length = max b.content.length (b.offset + piece.length) at hlength
      rw [htidy'.length_content, htidy.length_content, hnow, hbefore] at hlength
      have hoffset : t.offset = b.offset + piece.length := congrArg Strip.cursor hafter
      refine .inr ⟨hlarge, congrArg₂ Strip.mk ?_ (by omega)⟩
      rw [List.eq_nil_of_length_eq_zero (htidy'.length_content.trans hnow),
        List.eq_nil_of_length_eq_zero (htidy.length_content.trans hbefore)]
  · exact ⟨rfl, .inr ⟨hlarge, rfl⟩⟩

/-- **Pieces in turn** are written one behind the other, or none is. -/
theorem writes_play {commands : List Command} (pieces : List (List UInt8))
    (hb : (({} : Session).play commands).2.buffers.get? name = some b)
    (hlimit : b.offset + pieces.flatten.length < wordLimit) :
    let played := (({} : Session).play commands).2.play (streamWrites name pieces)
    ∃ t, played.2.buffers.get? name = some t ∧
      Writes b pieces (played.1.map Seen.answer) t := by
  induction pieces generalizing commands b with
  | nil =>
    refine ⟨b, hb, (supplied_play hb).toTidy, rfl, ?_⟩
    exact (Nat.lt_or_ge b.chunkSize addressLimit).imp (fun h => ⟨h, rfl, .nil⟩) fun h => ⟨h, rfl⟩
  | cons piece pieces ih =>
    rw [List.flatten_cons, List.length_append] at hlimit
    obtain ⟨middle, hmiddle, htidy, hsize, hfirst⟩ :=
      writes_step piece hb (by omega)
    have hoffset : middle.offset + pieces.flatten.length < wordLimit := by
      rcases hfirst with ⟨-, hstrip, -⟩ | ⟨-, hstrip⟩
      · rw [show middle.offset = b.offset + piece.length from congrArg Strip.cursor hstrip]
        omega
      · rw [show middle.offset = b.offset from congrArg Strip.cursor hstrip]
        omega
    rw [← play_concat] at hmiddle
    obtain ⟨t, ht, htidy', hsize', hothers⟩ := ih hmiddle hoffset
    rw [play_concat] at ht hothers
    refine ⟨t, ht, htidy', hsize'.trans hsize, ?_⟩
    rcases hfirst with ⟨hsmall, hstrip, hanswer⟩ | ⟨hlarge, hstrip⟩
    · rcases hothers with ⟨-, hstrip', hanswers⟩ | ⟨hlarge, -⟩
      · rw [hstrip] at hstrip'
        exact .inl ⟨hsmall, hstrip', .cons (List.forall₂_cons.1 hanswer).1 hanswers⟩
      · exact absurd (hsize ▸ hlarge) (Nat.not_le_of_lt hsmall)
    · rcases hothers with ⟨hsmall, -, -⟩ | ⟨-, hstrip'⟩
      · exact absurd (hsize ▸ hsmall) (Nat.not_lt_of_le hlarge)
      · exact .inr ⟨hlarge, hstrip'.trans hstrip⟩

/-- **Streams do not depend on where they are cut.** For every buffer in every session that can
be reached: reads in turn never fail, each gives what is left as far as its memory goes, and
together they deliver all that there is from the cursor on, in this order, and nothing ever
after. And a row of bytes that is written in pieces, at least one and some of them maybe of no
bytes, leaves the buffer as it is if the row is written at once, wherever the cursor is. -/
theorem streams_are_complete (commands : List Command) (name : String) (b : Buffer)
    (hb : (({} : Session).play commands).2.buffers.get? name = some b) :
    let s := (({} : Session).play commands).2
    (∀ memories, b.Streams memories) ∧
      (∀ limits, (s.play (streamReads name limits)).2.buffers.get? name =
          some (b.streamReads (limits.map BufferRequest.readerMemory)).2 ∧
        List.Forall₂ (fun answer seen =>
            ∃ info, seen.answer = .request (BufferRequest.haveRead true answer) info)
          (b.streamReads (limits.map BufferRequest.readerMemory)).1
          (s.play (streamReads name limits)).1) ∧
      ∀ pieces : List (List UInt8), pieces ≠ [] →
        b.offset + pieces.flatten.length < wordLimit →
        let inPieces := s.play (streamWrites name pieces)
        let atOnce := s.play (streamWrites name [pieces.flatten])
        ∃ t t', inPieces.2.buffers.get? name = some t ∧
          atOnce.2.buffers.get? name = some t' ∧
          t.content = t'.content ∧ t.length = t'.length ∧ t.offset = t'.offset ∧
          t.chunks.length = t'.chunks.length ∧
          (b.chunkSize < addressLimit → List.Forall₂ (fun piece (seen : Seen) =>
            ∃ info, seen.answer = .request (.reply (.count piece.length)) info)
              pieces inPieces.1) := by
  intro s
  refine ⟨(supplied_play hb).toTidy.streams, play_streamReads hb,
    fun pieces hpieces hlimit => ?_⟩
  obtain ⟨t, ht, htidy, hsize, hwrites⟩ := writes_play pieces hb hlimit
  obtain ⟨t', ht', htidy', hsize', hwrites'⟩ :=
    writes_play [pieces.flatten] hb (by rwa [List.flatten_singleton])
  have hstrip : t.strip = t'.strip := by
    rcases hwrites with ⟨hsmall, hstrip, -⟩ | ⟨hlarge, hstrip⟩
    · rcases hwrites' with ⟨-, hstrip', -⟩ | ⟨hlarge, -⟩
      · obtain ⟨piece, others, rfl⟩ := List.exists_cons_of_ne_nil hpieces
        rw [hstrip, hstrip', Strip.foldl_after]
        rfl
      · exact absurd hlarge (Nat.not_le_of_lt hsmall)
    · rcases hwrites' with ⟨hsmall, -, -⟩ | ⟨-, hstrip'⟩
      · exact absurd hsmall (Nat.not_lt_of_le hlarge)
      · rw [hstrip, hstrip']
  have hcontent : t.content = t'.content := congrArg Strip.content hstrip
  have hlength : t.length = t'.length := by
    rw [← htidy.length_content, hcontent, htidy'.length_content]
  refine ⟨t, t', ht, ht', hcontent, hlength, congrArg Strip.cursor hstrip, ?_, fun hsmall => ?_⟩
  · rw [htidy.length_chunks_eq, htidy'.length_chunks_eq, hlength, hsize, hsize']
  · rcases hwrites with ⟨-, -, hanswers⟩ | ⟨hlarge, -⟩
    · exact List.forall₂_map_right_iff.1 hanswers
    · exact absurd hlarge (Nat.not_le_of_lt hsmall)

/-- Pieces behind the end, the first of them of no bytes. -/
theorem streams_are_complete_pieces :
    let commands : List Command := [.pool (.make "pool"),
      .buffer (.make "pool" 4 false "buffer"),
      .buffer (.request "buffer" (.write [1, 2, 3] true)),
      .buffer (.request "buffer" (.seek .start 6 true))]
    let s := (({} : Session).play commands).2
    ∃ b, s.buffers.get? "buffer" = some b ∧ b.Streams [[7], [7, 7]] ∧
      ∃ t, (s.play (streamWrites "buffer" [[], [4], [], [5, 6]])).2.buffers.get? "buffer" =
          some t ∧
        t.content = [1, 2, 3, 0, 0, 0, 4, 5, 6] := by
  intro commands s
  have hcursor : (s.buffers.get? "buffer").map Buffer.offset = some 6 := by decide +kernel
  obtain ⟨b, hb, hoffset⟩ := Option.map_eq_some_iff.1 hcursor
  obtain ⟨hstreams, -, hwrites⟩ := streams_are_complete commands "buffer" b hb
  obtain ⟨t, t', ht, ht', hcontent, -⟩ :=
    hwrites [[], [4], [], [5, 6]] (List.cons_ne_nil _ _) (by rw [hoffset]; decide)
  have honce : ((s.play (streamWrites "buffer" [[[], [4], [], [5, 6]].flatten])).2.buffers.get?
      "buffer").map Buffer.content = some [1, 2, 3, 0, 0, 0, 4, 5, 6] := by decide +kernel
  rw [ht', Option.map_some] at honce
  refine ⟨b, hb, hstreams _, t, ?_, hcontent.trans (Option.some.inj honce)⟩
  rw [← ht]

end Session

end Wirepool
