import Wirepool.Proofs.Buffer.Strip
import Wirepool.Proofs.Session.Sound

/-!
# Buffers among everything else

A buffer in a session shares its pool with other buffers, arenas and loans, gets
pages that they have written to, and is used in between by commands of all
kinds. None of that is seen: from its making on, a buffer answers as a strip of
bytes would that is told of nothing but the requests to this buffer.
-/

namespace Wirepool

/-- The command puts an end to the buffer with a name, or makes another one in its
place. -/
def Command.Replaces : Command → String → Prop
  | .buffer (.make _ _ _ own), name | .buffer (.release own), name
  | .buffer (.drop own), name => name = own
  | _, _ => False

/-- A command that names a buffer and does not replace it is a request. -/
theorem Command.exists_request_of_namesBuffer {command : Command} {name : String}
    (h : command.NamesBuffer name) (hkeeps : ¬command.Replaces name) :
    ∃ request, command = .buffer (.request name request) := by
  cases command with
  | buffer command =>
    cases command with
    | make pool chunkSize checked own => exact absurd h hkeeps
    | info own => exact h.elim
    | release own => exact absurd h hkeeps
    | drop own => exact absurd h hkeeps
    | request own request => exact ⟨request, by rw [show name = own from h]⟩
  | pool command => exact h.elim
  | loan command => exact h.elim
  | ticket command => exact h.elim
  | arena command => exact h.elim
  | message command => exact h.elim
  | watch command => exact h.elim

namespace Strip

/-- What is told of a buffer that shows the strip. -/
def info (strip : Strip) (chunkSize : Nat) : BufferInfo :=
  ⟨chunkSize, strip.content.length, (strip.content.length + chunkSize - 1) / chunkSize,
    strip.cursor⟩

/-- **What a strip in place of the buffer with a name makes of a command**: it
answers what is asked of the buffer, and is told of nothing else. -/
def step (strip : Strip) (chunkSize : Nat) (name : String) : Command → Option Answer × Strip
  | .buffer (.request own request) =>
    if own = name then
      let (outcome, next) := strip.request request
      (outcome.map fun outcome => .request outcome (next.info chunkSize), next)
    else (none, strip)
  | .buffer (.info own) =>
    (if own = name then some (.buffer (strip.info chunkSize)) else none, strip)
  | _ => (none, strip)

/-- What it makes of commands in turn. -/
def play (strip : Strip) (chunkSize : Nat) (name : String) :
    List Command → List (Option Answer) × Strip
  | [] => ([], strip)
  | command :: commands =>
    let (answer, next) := strip.step chunkSize name command
    let (answers, last) := next.play chunkSize name commands
    (answer :: answers, last)

/-- Commands that do not name the buffer leave the strip. -/
theorem step_snd_of_not_namesBuffer {command : Command} {name : String}
    (h : ¬command.NamesBuffer name) (strip : Strip) (chunkSize : Nat) :
    (strip.step chunkSize name command).2 = strip := by
  unfold step
  split
  · next own request =>
    rw [if_neg (fun heq => h heq.symm)]
  · rfl
  · rfl

end Strip

/-- A tidy buffer tells what its strip does. -/
theorem Buffer.Tidy.info_eq {b : Buffer} (h : b.Tidy) : b.info = b.strip.info b.chunkSize := by
  show BufferInfo.mk _ _ _ _ = BufferInfo.mk _ b.content.length
    ((b.content.length + b.chunkSize - 1) / b.chunkSize) _
  rw [h.length_chunks, h.length_content]
  rfl

namespace Session

variable {s : Session} {name : String} {b : Buffer}

/-- **A request to a tidy buffer** follows its strip, or a chunk cannot be had and
the buffer is as before. -/
theorem Sound.request (h : s.Sound) (hb : s.buffers.get? name = some b) (htidy : b.Tidy)
    (request : BufferRequest) :
    ∃ outcome t u, s.step (.buffer (.request name request)) =
        (.request outcome t.info, { s with store := u, buffers := s.buffers.put name t }) ∧
      (b.Follows (b.strip.request request) outcome t ∨ t = b ∧ addressLimit ≤ b.chunkSize) := by
  have hmem := Table.mem_values_of_get? hb
  obtain ⟨others, hstore⟩ := h.store_of_buffer hmem
  have hends := htidy.ends_request hstore (h.buffers_lt b hmem) request
  unfold step bufferStep expect
  dsimp only
  rw [hb]
  dsimp only
  cases hresult : request.run (b, s.store) with
  | ok outcome t =>
    rw [hresult] at hends
    exact ⟨outcome, t.1, t.2, rfl, .inl hends⟩
  | error abort t =>
    rw [hresult] at hends
    exact ⟨.aborted abort, t.1, t.2, rfl, .inr hends⟩

/-- **The buffer with a name is as a strip**: it is tidy, shows the strip, and has
chunks of the given size. -/
def IsStrip (s : Session) (name : String) (chunkSize : Nat) (strip : Strip) : Prop :=
  ∃ b, s.buffers.get? name = some b ∧ b.Tidy ∧ b.chunkSize = chunkSize ∧ b.strip = strip

/-- **One command** does to a buffer what it does to its strip. -/
theorem Sound.isStrip_step (h : s.Sound) {chunkSize : Nat} {strip : Strip}
    (hstrip : s.IsStrip name chunkSize strip) (hsize : chunkSize < addressLimit)
    {command : Command} (hkeeps : ¬command.Replaces name) :
    (∀ answer ∈ (strip.step chunkSize name command).1, (s.step command).1 = answer) ∧
      (s.step command).2.IsStrip name chunkSize (strip.step chunkSize name command).2 := by
  obtain ⟨b, hb, htidy, rfl, rfl⟩ := hstrip
  by_cases hnames : command.NamesBuffer name
  · obtain ⟨request, rfl⟩ := Command.exists_request_of_namesBuffer hnames hkeeps
    obtain ⟨outcome, t, u, hstep, hfollows⟩ := h.request hb htidy request
    rcases hfollows with ⟨htidy', hsize', hstrip', houtcome⟩ | ⟨-, hlimit⟩
    · rw [hstep, Strip.step, if_pos rfl]
      refine ⟨fun answer hanswer => ?_, t, Table.get?_put_self _ _ _, htidy', hsize', hstrip'⟩
      obtain ⟨expected, hexpected, rfl⟩ := Option.map_eq_some_iff.mp hanswer
      show Answer.request outcome t.info = _
      rw [houtcome expected hexpected, htidy'.info_eq, hsize', hstrip']
    · exact absurd hlimit (Nat.not_le_of_lt hsize)
  · -- whatever else is asked, the buffer is as before
    have hspared := (s.spares_step command).buffer name hnames
    rw [Strip.step_snd_of_not_namesBuffer hnames]
    refine ⟨fun answer hanswer => ?_, b, hspared.trans hb, htidy, rfl, rfl⟩
    unfold Strip.step at hanswer
    split at hanswer
    · next own request =>
      rw [if_neg (fun heq => hnames heq.symm)] at hanswer
      cases hanswer
    · next own =>
      split at hanswer
      · next heq =>
        subst heq
        cases hanswer
        show (s.expect (s.buffers.get? own) fun buffer => (.buffer buffer.info, s)).1 = _
        rw [hb, ← htidy.info_eq]
        rfl
      · cases hanswer
    · cases hanswer

/-- The answers that a strip gives are among those that are seen, in turn. -/
def Answers (expected : List (Option Answer)) (seen : List Seen) : Prop :=
  List.Forall₂ (fun expected seen => ∀ answer ∈ expected, seen.answer = answer) expected seen

/-- **All commands in turn** do to a buffer what they do to its strip. -/
theorem Sound.isStrip_play (h : s.Sound) {chunkSize : Nat} {strip : Strip}
    (hstrip : s.IsStrip name chunkSize strip) (hsize : chunkSize < addressLimit)
    {commands : List Command} (hkeeps : ∀ command ∈ commands, ¬command.Replaces name) :
    Answers (strip.play chunkSize name commands).1 (s.play commands).1 ∧
      (s.play commands).2.IsStrip name chunkSize (strip.play chunkSize name commands).2 := by
  induction commands generalizing s strip with
  | nil => exact ⟨.nil, hstrip⟩
  | cons command commands ih =>
    obtain ⟨hfirst, hothers⟩ := List.forall_mem_cons.mp hkeeps
    obtain ⟨hanswer, hnext⟩ := h.isStrip_step hstrip hsize hfirst
    obtain ⟨hanswers, hlast⟩ := ih (h.obeys_step command).sound hnext hothers
    exact ⟨.cons hanswer hanswers, hlast⟩

/-! ## The life of a buffer -/

/-- **A buffer refines a strip of bytes.** Whatever has been done to the session
before, whatever the pages of the pool hold, and whatever is done to other things
in between: from its making on, a buffer whose chunks can be had answers every
request as a strip would, and shows the strip at the end. -/
theorem buffer_refines_strip (before commands : List Command) {pool name : String}
    {home chunkSize : Nat} (checked : Bool)
    (hpool : (({} : Session).play before).2.pools.get? pool = some home)
    (hpos : 0 < chunkSize) (hsize : chunkSize < addressLimit)
    (hkeeps : ∀ command ∈ commands, ¬command.Replaces name) :
    let made := (({} : Session).play before).2.step (.buffer (.make pool chunkSize checked name))
    let strip := ({} : Strip).play chunkSize name commands
    made.1 = .buffer (({} : Strip).info chunkSize) ∧
      Answers strip.1 (made.2.play commands).1 ∧
      ∃ b, (made.2.play commands).2.buffers.get? name = some b ∧ b.chunkSize = chunkSize ∧
        b.Shows strip.2 := by
  intro made strip
  let new : Buffer := { home, chunkSize, chunkSize_pos := hpos }
  have htidy : new.Tidy := Buffer.tidy_new hpos
  have hmade : made = (.buffer new.info, (({} : Session).play before).2.enterBuffer name new) :=
    bufferStep_make hpool hpos checked name
  have hstrip : made.2.IsStrip name chunkSize {} := by
    obtain ⟨u, hentered⟩ := enterBuffer_eq (({} : Session).play before).2 name new
    rw [hmade, hentered]
    exact ⟨new, Table.get?_put_self _ _ _, htidy, rfl, rfl⟩
  have hsound : made.2.Sound := ((sound_play before).obeys_step _).sound
  obtain ⟨hanswers, b, hb, htidy', hsize', hlast⟩ := hsound.isStrip_play hstrip hsize hkeeps
  refine ⟨?_, hanswers, b, hb, hsize', hlast ▸ htidy'.shows⟩
  rw [hmade, htidy.info_eq]
  rfl

/-- A buffer that gets a page full of sevens, and is first written to behind its
end, shows zeros there. -/
theorem buffer_refines_strip_stale :
    let before : List Command := [.pool (.make "pool"), .pool (.borrow "pool" 16 false "loan"),
      .loan (.fill "loan" 7 {}), .loan (.release "loan")]
    let made :=
      ((({} : Session).play before).2.step (.buffer (.make "pool" 16 false "buffer"))).2
    let played := made.play [.buffer (.request "buffer" (.writeAt [1] 3)),
      .pool (.borrow "pool" 16 false "loan"), .loan (.fill "loan" 9 {})]
    ∃ b, played.2.buffers.get? "buffer" = some b ∧ b.content = [0, 0, 0, 1] := by
  intro before made played
  have hpool : (({} : Session).play before).2.pools.get? "pool" = some 0 := by rfl
  obtain ⟨-, -, b, hb, -, hshows⟩ := buffer_refines_strip before
    [.buffer (.request "buffer" (.writeAt [1] 3)), .pool (.borrow "pool" 16 false "loan"),
      .loan (.fill "loan" 9 {})] false hpool (show 0 < 16 by decide) (by decide)
    (by simp [Command.Replaces])
  exact ⟨b, hb, hshows.content_eq.trans (by rfl)⟩

end Session

end Wirepool
