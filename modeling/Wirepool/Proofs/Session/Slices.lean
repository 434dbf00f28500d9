import Wirepool.Proofs.Arena.Cutting
import Wirepool.Proofs.Session.Sound

/-!
# The slices that are out

A session enters a slice under a name only if it is told one, and a decoder keeps its
copies to itself. So the table of slices does not tell which slices of an arena there
are. What tells it is the row of commands: an arena hands slices out when it is asked
for them, and all of them end at once, when it is reset, released or dropped, or when
another arena takes its place.

The slices that are out after a row of commands are laid out in the arena, in every
session that can be reached, and whatever is in the table is one of them.
-/

namespace Wirepool

namespace Table

variable {α : Type}

/-- What is found once something was entered. -/
theorem get?_put (t : Table α) (name other : String) (x : α) :
    (t.put name x).get? other = if other = name then some x else t.get? other := by
  by_cases h : other = name
  · rw [if_pos h, h, get?_put_self]
  · rw [if_neg h, get?_put_of_ne t h]

/-- What is found without the things of some kind is of another kind. -/
theorem of_get?_remove {t : Table α} {p : α → Bool} {name : String} {x : α}
    (h : (t.remove p).get? name = some x) : t.get? name = some x ∧ p x = false := by
  obtain ⟨front, back, heq, -⟩ := List.lookup_eq_some_iff.mp h
  have hmem : (name, x) ∈ (t.remove p).entries := by
    rw [heq]
    exact List.mem_append_right _ List.mem_cons_self
  obtain ⟨hentry, hkept⟩ := List.mem_filter.mp hmem
  exact ⟨lookup_eq_some_of_mem t.nodup hentry, by simpa using hkept⟩

end Table

/-- The arena whose slices a command ends, if it is carried out. -/
def Command.endsArena? : Command → Option String
  | .arena (.make _ _ _ own) | .arena (.reset own) | .arena (.release own)
  | .arena (.drop own) => some own
  | _ => none

/-- Whether a command was carried out, or at least begun. -/
def Answer.isCarriedOut : Answer → Bool
  | misuse | fault _ => false
  | _ => true

namespace Session

variable {s : Session} {name : String} {command : Command} {slices : List Slice} {a : Arena}

/-! ## What is handed out -/

/-- **What a command asks an arena for**, in turn. -/
def requests (s : Session) (name : String) : Command → List Arena.Request
  | .arena (.get own len zero _) => if own = name then [some <$> Arena.get len zero] else []
  | .arena (.copy own row _) => if own = name then [some <$> Arena.copy row] else []
  | .message (.encodeInArena own order script _) =>
    if own = name then [(fun encoded => encoded.result.toOption) <$> script.encodeInArena order]
    else []
  | .message (.decode source (some own) order calls fallible) =>
    if own = name then
      match s.sourceBytes? source with
      | some input =>
        (Wirepool.decode order input calls fallible).1.toArena.map fun row =>
          some <$> Arena.copy row
      | none => []
    else []
  | _ => []

/-- **The slices that an arena hands out** while a command is carried out. -/
def handsOut (s : Session) (name : String) (command : Command) : List Slice :=
  match s.arenas.get? name with
  | some a => (Arena.serve (s.requests name command) (a, s.store)).1
  | none => []

/-- **Whether a command ends all slices of an arena.** -/
def endsSlices (s : Session) (name : String) (command : Command) : Bool :=
  command.endsArena? = some name && (s.step command).1.isCarriedOut

/-- The slices of an arena that are out after a command, with those that were out
before it. -/
def outAfter (s : Session) (name : String) (slices : List Slice) (command : Command) :
    List Slice :=
  if s.endsSlices name command then [] else slices ++ s.handsOut name command

/-- The slices of an arena that are out after commands, with those that were out before
them. -/
def outSince (s : Session) (name : String) (slices : List Slice) : List Command → List Slice
  | [] => slices
  | command :: commands =>
    (s.step command).2.outSince name (s.outAfter name slices command) commands

/-- **The slices of an arena that are out**: all that it has handed out since it was made
or reset the last time. -/
def slicesOut (name : String) (commands : List Command) : List Slice :=
  ({} : Session).outSince name [] commands

/-- Those that are out after commands, the last of which is given apart. -/
theorem slicesOut_concat (name : String) (commands : List Command) (command : Command) :
    slicesOut name (commands ++ [command]) =
      (({} : Session).play commands).2.outAfter name (slicesOut name commands) command := by
  have happend (s : Session) (slices : List Slice) :
      s.outSince name slices (commands ++ [command]) =
        (s.play commands).2.outAfter name (s.outSince name slices commands) command := by
    induction commands generalizing s slices with
    | nil => rfl
    | cons first commands ih => exact ih _ _
  exact happend {} []

/-- An arena that a command does not name is asked for nothing. -/
theorem requests_of_not_namesArena (s : Session) (h : ¬command.NamesArena name) :
    s.requests name command = [] := by
  unfold requests
  split
  · exact if_neg fun heq => h heq.symm
  · exact if_neg fun heq => h heq.symm
  · exact if_neg fun heq => h heq.symm
  · exact if_neg fun heq => h heq.symm
  · rfl

/-- All requests are fair. -/
theorem fair_requests (s : Session) (name : String) (command : Command) :
    ∀ request ∈ s.requests name command, Arena.Fair request := by
  intro request hrequest
  unfold requests at hrequest
  split at hrequest
  · split at hrequest
    · cases List.mem_singleton.mp hrequest
      exact Arena.fair_get _ _
    · cases hrequest
  · split at hrequest
    · cases List.mem_singleton.mp hrequest
      exact Arena.fair_copy _
    · cases hrequest
  · split at hrequest
    · cases List.mem_singleton.mp hrequest
      exact Arena.fair_encodeInArena _ _
    · cases hrequest
  · split at hrequest
    · split at hrequest
      · obtain ⟨row, -, rfl⟩ := List.mem_map.mp hrequest
        exact Arena.fair_copy row
      · cases hrequest
    · cases hrequest
  · cases hrequest

/-- **An arena in a session** hands out what it is asked for. -/
theorem Sound.handsOut_arena (h : s.Sound) (ha : s.arenas.get? name = some a)
    (hlaid : a.Laid slices) (command : Command) :
    a.HandsOut slices (s.handsOut name command)
      (Arena.serve (s.requests name command) (a, s.store)).2.1 := by
  have hmem := Table.mem_values_of_get? ha
  obtain ⟨others, hstore⟩ := h.store_of_arena hmem
  unfold handsOut
  rw [ha]
  exact hlaid.handsOut_serve (s.fair_requests name command) hstore (h.arenas_lt a hmem)

/-! ## What a command does to an arena -/

/-- A command that does not end slices whatever it answers. -/
theorem endsSlices_of_ne (s : Session) (h : command.endsArena? ≠ some name) :
    s.endsSlices name command = false := by
  rw [endsSlices, decide_eq_false h, Bool.false_and]

/-- Nothing happens to an arena that is not there. -/
theorem step_of_none (harena : s.arenas.get? name = none) {sub : ArenaCommand}
    (hsub : sub = .reset name ∨ sub = .release name ∨ sub = .drop name) :
    s.step (.arena sub) = (.misuse, s) := by
  rcases hsub with rfl | rfl | rfl
  all_goals
    show s.expect (s.arenas.get? name) _ = _
    rw [harena]
    rfl

/-- **Resetting an arena** gives its memory back and leaves a new one. -/
theorem Sound.step_reset (h : s.Sound) (ha : s.arenas.get? name = some a) :
    ∃ t, a.release s.store = .ok () t ∧ s.step (.arena (.reset name)) =
      (.arena (Arena.new a.home a.size).info, { s.endSlices name with
        store := t, arenas := s.arenas.put name (.new a.home a.size) }) := by
  obtain ⟨others, hstore⟩ := h.store_of_arena (Table.mem_values_of_get? ha)
  obtain ⟨⟨⟩, t, hok, -⟩ := (Arena.ends_release hstore).exists_ok
  refine ⟨t, hok, ?_⟩
  have hreset : Arena.reset (a, s.store) = .ok () (.new a.home a.size, t) := by
    show (HolderM.onStore a.release >>= fun _ => HolderM.update fun a =>
      ((), Arena.new a.home a.size)) (a, s.store) = _
    simp only [bind, EStateM.bind, HolderM.onStore, hok]
    rfl
  show s.expect (s.arenas.get? name) _ = _
  rw [ha]
  show (s.endSlices name).runArena name a Arena.reset _ = _
  unfold runArena
  rw [show (s.endSlices name).store = s.store from rfl, hreset]
  rfl

/-- An arena that is taken out is gone, and so are its slices. -/
theorem step_of_takenOut {sub : ArenaCommand} {action : Arena → StoreM Unit} {t : Store}
    (hsub : s.arenaStep sub = s.expect (s.arenas.get? name) fun arena =>
      { s.endSlices name with arenas := s.arenas.erase name }.run (action arena) fun () s =>
        (.done, s))
    (ha : s.arenas.get? name = some a) (hok : action a s.store = .ok () t) :
    s.step (.arena sub) =
      (.done, { s.endSlices name with store := t, arenas := s.arenas.erase name }) := by
  show s.arenaStep sub = _
  rw [hsub, ha]
  show ({ s.endSlices name with arenas := s.arenas.erase name }.run (action a) _) = _
  rw [run_of_ok (s := { s.endSlices name with arenas := s.arenas.erase name }) hok]

/-- **Releasing an arena** gives its memory back, and it is gone. -/
theorem Sound.step_release (h : s.Sound) (ha : s.arenas.get? name = some a) :
    ∃ t, a.release s.store = .ok () t ∧ s.step (.arena (.release name)) =
      (.done, { s.endSlices name with store := t, arenas := s.arenas.erase name }) := by
  obtain ⟨others, hstore⟩ := h.store_of_arena (Table.mem_values_of_get? ha)
  obtain ⟨⟨⟩, t, hok, -⟩ := (Arena.ends_release hstore).exists_ok
  exact ⟨t, hok, step_of_takenOut rfl ha hok⟩

/-- **Dropping an arena** loses its memory, and it is gone. -/
theorem Sound.step_drop (h : s.Sound) (ha : s.arenas.get? name = some a) :
    ∃ t, a.drop s.store = .ok () t ∧ s.step (.arena (.drop name)) =
      (.done, { s.endSlices name with store := t, arenas := s.arenas.erase name }) := by
  obtain ⟨others, hstore⟩ := h.store_of_arena (Table.mem_values_of_get? ha)
  obtain ⟨⟨⟩, t, hok, -⟩ := (Arena.ends_drop hstore).exists_ok
  exact ⟨t, hok, step_of_takenOut rfl ha hok⟩

/-- An arena after an action is as the requests behind the action leave it. -/
theorem get?_expect_runArena {α : Type} {action : HolderM Arena α}
    {go : α → Arena → Session → Step} {requests : List Arena.Request}
    (haction : ∀ t, Ends (action t) (fun _ u => u = (Arena.serve requests t).2)
      fun _ u => u = (Arena.serve requests t).2)
    (hgo : ∀ x b r, (go x b r).2.arenas = r.arenas) :
    (s.expect (s.arenas.get? name) fun a => s.runArena name a action go).2.arenas.get? name =
      (s.arenas.get? name).map fun a => (Arena.serve requests (a, s.store)).2.1 := by
  cases harena : s.arenas.get? name with
  | none => exact harena
  | some a =>
    have hends := haction (a, s.store)
    show (s.runArena name a action go).2.arenas.get? name = _
    unfold runArena
    cases hresult : action (a, s.store) with
    | ok x t =>
      rw [hresult] at hends
      dsimp only
      rw [hgo, Table.get?_put_self]
      exact congrArg (fun u : Arena × Store => some u.1) hends
    | error abort t =>
      rw [hresult] at hends
      dsimp only
      rw [Table.get?_put_self]
      exact congrArg (fun u : Arena × Store => some u.1) hends

/-- A command that asks an arena for slices leaves it as its requests do. -/
theorem arena_of_namesArena (s : Session) (hnames : command.NamesArena name)
    (hends : command.endsArena? ≠ some name) :
    (s.step command).2.arenas.get? name = (s.arenas.get? name).map fun a =>
      (Arena.serve (s.requests name command) (a, s.store)).2.1 := by
  have hsingle {α : Type} (action : HolderM Arena α) (f : α → Option Slice) (t : Arena × Store) :
      Ends (action t) (fun _ u => u = (Arena.serve [f <$> action] t).2)
        fun _ u => u = (Arena.serve [f <$> action] t).2 :=
    (Arena.ends_serve_singleton action f t).mono (fun _ _ ht => by rw [ht])
      fun _ _ ht => by rw [ht]
  cases command with
  | arena command =>
    cases command with
    | make pool size checked own =>
      obtain rfl : name = own := hnames
      exact absurd rfl hends
    | get own len zero entered =>
      obtain rfl : name = own := hnames
      rw [requests, if_pos rfl]
      exact get?_expect_runArena (hsingle _ _) fun _ _ _ => by cases entered <;> rfl
    | copy own row entered =>
      obtain rfl : name = own := hnames
      rw [requests, if_pos rfl]
      exact get?_expect_runArena (hsingle _ _) fun _ _ _ => by cases entered <;> rfl
    | reset own =>
      obtain rfl : name = own := hnames
      exact absurd rfl hends
    | release own =>
      obtain rfl : name = own := hnames
      exact absurd rfl hends
    | drop own =>
      obtain rfl : name = own := hnames
      exact absurd rfl hends
    | _ => exact hnames.elim
  | message command =>
    cases command with
    | encode pool order script own => exact hnames.elim
    | encodeInArena own order script entered =>
      obtain rfl : name = own := hnames
      rw [requests, if_pos rfl]
      refine get?_expect_runArena (hsingle _ _) fun encoded _ _ => ?_
      dsimp only
      split
      · cases entered <;> rfl
      · rfl
    | decode source own order calls fallible =>
      cases own with
      | none => exact hnames.elim
      | some own =>
        obtain rfl : name = own := hnames
        rw [requests, if_pos rfl]
        show (s.expect (s.sourceBytes? source) _).2.arenas.get? name = _
        cases s.sourceBytes? source with
        | none => exact Option.map_id'.symm
        | some input => exact get?_expect_runArena (Arena.ends_copies _) fun _ _ _ => rfl
  | _ => exact hnames.elim

/-- The commands that end slices, if they are carried out. -/
theorem cases_of_endsArena? (h : command.endsArena? = some name) :
    (∃ pool size checked, command = .arena (.make pool size checked name)) ∨
      command = .arena (.reset name) ∨ command = .arena (.release name) ∨
      command = .arena (.drop name) := by
  unfold Command.endsArena? at h
  split at h
  · next pool size checked own =>
    cases h
    exact .inl ⟨pool, size, checked, rfl⟩
  · cases h
    exact .inr (.inl rfl)
  · cases h
    exact .inr (.inr (.inl rfl))
  · cases h
    exact .inr (.inr (.inr rfl))
  · cases h

/-- Entering an arena ends the slices of the one that stood there. -/
theorem slices_enterArena (s : Session) (name : String) (arena : Arena) :
    (s.enterArena name arena).slices = s.slices.remove fun slice => slice.1 = name := by
  unfold enterArena letGo endSlices
  split <;> rfl

/-- **A command that ends slices** does nothing or ends them all, and afterwards the
arena is gone or a new one. -/
theorem Sound.step_of_endsArena? (h : s.Sound) (hown : command.endsArena? = some name) :
    (∃ answer, s.step command = (answer, s) ∧ answer.isCarriedOut = false) ∨
    ((s.step command).1.isCarriedOut = true ∧
      (s.step command).2.slices = s.slices.remove (fun slice => slice.1 = name) ∧
      ((s.step command).2.arenas = s.arenas.erase name ∨
        ∃ home size, (s.step command).2.arenas = s.arenas.put name (.new home size))) := by
  rcases cases_of_endsArena? hown with ⟨pool, size, checked, rfl⟩ | hothers
  · rcases s.arenaStep_make pool size checked name with hstep | ⟨fault, hstep⟩ | ⟨home, -, hstep⟩
    · exact .inl ⟨.misuse, hstep, rfl⟩
    · exact .inl ⟨.fault fault, hstep, rfl⟩
    · rw [show s.step (.arena (.make pool size checked name)) = _ from hstep]
      exact .inr ⟨rfl, s.slices_enterArena name _, .inr ⟨home, size, rfl⟩⟩
  · cases harena : s.arenas.get? name with
    | none =>
      rcases hothers with rfl | rfl | rfl
      · exact .inl ⟨.misuse, step_of_none harena (.inl rfl), rfl⟩
      · exact .inl ⟨.misuse, step_of_none harena (.inr (.inl rfl)), rfl⟩
      · exact .inl ⟨.misuse, step_of_none harena (.inr (.inr rfl)), rfl⟩
    | some a =>
      rcases hothers with rfl | rfl | rfl
      · obtain ⟨t, -, hstep⟩ := h.step_reset harena
        rw [hstep]
        exact .inr ⟨rfl, rfl, .inr ⟨a.home, a.size, rfl⟩⟩
      · obtain ⟨t, -, hstep⟩ := h.step_release harena
        rw [hstep]
        exact .inr ⟨rfl, rfl, .inl rfl⟩
      · obtain ⟨t, -, hstep⟩ := h.step_drop harena
        rw [hstep]
        exact .inr ⟨rfl, rfl, .inl rfl⟩

/-- A command that could end slices asks for none. -/
theorem requests_of_endsArena? (s : Session) (hown : command.endsArena? = some name)
    (other : String) : s.requests other command = [] := by
  rcases cases_of_endsArena? hown with ⟨pool, size, checked, rfl⟩ | rfl | rfl | rfl <;> rfl

/-- **What a command does to an arena** whose slices it does not end: it writes through
one of them, or it asks for others. -/
theorem Sound.arena_step (h : s.Sound) (hends : s.endsSlices name command = false) :
    (∃ own value a slice, command = .arena (.fill own value) ∧
      s.slice? own = some (name, a, slice) ∧
      (s.step command).2.arenas.get? name = some (a.fill slice value)) ∨
    (s.step command).2.arenas.get? name = (s.arenas.get? name).map fun a =>
      (Arena.serve (s.requests name command) (a, s.store)).2.1 := by
  have hsame (hrequests : s.requests name command = [])
      (hkept : (s.step command).2.arenas.get? name = s.arenas.get? name) :
      (s.step command).2.arenas.get? name = (s.arenas.get? name).map fun a =>
        (Arena.serve (s.requests name command) (a, s.store)).2.1 := by
    rw [hrequests, hkept]
    exact Option.map_id'.symm
  by_cases hown : command.endsArena? = some name
  · -- it is not carried out, since it would have ended the slices
    rcases h.step_of_endsArena? hown with ⟨answer, hstep, -⟩ | ⟨hdone, -⟩
    · exact .inr (hsame (s.requests_of_endsArena? hown name) (by rw [hstep]))
    · rw [endsSlices, decide_eq_true hown, hdone] at hends
      cases hends
  by_cases hnames : command.NamesArena name
  · exact .inr (s.arena_of_namesArena hnames hown)
  by_cases hreaches : ∃ position, s.Reaches command (.chunk name position)
  · obtain ⟨position, hnames' | ⟨own, value, a, slice, rfl, hslice, -⟩⟩ := hreaches
    · exact absurd hnames' hnames
    · refine .inl ⟨own, value, a, slice, rfl, hslice, ?_⟩
      show (s.expect (s.slice? own) _).2.arenas.get? name = _
      rw [hslice]
      exact Table.get?_put_self _ _ _
  · refine .inr (hsame (s.requests_of_not_namesArena hnames) ?_)
    exact (s.spares_step command).arena name (not_exists.mp hreaches)

/-! ## What a command enters -/

section Entered

/-- Whatever goes on with a thing leaves the table of slices, or nothing goes on. -/
theorem slices_expect {α : Type} {thing : Option α} {go : α → Step}
    (hgo : ∀ x, (go x).2.slices = s.slices) : (s.expect thing go).2.slices = s.slices := by
  cases thing with
  | none => rfl
  | some x => exact hgo x

/-- Whatever goes on with an answer of the store leaves the table of slices. -/
theorem slices_run {α : Type} {action : StoreM α} {go : α → Session → Step}
    (hgo : ∀ x r, (go x r).2.slices = r.slices) : (s.run action go).2.slices = s.slices := by
  unfold run
  split
  · rw [hgo]
  · rfl

/-- So does whatever goes on with an answer of an arena. -/
theorem slices_runArena {α : Type} {arena : Arena} {action : HolderM Arena α}
    {go : α → Arena → Session → Step} (hgo : ∀ x b r, (go x b r).2.slices = r.slices) :
    (s.runArena name arena action go).2.slices = s.slices := by
  unfold runArena
  split
  · rw [hgo]
  · rfl

variable (s)

theorem slices_enterLoan (name : String) (loan : Loan) :
    (s.enterLoan name loan).slices = s.slices := by
  obtain ⟨u, heq⟩ := s.enterLoan_eq name loan
  rw [heq]

theorem slices_enterTicket (name : String) (ticket : Ticket) :
    (s.enterTicket name ticket).slices = s.slices := by
  obtain ⟨u, heq⟩ := s.enterTicket_eq name ticket
  rw [heq]

theorem slices_enterBuffer (name : String) (buffer : Buffer) :
    (s.enterBuffer name buffer).slices = s.slices := by
  obtain ⟨u, heq⟩ := s.enterBuffer_eq name buffer
  rw [heq]

theorem slices_enterEncoded (name : String) (encoded : Encoded Loan) :
    (s.enterEncoded name encoded).2.slices = s.slices := by
  unfold enterEncoded
  dsimp only
  split
  · exact s.slices_enterLoan name _
  · rfl

theorem slices_poolStep (command : PoolCommand) :
    (s.poolStep command).2.slices = s.slices := by
  cases command with
  | make name => rfl
  | shared name =>
    simp only [poolStep]
    split <;> rfl
  | same first second => exact slices_expect fun _ => slices_expect fun _ => rfl
  | borrow pool len zero name =>
    exact slices_expect fun _ => slices_run fun loan r => r.slices_enterLoan name loan
  | concat pool parts name =>
    exact slices_expect fun _ => slices_run fun loan r => r.slices_enterLoan name loan
  | _ => exact slices_expect fun _ => rfl

theorem slices_loanStep (command : LoanCommand) :
    (s.loanStep command).2.slices = s.slices := by
  cases command with
  | idle name => exact s.slices_enterLoan name .idle
  | release name => exact slices_expect fun _ => slices_run fun _ _ => rfl
  | drop name => exact slices_expect fun _ => slices_run fun _ _ => rfl
  | detach loan name =>
    exact slices_expect fun _ => slices_run fun ticket r => r.slices_enterTicket name ticket
  | _ => exact slices_expect fun _ => rfl

theorem slices_ticketStep (command : TicketCommand) :
    (s.ticketStep command).2.slices = s.slices := by
  cases command with
  | idle name => exact s.slices_enterTicket name .idle
  | info name => exact slices_expect fun _ => rfl
  | clone held name =>
    exact slices_expect fun _ => slices_run fun ticket r => r.slices_enterTicket name ticket
  | redeem name => exact slices_expect fun _ => slices_run fun _ _ => rfl
  | discard name => exact slices_expect fun _ => slices_run fun _ _ => rfl

theorem slices_bufferStep (command : BufferCommand) :
    (s.bufferStep command).2.slices = s.slices := by
  cases command with
  | make pool chunkSize checked name =>
    refine slices_expect fun home => ?_
    dsimp only
    split
    · split
      · exact s.slices_enterBuffer name _
      · rfl
    · split
      · exact s.slices_enterBuffer name _
      · rfl
  | info name => exact slices_expect fun _ => rfl
  | release name => exact slices_expect fun _ => slices_run fun _ _ => rfl
  | drop name => exact slices_expect fun _ => slices_run fun _ _ => rfl
  | request name r =>
    refine slices_expect fun buffer => ?_
    split <;> rfl

theorem slices_watchStep (command : WatchCommand) :
    (s.watchStep command).2.slices = s.slices := by
  cases command with
  | describe name => exact slices_expect fun _ => rfl
  | _ => rfl

variable {s}

/-- What is entered is what the arena has handed out. -/
theorem of_get?_enterSlice {arenaName own : String} {slice found : Slice} {entered : Option String}
    (h : (s.enterSlice arenaName slice entered).slices.get? own = some (name, found)) :
    s.slices.get? own = some (name, found) ∨ arenaName = name ∧ slice = found := by
  cases entered with
  | none => exact .inl h
  | some entry =>
    change (s.slices.put entry (arenaName, slice)).get? own = _ at h
    rw [Table.get?_put] at h
    split at h
    · cases h
      exact .inr ⟨rfl, rfl⟩
    · exact .inl h

/-- What is entered after an action was there before it, or the requests behind the
action have got it. -/
theorem entered_of_runArena {α : Type} {arenaName own : String} {found : Slice}
    {action : HolderM Arena α} {go : α → Arena → Session → Step} {f : α → Option Slice}
    (hgo : ∀ x b r, (go x b r).2.slices.get? own = some (name, found) →
      r.slices.get? own = some (name, found) ∨ arenaName = name ∧ f x = some found)
    (h : (s.expect (s.arenas.get? arenaName) fun a =>
      s.runArena arenaName a action go).2.slices.get? own = some (name, found)) :
    s.slices.get? own = some (name, found) ∨ arenaName = name ∧
      ∃ a, s.arenas.get? arenaName = some a ∧
        found ∈ (Arena.serve [f <$> action] (a, s.store)).1 := by
  cases harena : s.arenas.get? arenaName with
  | none =>
    rw [harena] at h
    exact .inl h
  | some a =>
    rw [harena] at h
    change (s.runArena arenaName a action go).2.slices.get? own = _ at h
    have hserve := Arena.ends_serve_singleton action f (a, s.store)
    unfold runArena at h
    cases hresult : action (a, s.store) with
    | error abort t =>
      rw [hresult] at h
      exact .inl h
    | ok x t =>
      rw [hresult] at h hserve
      refine (hgo x _ _ h).imp id fun hnew => ⟨hnew.1, a, rfl, ?_⟩
      have hrow : (Arena.serve [f <$> action] (a, s.store)).1 = (f x).toList :=
        congrArg Prod.fst hserve
      rw [hrow, hnew.2]
      exact List.mem_singleton_self found

end Entered

/-- What the requests of a command have got is what the arena hands out. -/
theorem mem_handsOut {arenaName : String} {found : Slice} {requests : List Arena.Request}
    (hrequests : s.requests arenaName command = requests)
    (hgot : arenaName = name ∧ ∃ a, s.arenas.get? arenaName = some a ∧
      found ∈ (Arena.serve requests (a, s.store)).1) : found ∈ s.handsOut name command := by
  obtain ⟨rfl, a, ha, hmem⟩ := hgot
  rw [handsOut, ha, hrequests]
  exact hmem

section Found

variable {own : String} {found : Slice}

/-- What is in the table after a command that could end slices was there before it, and is
of another arena if it did end them. -/
theorem Sound.entered_of_endsArena? (h : s.Sound) {ended : String}
    (hended : command.endsArena? = some ended)
    (hfound : (s.step command).2.slices.get? own = some (name, found)) :
    s.endsSlices name command = false ∧ s.slices.get? own = some (name, found) := by
  rcases h.step_of_endsArena? hended with ⟨answer, hstep, hanswer⟩ | ⟨-, hslices, -⟩
  · rw [hstep] at hfound
    refine ⟨?_, hfound⟩
    rw [endsSlices, hstep]
    exact (congrArg _ hanswer).trans (Bool.and_false _)
  · rw [hslices] at hfound
    obtain ⟨hbefore, hother⟩ := Table.of_get?_remove hfound
    refine ⟨s.endsSlices_of_ne ?_, hbefore⟩
    rw [hended]
    rintro ⟨⟩
    exact of_decide_eq_false hother rfl

/-- What is in the table after any other command on arenas was there before it, or was
handed out. -/
theorem entered_arenaStep {command : ArenaCommand}
    (hends : ¬∃ ended, (Command.arena command).endsArena? = some ended)
    (hfound : (s.arenaStep command).2.slices.get? own = some (name, found)) :
    s.slices.get? own = some (name, found) ∨ found ∈ s.handsOut name (.arena command) := by
  have hsame (hslices : (s.arenaStep command).2.slices = s.slices) :
      s.slices.get? own = some (name, found) := hslices ▸ hfound
  cases command with
  | make pool size checked ended => exact absurd ⟨ended, rfl⟩ hends
  | reset ended => exact absurd ⟨ended, rfl⟩ hends
  | release ended => exact absurd ⟨ended, rfl⟩ hends
  | drop ended => exact absurd ⟨ended, rfl⟩ hends
  | get arenaName len zero entered =>
    refine (entered_of_runArena (f := some) (fun slice b r hr => ?_) hfound).imp id
      (mem_handsOut (if_pos rfl))
    exact (of_get?_enterSlice hr).imp id fun hnew => ⟨hnew.1, congrArg some hnew.2⟩
  | copy arenaName row entered =>
    refine (entered_of_runArena (f := some) (fun slice b r hr => ?_) hfound).imp id
      (mem_handsOut (if_pos rfl))
    exact (of_get?_enterSlice hr).imp id fun hnew => ⟨hnew.1, congrArg some hnew.2⟩
  | _ => exact .inl (hsame (slices_expect fun _ => rfl))

/-- So it is after a command on messages. -/
theorem entered_messageStep {command : MessageCommand}
    (hfound : (s.messageStep command).2.slices.get? own = some (name, found)) :
    s.slices.get? own = some (name, found) ∨ found ∈ s.handsOut name (.message command) := by
  have hsame (hslices : (s.messageStep command).2.slices = s.slices) :
      s.slices.get? own = some (name, found) := hslices ▸ hfound
  cases command with
  | encode pool order script loanName =>
    have hgo (home : Option Nat) : (s.run (script.encode order home) fun encoded s =>
        s.enterEncoded loanName encoded).2.slices = s.slices :=
      slices_run fun encoded r => r.slices_enterEncoded loanName encoded
    cases pool with
    | none => exact .inl (hsame (hgo none))
    | some pool => exact .inl (hsame (slices_expect fun home => hgo (some home)))
  | encodeInArena arenaName order script entered =>
    refine (entered_of_runArena (f := fun encoded => encoded.result.toOption)
      (fun encoded b r hr => ?_) hfound).imp id (mem_handsOut (if_pos rfl))
    dsimp only at hr
    split at hr
    · next slice hresult =>
      refine (of_get?_enterSlice hr).imp id fun hnew => ⟨hnew.1, ?_⟩
      rw [hresult, ← hnew.2]
      rfl
    · exact .inl hr
  | decode source arenaName order calls fallible =>
    refine .inl (hsame (slices_expect fun input => ?_))
    cases arenaName with
    | none => rfl
    | some arenaName => exact slices_expect fun arena => slices_runArena fun _ _ _ => rfl

/-- **What is in the table of slices** after a command was there before it and was not
ended, or an arena has handed it out. -/
theorem Sound.entered_step (h : s.Sound)
    (hfound : (s.step command).2.slices.get? own = some (name, found)) :
    s.endsSlices name command = false ∧
      (s.slices.get? own = some (name, found) ∨ found ∈ s.handsOut name command) := by
  by_cases hends : ∃ ended, command.endsArena? = some ended
  · obtain ⟨ended, hended⟩ := hends
    exact (h.entered_of_endsArena? hended hfound).imp id .inl
  refine ⟨s.endsSlices_of_ne fun heq => hends ⟨name, heq⟩, ?_⟩
  have hsame (hslices : (s.step command).2.slices = s.slices) :
      s.slices.get? own = some (name, found) := hslices ▸ hfound
  cases command with
  | pool command => exact .inl (hsame (s.slices_poolStep command))
  | loan command => exact .inl (hsame (s.slices_loanStep command))
  | ticket command => exact .inl (hsame (s.slices_ticketStep command))
  | arena command => exact entered_arenaStep hends hfound
  | message command => exact entered_messageStep hfound
  | buffer command => exact .inl (hsame (s.slices_bufferStep command))
  | watch command => exact .inl (hsame (s.slices_watchStep command))

end Found

/-! ## The slices that are out are laid out -/

/-- **The slices of an arena that are out** are laid out in it, and those in the table are
among them. The pages of the arena are of its pool. -/
structure Out (s : Session) (name : String) (slices : List Slice) : Prop where
  laid : ∀ a, s.arenas.get? name = some a → a.Laid slices
  home : ∀ a, s.arenas.get? name = some a → a.AtHome
  entered : ∀ own slice, s.slices.get? own = some (name, slice) → slice ∈ slices

/-- A command that ends the slices leaves an arena that holds nothing, if any. -/
theorem Sound.laid_of_endsSlices (h : s.Sound) (hends : s.endsSlices name command = true)
    (ha : (s.step command).2.arenas.get? name = some a) : a.Laid [] ∧ a.AtHome := by
  have hend : command.endsArena? = some name ∧ (s.step command).1.isCarriedOut = true := by
    simpa [endsSlices] using hends
  rcases h.step_of_endsArena? hend.1 with ⟨answer, hstep, hanswer⟩ | ⟨-, -, harenas⟩
  · rw [hstep, hanswer] at hend
    cases hend.2
  · rcases harenas with harenas | ⟨home, size, harenas⟩
    · rw [harenas, Table.get?_erase, if_pos rfl] at ha
      cases ha
    · rw [harenas, Table.get?_put_self] at ha
      cases ha
      exact ⟨(Arena.tidy_new home size).laid_nil, nofun⟩

/-- Any other command leaves it with the slices that there were and those that it hands
out. -/
theorem Sound.laid_of_not_endsSlices (h : s.Sound) (hout : s.Out name slices)
    (hends : s.endsSlices name command = false)
    (ha : (s.step command).2.arenas.get? name = some a) :
    a.Laid (slices ++ s.handsOut name command) ∧ a.AtHome := by
  rcases h.arena_step hends with ⟨own, value, before, slice, rfl, hslice, hfound⟩ | hserved
  · rw [hfound] at ha
    cases ha
    have harena := arena_of_slice? hslice
    have hnothing : s.handsOut name (.arena (.fill own value)) = [] := by
      unfold handsOut
      split <;> rfl
    rw [hnothing, List.append_nil]
    exact ⟨(hout.laid before harena).fill slice value, (hout.home before harena).of_terms_eq
      (Arena.terms_modifyChunk before slice fun loan => loan.terms_fill _ _ _) rfl⟩
  · rw [hserved] at ha
    obtain ⟨before, harena, rfl⟩ := Option.map_eq_some_iff.mp ha
    have hhands := h.handsOut_arena harena (hout.laid before harena) command
    exact ⟨hhands.laid, hhands.keeps.home (hout.home before harena)⟩

/-- **A command** leaves the slices laid out that are out after it. -/
theorem Sound.out_step (h : s.Sound) (hout : s.Out name slices) (command : Command) :
    (s.step command).2.Out name (s.outAfter name slices command) := by
  unfold outAfter
  cases hends : s.endsSlices name command with
  | true =>
    rw [if_pos rfl]
    refine ⟨fun a ha => (h.laid_of_endsSlices hends ha).1,
      fun a ha => (h.laid_of_endsSlices hends ha).2, fun own slice hslice => ?_⟩
    rw [(h.entered_step hslice).1] at hends
    cases hends
  | false =>
    rw [if_neg Bool.false_ne_true]
    refine ⟨fun a ha => (h.laid_of_not_endsSlices hout hends ha).1,
      fun a ha => (h.laid_of_not_endsSlices hout hends ha).2, fun own slice hslice => ?_⟩
    rcases (h.entered_step hslice).2 with hbefore | hnew
    · exact List.mem_append_left _ (hout.entered own slice hbefore)
    · exact List.mem_append_right _ hnew

/-- **In every session that can be reached** the slices that are out are laid out. -/
theorem out_play (name : String) (commands : List Command) :
    (({} : Session).play commands).2.Out name (slicesOut name commands) := by
  induction commands using List.reverseRecOn with
  | nil => exact ⟨nofun, nofun, nofun⟩
  | append_singleton commands command ih =>
    rw [play_concat, slicesOut_concat]
    exact (sound_play commands).out_step ih command

end Session

end Wirepool
