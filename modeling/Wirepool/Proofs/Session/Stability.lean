import Wirepool.Proofs.Session.Conservation
import Wirepool.Proofs.Session.Slices
import Wirepool.Proofs.Store.Returns

/-!
# Slices are apart and stay as they are

Whoever gets a slice of an arena relies on three things. It has what it has asked for:
the length, and zeros or a copy if it wanted those. Nobody else touches the bytes: other
slices do not reach them, and the memory below is not lent to anybody else. And it stays
so until the arena is reset, released or dropped, whatever is asked of the session in
between.

The arena in turn relies on its pool for the pages, and the pool relies on the arena to
give each of them back once. An arena that was reset is a new one.
-/

namespace Wirepool

/-- **The pages that an arena holds.** -/
def Arena.leases (a : Arena) : List Lease := a.chunks.filterMap Loan.lease?

/-- They are among its chunks. -/
theorem Arena.exists_of_mem_leases {a : Arena} {lease : Lease} (h : lease ∈ a.leases) :
    ∃ position : Nat, a.chunks[position]? = some (.pooled lease) := by
  obtain ⟨chunk, hchunk, hlease⟩ := List.mem_filterMap.mp h
  obtain ⟨position, hposition⟩ := List.getElem?_of_mem hchunk
  cases chunk with
  | unpooled block => cases hlease
  | pooled other =>
    cases hlease
    exact ⟨position, hposition⟩

namespace Session

variable {s : Session} {name : String} {command : Command} {slices : List Slice} {a : Arena}
  {len : Nat} {entered : Option String}

/-! ## Requests -/

/-- **A slice is granted**: it is what the arena hands out, has the length that was asked
for and stands under its name, if it was to get one. -/
structure Granted (s : Session) (name : String) (command : Command) (len : Nat)
    (entered : Option String) (slice : Slice) (b : Arena) : Prop where
  handsOut : s.handsOut name command = [slice]
  length_eq : slice.length = len
  answer : (s.step command).1 = .slice len b.info
  found : (s.step command).2.arenas.get? name = some b
  entered : ∀ own ∈ entered, (s.step command).2.slices.get? own = some (name, slice)

/-- **A slice is denied**, because it was too much. -/
structure Denied (s : Session) (name : String) (a : Arena) (command : Command) (len : Nat) :
    Prop where
  handsOut : s.handsOut name command = []
  tooMuch : a.TooMuch len
  answer : ∃ abort, (s.step command).1 = .aborted abort

/-- A command that is a single request for a slice. -/
theorem granted_or_denied (good : List UInt8 → Prop) {action : HolderM Arena Slice}
    (ha : s.arenas.get? name = some a)
    (hrequests : s.requests name command = [some <$> action])
    (hstep : s.step command = s.expect (s.arenas.get? name) fun a =>
      s.runArena name a action fun slice b r =>
        (.slice slice.length b.info, r.enterSlice name slice entered))
    (hends : Ends (action (a, s.store)) (fun slice t => slice.length = len ∧ good (t.1.bytes slice))
      fun _ _ => a.TooMuch len) :
    (∃ slice b, s.Granted name command len entered slice b ∧ good (b.bytes slice)) ∨
      s.Denied name a command len := by
  have hserve := Arena.ends_serve_singleton action some (a, s.store)
  have hhands : s.handsOut name command = (Arena.serve [some <$> action] (a, s.store)).1 := by
    rw [handsOut, ha, hrequests]
  have hrun : s.step command = s.runArena name a action fun slice b r =>
      (.slice slice.length b.info, r.enterSlice name slice entered) := by
    rw [hstep, ha]
    rfl
  unfold runArena at hrun
  cases hresult : action (a, s.store) with
  | error abort t =>
    rw [hresult] at hends hserve hrun
    rw [hserve] at hhands
    exact .inr ⟨hhands, hends, abort, by rw [hrun]⟩
  | ok slice t =>
    rw [hresult] at hends hserve hrun
    rw [hserve] at hhands
    obtain ⟨rfl, hgood⟩ := hends
    refine .inl ⟨slice, t.1, ⟨hhands, rfl, by rw [hrun], ?_, ?_⟩, hgood⟩
    · rw [hrun]
      cases entered <;> exact Table.get?_put_self _ _ _
    · rintro own hown
      cases hown
      rw [hrun]
      exact Table.get?_put_self _ _ _

/-- **Asking for a slice** grants one, zero if zeros are wanted, or it was too much. -/
theorem Sound.granted_get (h : s.Sound) (ha : s.arenas.get? name = some a) (hlaid : a.Laid slices)
    (len : Nat) (zero : Bool) (entered : Option String) :
    (∃ slice b, s.Granted name (.arena (.get name len zero entered)) len entered slice b ∧
        (zero = true → b.bytes slice = List.replicate len 0)) ∨
      s.Denied name a (.arena (.get name len zero entered)) len := by
  have hmem := Table.mem_values_of_get? ha
  obtain ⟨others, hstore⟩ := h.store_of_arena hmem
  exact granted_or_denied (fun row => zero = true → row = List.replicate len 0) ha
    (if_pos rfl) rfl ((hlaid.ends_get hstore (h.arenas_lt a hmem) len zero).mono
      (fun _ _ ht => ht.2) fun _ _ ht => ht.2)

/-- **Copying a row** grants a slice that holds it, or it was too much. -/
theorem Sound.granted_copy (h : s.Sound) (ha : s.arenas.get? name = some a)
    (hlaid : a.Laid slices) (row : List UInt8) (entered : Option String) :
    (∃ slice b, s.Granted name (.arena (.copy name row entered)) row.length entered slice b ∧
        b.bytes slice = row) ∨
      s.Denied name a (.arena (.copy name row entered)) row.length := by
  have hmem := Table.mem_values_of_get? ha
  obtain ⟨others, hstore⟩ := h.store_of_arena hmem
  refine granted_or_denied (fun bytes => bytes = row) ha (if_pos rfl) rfl
    ((hlaid.ends_copy hstore (h.arenas_lt a hmem) row).mono (fun slice t ht => ⟨?_, ht.2⟩)
      fun _ _ ht => ht.2)
  rw [← ht.2, ht.1.length_bytes]

/-! ## Other commands -/

/-- **Slices stay as they are** during a command: the memory they lie in is held as before,
and their bytes change only if the command writes through them. -/
structure Stays (s : Session) (name : String) (slices : List Slice) (a : Arena)
    (command : Command) (b : Arena) : Prop where
  found : (s.step command).2.arenas.get? name = some b
  chunks : a.chunks.map Loan.terms <+: b.chunks.map Loan.terms
  bytes : ∀ slice ∈ slices, (∀ own value, command = .arena (.fill own value) →
    s.slices.get? own ≠ some (name, slice)) → b.bytes slice = a.bytes slice

/-- A slice that is found is in the table. -/
theorem entry_of_slice? {own arenaName : String} {slice : Slice}
    (h : s.slice? own = some (arenaName, a, slice)) :
    s.slices.get? own = some (arenaName, slice) := by
  unfold slice? at h
  obtain ⟨entry, hentry, h⟩ := Option.bind_eq_some_iff.mp h
  obtain ⟨found, -, h⟩ := Option.bind_eq_some_iff.mp h
  cases h
  exact hentry

/-- **A command that does not end slices** leaves them as they are. -/
theorem Sound.stays_step (h : s.Sound) (hout : s.Out name slices)
    (ha : s.arenas.get? name = some a) (hends : s.endsSlices name command = false) :
    ∃ b, s.Stays name slices a command b := by
  have hlaid := hout.laid a ha
  rcases h.arena_step hends with ⟨own, value, found, written, rfl, hwritten, hfound⟩ | hserved
  · obtain rfl : a = found := Option.some.inj (ha.symm.trans (arena_of_slice? hwritten))
    refine ⟨_, hfound, ?_, fun slice hslice hothers => ?_⟩
    · exact Arena.terms_modifyChunk a written (fun loan => loan.terms_fill _ _ _) ▸
        List.prefix_rfl
    · have hentry := entry_of_slice? hwritten
      have hne : written ≠ slice := by
        rintro rfl
        exact hothers own value rfl hentry
      exact Arena.bytes_fill_of_apart
        (hlaid.apart_of_ne (hout.entered own written hentry) hslice hne) a value
  · rw [ha] at hserved
    have hkeeps := (h.handsOut_arena ha hlaid command).keeps
    exact ⟨_, hserved, hkeeps.terms, fun slice hslice _ => hkeeps.bytes slice hslice⟩

/-! ## Pages -/

/-- **A page that an arena holds** is of its pool, is nowhere else, and nobody else holds
it. -/
structure KeepsPages (s : Session) (name : String) (a : Arena) : Prop where
  home_eq : ∀ lease ∈ a.leases, lease.home = a.home
  places : ∀ lease ∈ a.leases, s.places a.home lease.page.id = {.lent lease.generation}
  holder_eq : ∀ position lease, a.chunks[position]? = some (.pooled lease) →
    ∀ holder other, s.held holder = some (.pooled other) → other.home = a.home →
      other.page.id = lease.page.id → holder = .chunk name position

/-- The pages of an arena in a session in order are its own. -/
theorem Sound.keepsPages (h : s.Sound) (ha : s.arenas.get? name = some a)
    (hhome : a.AtHome) : s.KeepsPages name a := by
  have hheld {position : Nat} {lease : Lease}
      (hchunk : a.chunks[position]? = some (.pooled lease)) :
      s.held (.chunk name position) = some (.pooled lease) ∧ lease.home = a.home := by
    refine ⟨?_, hhome _ (List.mem_of_getElem? hchunk) lease.home rfl⟩
    rw [Session.held, ha]
    exact hchunk
  refine ⟨fun lease hlease => ?_, fun lease hlease => ?_,
    fun position lease hchunk holder other hother hsame hpage => ?_⟩
  · obtain ⟨position, hchunk⟩ := Arena.exists_of_mem_leases hlease
    exact (hheld hchunk).2
  · obtain ⟨position, hchunk⟩ := Arena.exists_of_mem_leases hlease
    obtain ⟨hin, hown⟩ := hheld hchunk
    rw [← hown]
    exact h.places_of_held hin
  · obtain ⟨hin, hown⟩ := hheld hchunk
    exact h.eq_of_held hin hother (hsame.trans hown.symm) hpage

/-! ## Giving everything back -/

/-- **An arena gives everything back**: its pool collects each page once, and as many fewer
are outstanding. -/
structure GivesBack (s : Session) (a : Arena) (t : Store) : Prop where
  collects : s.store.Collects a.home a.leases t
  outstanding : (s.store.pool a.home).outstanding =
    (t.pool a.home).outstanding + a.leases.length

/-- No more pages come back than were borrowed. -/
theorem released_le_borrowed (commands : List Command) (number : Nat) :
    ((({} : Session).play commands).2.store.pool number).released ≤
      ((({} : Session).play commands).2.store.pool number).borrowed := by
  obtain ⟨rows, hrows⟩ := exists_chronicle commands number
  rw [hrows.conserves.borrowed]
  exact Nat.le_add_left _ _

/-- A pool that has collected pages has as many fewer outstanding. -/
theorem outstanding_of_collects {p q : Pool} {leases : List Lease} (h : p.Collects leases q)
    (hle : q.released ≤ q.borrowed) : p.outstanding = q.outstanding + leases.length := by
  have hborrowed := h.borrowed
  have hreleased := h.released
  unfold Pool.outstanding
  omega

/-- Releasing the memory of an arena gives it all back. -/
theorem Sound.collects_of_release (h : s.Sound) (ha : s.arenas.get? name = some a)
    (hhome : a.AtHome) {t : Store} (hrelease : a.release s.store = .ok () t) :
    s.store.Collects a.home a.leases t := by
  obtain ⟨others, hstore⟩ := h.store_of_arena (Table.mem_values_of_get? ha)
  have hcollects := hstore.collects_forM hhome
  change Ends (a.release s.store) _ _ at hcollects
  rwa [hrelease] at hcollects

/-! ## The sessions that can be reached -/

/-- **Slices are apart and stay as they are**, in every session that can be reached by any
commands. Those that an arena has handed out since it was made or reset lie in chunks that
it holds, have no byte in common, and are seen as long as they are; the slices with names
are among them. A slice that is asked for has the length that was asked for, and zeros or
the copy if these are wanted; only what is too much is denied. A command that does not
end slices leaves their bytes alone, unless it writes through one of them. No page of the
arena is with anybody else. Once the arena is reset or released, each of its pages is
back in the pool, nothing is lost, and what was reset is a new arena. -/
theorem slices_apart_and_stable (commands : List Command) (name : String) (a : Arena)
    (ha : (({} : Session).play commands).2.arenas.get? name = some a) :
    let s := (({} : Session).play commands).2
    let slices := slicesOut name commands
    a.Laid slices ∧ (∀ slice ∈ slices, (a.bytes slice).length = slice.length) ∧
      (∀ own slice, s.slices.get? own = some (name, slice) → slice ∈ slices) ∧
      (∀ len zero entered,
        (∃ slice b, s.Granted name (.arena (.get name len zero entered)) len entered slice b ∧
          (zero = true → b.bytes slice = List.replicate len 0)) ∨
        s.Denied name a (.arena (.get name len zero entered)) len) ∧
      (∀ row entered,
        (∃ slice b, s.Granted name (.arena (.copy name row entered)) row.length entered slice b ∧
          b.bytes slice = row) ∨
        s.Denied name a (.arena (.copy name row entered)) row.length) ∧
      (∀ command, s.endsSlices name command = false →
        slicesOut name (commands ++ [command]) = slices ++ s.handsOut name command ∧
          ∃ b, s.Stays name slices a command b) ∧
      s.KeepsPages name a ∧
      (∃ t, s.GivesBack a t ∧ slicesOut name (commands ++ [.arena (.reset name)]) = [] ∧
        s.step (.arena (.reset name)) = (.arena (Arena.new a.home a.size).info,
          { s.endSlices name with
            store := t, arenas := s.arenas.put name (.new a.home a.size) })) ∧
      ∃ t, s.GivesBack a t ∧ slicesOut name (commands ++ [.arena (.release name)]) = [] ∧
        s.step (.arena (.release name)) = (.done,
          { s.endSlices name with store := t, arenas := s.arenas.erase name }) := by
  intro s slices
  have hsound : s.Sound := sound_play commands
  have hout : s.Out name slices := out_play name commands
  have hlaid : a.Laid slices := hout.laid a ha
  have hhome : a.AtHome := hout.home a ha
  -- once the memory is given back, the slices are not out any more
  have hback {command : Command} {answer : Answer} {next : Session}
      (hstep : s.step command = (answer, next)) (hrelease : a.release s.store = .ok () next.store)
      (hended : command.endsArena? = some name) (hanswer : answer.isCarriedOut = true) :
      s.GivesBack a next.store ∧ slicesOut name (commands ++ [command]) = [] := by
    have hcollects := hsound.collects_of_release ha hhome hrelease
    refine ⟨⟨hcollects, outstanding_of_collects hcollects.pool ?_⟩, ?_⟩
    · have hle := released_le_borrowed (commands ++ [command]) a.home
      rw [play_concat] at hle
      change ((s.step command).2.store.pool a.home).released ≤ _ at hle
      rwa [hstep] at hle
    · rw [slicesOut_concat]
      have hends : s.endsSlices name command = true := by
        rw [endsSlices, hstep, decide_eq_true hended]
        exact hanswer
      exact if_pos hends
  refine ⟨hlaid, fun slice hslice => hlaid.length_bytes hslice, hout.entered,
    hsound.granted_get ha hlaid, hsound.granted_copy ha hlaid, fun command hends => ⟨?_, ?_⟩,
    hsound.keepsPages ha hhome, ?_, ?_⟩
  · rw [slicesOut_concat]
    refine if_neg ?_
    rw [hends]
    exact Bool.false_ne_true
  · exact hsound.stays_step hout ha hends
  · obtain ⟨t, hrelease, hstep⟩ := hsound.step_reset ha
    obtain ⟨hgives, hnone⟩ := hback hstep hrelease rfl rfl
    exact ⟨t, hgives, hnone, hstep⟩
  · obtain ⟨t, hrelease, hstep⟩ := hsound.step_release ha
    obtain ⟨hgives, hnone⟩ := hback hstep hrelease rfl rfl
    exact ⟨t, hgives, hnone, hstep⟩

/-- Zeros in a page that was written to before, and a copy behind them in the same
fragment. -/
theorem slices_share_fragment :
    let commands : List Command := [.pool (.make "pool"), .pool (.borrow "pool" 64 false "loan"),
      .loan (.fill "loan" 7 { stop := some 6 }), .loan (.release "loan"),
      .arena (.make "pool" 64 false "arena"),
      .arena (.get "arena" 4 true (some "zeros")), .arena (.copy "arena" [1, 2] none)]
    ∃ a, (({} : Session).play commands).2.arenas.get? "arena" = some a ∧
      slicesOut "arena" commands = [⟨0, 0, 4⟩, ⟨0, 4, 2⟩] ∧
      a.Laid [⟨0, 0, 4⟩, ⟨0, 4, 2⟩] ∧ a.bytes ⟨0, 0, 4⟩ = [0, 0, 0, 0] ∧
      a.bytes ⟨0, 4, 2⟩ = [1, 2] := by
  intro commands
  have hout : slicesOut "arena" commands = [⟨0, 0, 4⟩, ⟨0, 4, 2⟩] := by rfl
  obtain ⟨a, ha, hzeros, hcopy⟩ : ∃ a, (({} : Session).play commands).2.arenas.get? "arena" =
      some a ∧ a.bytes ⟨0, 0, 4⟩ = [0, 0, 0, 0] ∧ a.bytes ⟨0, 4, 2⟩ = [1, 2] :=
    ⟨_, rfl, rfl, rfl⟩
  have hlaid := (slices_apart_and_stable commands "arena" a ha).1
  exact ⟨a, ha, hout, hout ▸ hlaid, hzeros, hcopy⟩

end Session

end Wirepool
