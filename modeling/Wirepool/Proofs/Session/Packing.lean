import Wirepool.Proofs.Arena.Packing
import Wirepool.Proofs.Session.Slices

/-!
# Arenas are packed

An arena is asked for memory by plain requests, by copies, by messages that are encoded into
it and by decoders that copy payloads, and meanwhile anything else may happen, writes through
slices included. What it has been asked for since it was made or reset the last time is read
off the commands (`asked`); how it is packed is a matter of these lengths alone. As long as
no request is aborted the two agree, in every session that can be reached.

Slices can be held back: a message that fails while it is written has got its slice by then,
and a decoder keeps its copies to itself. So the slices that are out are among those that
were cut, and there may be others.
-/

namespace Wirepool

/-- Whether a command was aborted. -/
def Answer.isAborted : Answer → Bool
  | aborted _ => true
  | _ => false

namespace Arena

/-- What is said of the answers of a single request is that it is served. -/
theorem ends_allServed_singleton {α : Type} (action : HolderM Arena α) (f : α → Option Slice)
    (t : Arena × Store) :
    Ends (action t) (fun _ _ => AllServed [f <$> action] t) fun _ _ => True := by
  unfold AllServed
  simp only [Functor.map, EStateM.map]
  cases action t <;> trivial

/-- Copies in turn are made if all of them are served. -/
theorem ends_allServed_copies (rows : List (List UInt8)) (t : Arena × Store) :
    Ends (rows.forM (fun row => discard (copy row)) t)
      (fun _ _ => AllServed (rows.map fun row => some <$> copy row) t) fun _ _ => True := by
  induction rows generalizing t with
  | nil => trivial
  | cons row rows ih =>
    rw [List.forM_eq_forM, List.forM_cons, List.map_cons]
    unfold AllServed
    simp only [bind, EStateM.bind, discard, Functor.mapConst, Functor.map, EStateM.map,
      Function.comp]
    cases copy row t with
    | error abort u => trivial
    | ok slice u => exact ih u

end Arena

namespace Session

variable {s : Session} {name : String} {command : Command} {a : Arena}

/-! ## What an arena is asked for -/

/-- **The lengths that a command asks an arena for**, in turn. -/
def asks (s : Session) (name : String) : Command → List Nat
  | .arena (.get own len _ _) => if own = name then [len] else []
  | .arena (.copy own row _) => if own = name then [row.length] else []
  | .message (.encodeInArena own order script _) =>
    if own = name then Arena.measured script order else []
  | .message (.decode source (some own) order calls fallible) =>
    if own = name then
      match s.sourceBytes? source with
      | some input => (Wirepool.decode order input calls fallible).1.toArena.map List.length
      | none => []
    else []
  | _ => []

/-- What an arena has been asked for after a command, with what it had been asked for before
it. Nothing is said any more once a command that asks for something was aborted. -/
def askedAfter (s : Session) (name : String) (lengths : Option (List Nat)) (command : Command) :
    Option (List Nat) :=
  if s.endsSlices name command then some []
  else if s.asks name command ≠ [] ∧ (s.step command).1.isAborted then none
  else lengths.map (· ++ s.asks name command)

/-- What it has been asked for after commands, with what it had been asked for before
them. -/
def askedSince (s : Session) (name : String) (lengths : Option (List Nat)) :
    List Command → Option (List Nat)
  | [] => lengths
  | command :: commands =>
    (s.step command).2.askedSince name (s.askedAfter name lengths command) commands

/-- **What an arena has been asked for** since it was made or reset the last time, if no
request was aborted. -/
def asked (name : String) (commands : List Command) : Option (List Nat) :=
  ({} : Session).askedSince name none commands

/-- What it has been asked for after commands, the last of which is given apart. -/
theorem asked_concat (name : String) (commands : List Command) (command : Command) :
    asked name (commands ++ [command]) =
      (({} : Session).play commands).2.askedAfter name (asked name commands) command := by
  have happend (s : Session) (lengths : Option (List Nat)) :
      s.askedSince name lengths (commands ++ [command]) =
        (s.play commands).2.askedAfter name (s.askedSince name lengths commands) command := by
    induction commands generalizing s lengths with
    | nil => rfl
    | cons first commands ih => exact ih _ _
  exact happend {} none

/-- **The requests of a command** are for these lengths. -/
theorem packs_requests (s : Session) (name : String) (command : Command) :
    ∃ lengths, List.Forall₂ Arena.Packs (s.requests name command) lengths ∧
      lengths.flatten = s.asks name command := by
  -- whoever names another arena, or none, asks for nothing
  have hnothing : ∃ lengths, List.Forall₂ Arena.Packs [] lengths ∧ lengths.flatten = [] :=
    ⟨[], .nil, rfl⟩
  cases command with
  | arena command =>
    cases command with
    | get own len zero slice =>
      rw [requests, asks]
      split
      · exact ⟨[[len]], .cons (Arena.packs_get len zero) .nil, rfl⟩
      · exact hnothing
    | copy own row slice =>
      rw [requests, asks]
      split
      · exact ⟨[[row.length]], .cons (Arena.packs_copy row) .nil, rfl⟩
      · exact hnothing
    | _ => exact hnothing
  | message command =>
    cases command with
    | encode pool order script loan => exact hnothing
    | encodeInArena own order script slice =>
      rw [requests, asks]
      split
      · exact ⟨[_], .cons (Arena.packs_encodeInArena script order) .nil, List.flatten_singleton⟩
      · exact hnothing
    | decode source own order calls fallible =>
      cases own with
      | none => exact hnothing
      | some own =>
        rw [requests, asks]
        split
        · cases s.sourceBytes? source with
          | none => exact hnothing
          | some input =>
            refine ⟨(decode order input calls fallible).1.toArena.map fun row => [row.length],
              ?_, ?_⟩
            · exact List.forall₂_map_left_iff.2 (List.forall₂_map_right_iff.2
                (List.forall₂_same.2 fun row _ => Arena.packs_copy row))
            · exact List.flatMap_def.symm.trans List.map_eq_flatMap.symm
        · exact hnothing
  | _ => exact hnothing

/-- What an arena does whenever its action ends well is done, unless the command is aborted. -/
theorem of_not_aborted {α : Type} {action : HolderM Arena α} {go : α → Arena → Session → Step}
    {P : Prop} (ha : s.arenas.get? name = some a)
    (hends : Ends (action (a, s.store)) (fun _ _ => P) fun _ _ => True)
    (hanswer : (s.expect (s.arenas.get? name) fun a =>
      s.runArena name a action go).1.isAborted = false) : P := by
  rw [ha] at hanswer
  change (s.runArena name a action go).1.isAborted = false at hanswer
  unfold runArena at hanswer
  cases hresult : action (a, s.store) with
  | ok x t =>
    rw [hresult] at hends
    exact hends
  | error abort t =>
    rw [hresult] at hanswer
    cases hanswer

/-- A message that is not measured asks for nothing. -/
theorem allServed_of_measured_eq_nil {script : Script} {order : ByteOrder}
    (h : Arena.measured script order = []) (t : Arena × Store) :
    Arena.AllServed [(fun encoded => encoded.result.toOption) <$> script.encodeInArena order]
      t := by
  unfold Arena.measured at h
  have hends : Ends (script.encodeInArena order t) (fun _ _ => True) fun _ _ => False := by
    unfold Script.encodeInArena
    dsimp only
    cases hlength : (script.measure order).length with
    | error failure => trivial
    | ok length =>
      rw [hlength] at h
      cases h
  obtain ⟨encoded, u, hok, -⟩ := hends.exists_ok
  have hserved := Arena.ends_allServed_singleton (script.encodeInArena order)
    (fun encoded => encoded.result.toOption) t
  rw [hok] at hserved
  exact hserved

/-- **A command that asks an arena for something** and is not aborted is served. -/
theorem allServed_requests (ha : s.arenas.get? name = some a)
    (h : s.asks name command = [] ∨ (s.step command).1.isAborted = false) :
    Arena.AllServed (s.requests name command) (a, s.store) := by
  by_cases hnames : command.NamesArena name
  · cases command with
    | arena command =>
      cases command with
      | get own len zero slice =>
        obtain rfl : name = own := hnames
        rw [asks, if_pos rfl] at h
        rw [requests, if_pos rfl]
        exact of_not_aborted ha (Arena.ends_allServed_singleton _ _ _)
          (h.resolve_left (List.cons_ne_nil _ _))
      | copy own row slice =>
        obtain rfl : name = own := hnames
        rw [asks, if_pos rfl] at h
        rw [requests, if_pos rfl]
        exact of_not_aborted ha (Arena.ends_allServed_singleton _ _ _)
          (h.resolve_left (List.cons_ne_nil _ _))
      | _ => trivial
    | message command =>
      cases command with
      | encodeInArena own order script slice =>
        obtain rfl : name = own := hnames
        rw [asks, if_pos rfl] at h
        rw [requests, if_pos rfl]
        rcases h with hnothing | hanswer
        · exact allServed_of_measured_eq_nil hnothing _
        · exact of_not_aborted ha (Arena.ends_allServed_singleton _ _ _) hanswer
      | decode source own order calls fallible =>
        cases own with
        | none => exact hnames.elim
        | some own =>
          obtain rfl : name = own := hnames
          rw [asks, if_pos rfl] at h
          rw [requests, if_pos rfl]
          cases hinput : s.sourceBytes? source with
          | none => trivial
          | some input =>
            rw [hinput] at h
            dsimp only at h ⊢
            rcases h with hnothing | hanswer
            · rw [List.map_eq_nil_iff.1 hnothing]
              trivial
            · have hstep : s.step (.message (.decode source (some name) order calls fallible)) =
                  s.expect (s.arenas.get? name) fun arena =>
                    s.runArena name arena (decode order input calls fallible).1.copyOut
                      fun _ arena s => (.decoded (decode order input calls fallible).1.sights
                        (decode order input calls fallible).2 (some arena.info), s) := by
                show s.expect (s.sourceBytes? source) _ = _
                rw [hinput]
                rfl
              rw [hstep] at hanswer
              exact of_not_aborted ha (Arena.ends_allServed_copies _ _) hanswer
      | _ => trivial
    | _ => exact hnames.elim
  · rw [s.requests_of_not_namesArena hnames]
    trivial

/-! ## Packing -/

/-- **The arena with a name is packed**, if it was asked for the given lengths and the given
slices are out. -/
def Packed (s : Session) (name : String) (lengths : Option (List Nat)) (out : List Slice) :
    Prop :=
  ∀ a lens, s.arenas.get? name = some a → lengths = some lens →
    ∃ slices fragments, slices.map Slice.length = lens ∧ out.Sublist slices ∧
      a.Packed slices fragments

/-- A command that ends the slices of an arena leaves none, or one that holds nothing yet. -/
theorem Sound.new_of_endsSlices (h : s.Sound) (hends : s.endsSlices name command = true)
    (ha : (s.step command).2.arenas.get? name = some a) : ∃ home size, a = .new home size := by
  have hend : command.endsArena? = some name ∧ (s.step command).1.isCarriedOut = true := by
    simpa [endsSlices] using hends
  rcases h.step_of_endsArena? hend.1 with ⟨answer, hstep, hanswer⟩ | ⟨-, -, harenas⟩
  · rw [hstep, hanswer] at hend
    cases hend.2
  · rcases harenas with harenas | ⟨home, size, harenas⟩
    · rw [harenas, Table.get?_erase, if_pos rfl] at ha
      cases ha
    · rw [harenas, Table.get?_put_self] at ha
      exact ⟨home, size, (Option.some.inj ha).symm⟩

/-- **A command** leaves an arena packed. -/
theorem Sound.packed_step (h : s.Sound) {lengths : Option (List Nat)} {out : List Slice}
    (hpacked : s.Packed name lengths out) (command : Command) :
    (s.step command).2.Packed name (s.askedAfter name lengths command)
      (s.outAfter name out command) := by
  intro b lens hb hlens
  unfold askedAfter at hlens
  unfold outAfter
  cases hends : s.endsSlices name command with
  | true =>
    rw [hends, if_pos rfl] at hlens
    obtain rfl := Option.some.inj hlens
    obtain ⟨home, size, rfl⟩ := h.new_of_endsSlices hends hb
    exact ⟨[], [], rfl, List.Sublist.refl _, Arena.packed_new home size⟩
  | false =>
    rw [hends, if_neg Bool.false_ne_true] at hlens
    rw [if_neg Bool.false_ne_true]
    split at hlens
    · cases hlens
    next hserved =>
    obtain ⟨before, hbefore, rfl⟩ := Option.map_eq_some_iff.1 hlens
    rcases h.arena_step hends with ⟨own, value, a, slice, rfl, hslice, hfilled⟩ | harena
    · -- whoever writes through a slice asks for nothing
      rw [hfilled] at hb
      cases hb
      have ha := arena_of_slice? hslice
      obtain ⟨slices, fragments, hlengths, hsub, hinner⟩ := hpacked a before ha hbefore
      refine ⟨slices, fragments, hlengths.trans (List.append_nil _).symm, ?_,
        hinner.of_sameFigures (Arena.sameFigures_modifyChunk _ _ _)⟩
      rw [handsOut, ha]
      exact (List.append_nil out).symm ▸ hsub
    · rw [harena] at hb
      obtain ⟨a, ha, rfl⟩ := Option.map_eq_some_iff.1 hb
      obtain ⟨slices, fragments, hlengths, hsub, hinner⟩ := hpacked a before ha hbefore
      obtain ⟨each, hpacks, heach⟩ := s.packs_requests name command
      have hnot : s.asks name command = [] ∨ (s.step command).1.isAborted = false := by
        by_contra hnot
        rw [not_or, Bool.not_eq_false] at hnot
        exact hserved hnot
      have hall := allServed_requests ha hnot
      obtain ⟨news, fragments', hnews, hsub', hinner'⟩ := hinner.serve hpacks hall
      refine ⟨slices ++ news, fragments', ?_, ?_, hinner'⟩
      · rw [List.map_append, hlengths, hnews, heach]
      · rw [handsOut, ha]
        exact hsub.append hsub'

/-- **In every session that can be reached** arenas are packed. -/
theorem packed_play (name : String) (commands : List Command) :
    (({} : Session).play commands).2.Packed name (asked name commands)
      (slicesOut name commands) := by
  induction commands using List.reverseRecOn with
  | nil => exact nofun
  | append_singleton commands command ih =>
    rw [play_concat, asked_concat, slicesOut_concat]
    exact (sound_play commands).packed_step ih command

/-- **An arena packs what it is asked for.** Take any arena in any session that can be reached,
and the lengths that it was asked for since it was made or reset the last time, none of the
requests aborted. Its length is the sum of them; it holds one chunk for each that is longer
than a fragment, and one for each fragment that was opened. The others stand in the fragments
end to end, in order, and another fragment is opened only for a slice that the one before it
cannot hold. So two fragments in a row have served more than one of them holds, and half of
the number of fragments, times one more than their size, is at most what the requests that
are no longer than a fragment come to. The next request is served in the same way: if it asks
for nothing or for more than a fragment, it leaves the current fragment alone. -/
theorem arena_is_packed (commands : List Command) (name : String) (a : Arena)
    (lengths : List Nat) (ha : (({} : Session).play commands).2.arenas.get? name = some a)
    (hlengths : asked name commands = some lengths) :
    let s := (({} : Session).play commands).2
    ∃ slices fragments, slices.map Slice.length = lengths ∧
      (slicesOut name commands).Sublist slices ∧ a.Packed slices fragments ∧
      a.length = lengths.sum ∧
      a.chunks.length = lengths.countP (a.size < ·) + fragments.length ∧
      fragments.IsChain (fun f g => a.size < f.served + g.served) ∧
      fragments.length / 2 * (a.size + 1) ≤ (lengths.filter (· ≤ a.size)).sum ∧
      ∀ len zero, Ends (Arena.get len zero (a, s.store)) (fun slice t => a.Serves len slice t.1)
        fun _ _ => True := by
  intro s
  obtain ⟨slices, fragments, rfl, hsub, hpacked⟩ := packed_play name commands a lengths ha hlengths
  exact ⟨slices, fragments, rfl, hsub, hpacked, hpacked.length_eq, hpacked.length_chunks,
    hpacked.pairs, hpacked.half_mul_le, fun len zero => a.serves_get s.store len zero⟩

/-- A long request and an empty one between short ones, of which the third opens a fragment. -/
theorem arena_is_packed_mixed :
    let commands : List Command := [.pool (.make "pool"), .arena (.make "pool" 16 false "arena"),
      .arena (.get "arena" 5 false none), .arena (.reset "arena"),
      .arena (.get "arena" 10 true none), .arena (.copy "arena" [1, 2, 3] none),
      .arena (.get "arena" 0 false none), .arena (.get "arena" 20 false none),
      .arena (.get "arena" 7 false none)]
    asked "arena" commands = some [10, 3, 0, 20, 7] ∧
      ∃ a slices fragments, (({} : Session).play commands).2.arenas.get? "arena" = some a ∧
        a.Packed slices fragments ∧ a.length = 40 ∧ a.chunks.length = 3 ∧
        fragments.length = 2 ∧ 2 / 2 * (16 + 1) ≤ 20 := by
  intro commands
  have hasked : asked "arena" commands = some [10, 3, 0, 20, 7] := by decide +kernel
  have hfigures : ((({} : Session).play commands).2.arenas.get? "arena").map
      (fun a => (a.size, a.chunks.length)) = some (16, 3) := by decide +kernel
  obtain ⟨a, ha, hfigures⟩ := Option.map_eq_some_iff.1 hfigures
  obtain ⟨hsize, hchunks⟩ := Prod.mk.inj hfigures
  obtain ⟨slices, fragments, -, -, hpacked, hlength, hcount, -, hhalf, -⟩ :=
    arena_is_packed commands "arena" a [10, 3, 0, 20, 7] ha hasked
  rw [hsize, hchunks] at hcount
  change 3 = 1 + fragments.length at hcount
  have htwo : fragments.length = 2 := by omega
  rw [hsize, htwo] at hhalf
  exact ⟨hasked, a, slices, fragments, ha, hpacked, hlength, hchunks, htwo, hhalf⟩

end Session

end Wirepool
