import Wirepool.Proofs.Arena.Charge
import Wirepool.Proofs.Session.Stability
import Wirepool.Proofs.Wire.Copies

/-!
# Copies that a reading leaves behind

What is read does not show whether a payload was copied, so the copies have to be looked
for where they are made: in the arena. There they are slices like all others, with one
difference. A reading enters its copies under no name, so nobody can write to them, and
they hold what was read for as long as the arena holds them at all.

That a slice without a name never gets one is not obvious from the table of slices, which
takes any slice that an arena hands out. It follows from how slices are cut: one that is
handed out later on lies apart from those that are out.
-/

namespace Wirepool

namespace Session

variable {s : Session} {name : String} {command : Command} {slices news : List Slice}
  {rows : List (List UInt8)} {a : Arena}

/-- **Commands that end no slices of an arena**, carried out in turn. -/
def KeepsSlices (s : Session) (name : String) (later : List Command) : Prop :=
  ∀ front command back, later = front ++ command :: back →
    (s.play front).2.endsSlices name command = false

/-- No commands end no slices. -/
theorem keepsSlices_nil : s.KeepsSlices name [] := by
  intro front command back heq
  cases front <;> cases heq

/-- What the first command and the others keep is kept. -/
theorem keepsSlices_cons {later : List Command} :
    s.KeepsSlices name (command :: later) ↔
      s.endsSlices name command = false ∧ (s.step command).2.KeepsSlices name later := by
  refine ⟨fun h => ⟨h [] command later rfl, fun front last back heq => ?_⟩, fun h => ?_⟩
  · exact h (command :: front) last back (congrArg (command :: ·) heq)
  · intro front last back heq
    cases front with
    | nil =>
      cases heq
      exact h.1
    | cons first front =>
      cases heq
      exact h.2 front last back rfl

/-- **Rows are held without a name**: the arena has them in slices through which nobody
can write, unless there is nothing to write to. -/
structure HoldsUnnamed (s : Session) (name : String) (news : List Slice)
    (rows : List (List UInt8)) : Prop where
  holds : ∃ a, s.arenas.get? name = some a ∧ news.map a.bytes = rows
  unnamed : ∀ slice ∈ news, 0 < slice.length → ∀ own, s.slices.get? own ≠ some (name, slice)

/-- A slice that has a byte is not apart from itself. -/
theorem not_apart_self {slice : Slice} (hpos : 0 < slice.length) : ¬slice.Apart slice := fun h =>
  h slice.chunk slice.offset ⟨rfl, Nat.le_refl _, by omega⟩ ⟨rfl, Nat.le_refl _, by omega⟩

/-- What is out after a command that ends no slices is out beside what it hands out. -/
theorem Sound.out_of_not_endsSlices (h : s.Sound) (hout : s.Out name slices)
    (hends : s.endsSlices name command = false) :
    (s.step command).2.Out name (slices ++ s.handsOut name command) := by
  have hafter := h.out_step hout command
  rwa [outAfter, hends, if_neg Bool.false_ne_true] at hafter

/-- **A command that ends no slices** leaves rows that are held without a name. -/
theorem Sound.holdsUnnamed_step (h : s.Sound) (hout : s.Out name slices)
    (hnews : news ⊆ slices) (hholds : s.HoldsUnnamed name news rows)
    (hends : s.endsSlices name command = false) :
    (s.step command).2.HoldsUnnamed name news rows := by
  obtain ⟨a, ha, hrows⟩ := hholds.holds
  have hlaid := hout.laid a ha
  obtain ⟨b, hstays⟩ := h.stays_step hout ha hends
  have hlaid' := (h.out_of_not_endsSlices hout hends).laid b hstays.found
  refine ⟨⟨b, hstays.found, ?_⟩, fun slice hslice hpos own hown => ?_⟩
  · refine (List.map_congr_left fun slice hslice => ?_).trans hrows
    rcases Nat.eq_zero_or_pos slice.length with hzero | hpos
    · have hbefore := hlaid.length_bytes (hnews hslice)
      have hbehind := hlaid'.length_bytes (List.mem_append_left _ (hnews hslice))
      rw [hzero, List.length_eq_zero_iff] at hbefore hbehind
      rw [hbehind, hbefore]
    · exact hstays.bytes slice (hnews hslice) fun own _ _ => hholds.unnamed slice hslice hpos own
  · rcases (h.entered_step hown).2 with hbefore | hnew
    · exact hholds.unnamed slice hslice hpos own hbefore
    · exact not_apart_self hpos
        ((List.pairwise_append.mp hlaid'.apart).2.2 slice (hnews hslice) slice hnew)

/-- **So do such commands in turn.** -/
theorem Sound.holdsUnnamed_play {later : List Command} (h : s.Sound) (hout : s.Out name slices)
    (hnews : news ⊆ slices) (hholds : s.HoldsUnnamed name news rows)
    (hkeeps : s.KeepsSlices name later) :
    (s.play later).2.HoldsUnnamed name news rows := by
  induction later generalizing s slices with
  | nil => exact hholds
  | cons command later ih =>
    obtain ⟨hends, hkeeps⟩ := keepsSlices_cons.mp hkeeps
    exact ih (h.obeys_step command).sound (h.out_of_not_endsSlices hout hends)
      (List.Subset.trans hnews (List.subset_append_left _ _))
      (h.holdsUnnamed_step hout hnews hholds hends) hkeeps

/-! ## Copies that are made -/

/-- **An arena has taken copies of rows** and is now as in the session: it was `a`, and the
copies are the slices `news`. -/
structure Filled (s : Session) (name : String) (a : Arena) (rows : List (List UInt8))
    (news : List Slice) (b : Arena) : Prop where
  found : s.arenas.get? name = some b
  /-- The arena is charged with the copies. -/
  charged : a.Charged (rows.map List.length).sum b
  /-- As long as the slices of the arena are not ended, each copy holds what was copied. -/
  kept (later : List Command) : s.KeepsSlices name later →
    ∃ c, (s.play later).2.arenas.get? name = some c ∧ news.map c.bytes = rows

/-- **A command that makes copies** in an arena and enters nothing makes them all, or one of
them is too much. -/
theorem Sound.filled_step {α : Type} {action : HolderM Arena α}
    {go : α → Arena → Session → Step} (h : s.Sound) (hout : s.Out name slices)
    (ha : s.arenas.get? name = some a) (hne : command.endsArena? ≠ some name)
    (hrequests : s.requests name command = rows.map fun row => some <$> Arena.copy row)
    (hstep : s.step command = s.runArena name a action go) (hgo : ∀ x b t, (go x b t).2 = t)
    (hends : Ends (action (a, s.store))
      (fun _ t => ∃ news, Arena.serve (rows.map fun row => some <$> Arena.copy row) (a, s.store) =
        (news, t) ∧ a.Copied slices rows news t.1)
      fun _ _ => a.TooMuchOf rows) :
    (∃ b x, (s.step command).1 = (go x b (s.step command).2).1 ∧
      Arena.serve (rows.map fun row => some <$> Arena.copy row) (a, s.store) =
        (s.handsOut name command, b, (s.step command).2.store) ∧
      (∀ other, other ≠ name → (s.step command).2.arenas.get? other = s.arenas.get? other) ∧
      (s.step command).2.Filled name a rows (s.handsOut name command) b) ∨
    a.TooMuchOf rows ∧ ∃ abort, (s.step command).1 = .aborted abort := by
  have hhands : s.handsOut name command =
      (Arena.serve (rows.map fun row => some <$> Arena.copy row) (a, s.store)).1 := by
    rw [handsOut, ha, hrequests]
  unfold runArena at hstep
  cases hresult : action (a, s.store) with
  | error abort t =>
    rw [hresult] at hends hstep
    exact .inr ⟨hends, abort, by rw [hstep]⟩
  | ok x t =>
    rw [hresult] at hends hstep
    obtain ⟨news, hserve, hcopied⟩ := hends
    obtain rfl : s.handsOut name command = news := by rw [hhands, hserve]
    have hafter : (s.step command).2 =
        { s with store := t.2, arenas := s.arenas.put name t.1 } := by
      rw [hstep]
      exact hgo _ _ _
    have hfound : (s.step command).2.arenas.get? name = some t.1 := by
      rw [hafter]
      exact Table.get?_put_self _ _ _
    refine .inl ⟨t.1, x, by rw [hafter, hstep], by rw [hserve, hafter], fun other hother => ?_,
      hfound, hcopied.charged, fun later hkeeps => ?_⟩
    · rw [hafter]
      exact Table.get?_put_of_ne _ hother _
    have hout' : (s.step command).2.Out name (slices ++ s.handsOut name command) :=
      h.out_of_not_endsSlices hout (s.endsSlices_of_ne hne)
    have hunnamed : ∀ slice ∈ s.handsOut name command, 0 < slice.length →
        ∀ own, (s.step command).2.slices.get? own ≠ some (name, slice) := by
      intro slice hslice hpos own hown
      rw [hafter] at hown
      exact not_apart_self hpos ((List.pairwise_append.mp hcopied.handsOut.laid.apart).2.2 slice
        (hout.entered own slice hown) slice hslice)
    exact ((h.obeys_step command).sound.holdsUnnamed_play hout'
      (List.subset_append_right _ _) ⟨⟨t.1, hfound, hcopied.bytes⟩, hunnamed⟩ hkeeps).holds

/-! ## Readings with an arena

What a reading asks of arenas is that they copy rows. Any of them might as well have been
copied by a command of its own, and that is what a reading comes to for a session. -/

/-- **The commands that make copies** in the arenas that they are addressed to. -/
def copyingOut (copies : List (String × List UInt8)) : List Command :=
  copies.map fun copy => .arena (.copy copy.1 copy.2 none)

/-- A copy that is entered under no name. -/
theorem step_copy (ha : s.arenas.get? name = some a) (row : List UInt8) :
    s.step (.arena (.copy name row none)) = s.runArena name a (Arena.copy row)
      fun slice arena s => (.slice slice.length arena.info, s) := by
  show s.expect (s.arenas.get? name) _ = _
  rw [ha]
  rfl

/-- **Commands that copy in one arena** do what it does if it is asked for these copies, as
long as it makes them. -/
theorem play_copyingOut {s : Session} {a : Arena} {news : List Slice} {t : Arena × Store}
    {rows : List (List UInt8)} (ha : s.arenas.get? name = some a)
    (hserve : Arena.serve (rows.map fun row => some <$> Arena.copy row) (a, s.store) = (news, t))
    (hall : news.length = rows.length) :
    let u := (s.play (copyingOut (rows.map fun row => (name, row)))).2
    u.store = t.2 ∧ u.arenas.get? name = some t.1 ∧
      ∀ other, other ≠ name → u.arenas.get? other = s.arenas.get? other := by
  induction rows generalizing s a news with
  | nil =>
    cases hserve
    exact ⟨rfl, ha, fun _ _ => rfl⟩
  | cons row rows ih =>
    rw [List.map_cons] at hserve
    unfold Arena.serve at hserve
    simp only [Functor.map, EStateM.map] at hserve
    have hstep := step_copy ha row
    unfold runArena at hstep
    cases hresult : Arena.copy row (a, s.store) with
    | error abort t' =>
      rw [hresult] at hserve
      cases hserve
      cases hall
    | ok slice t' =>
      rw [hresult] at hserve hstep
      cases hserve
      have hnext : (s.step (.arena (.copy name row none))).2 =
          { s with store := t'.2, arenas := s.arenas.put name t'.1 } := congrArg Prod.snd hstep
      obtain ⟨hstore, hself, hothers⟩ := ih (s := (s.step (.arena (.copy name row none))).2)
        (a := t'.1) (by rw [hnext]; exact Table.get?_put_self _ _ _) (by rw [hnext]; rfl)
        (Nat.succ.inj hall)
      refine ⟨hstore, hself, fun other hne => (hothers other hne).trans ?_⟩
      rw [hnext]
      exact Table.get?_put_of_ne _ hne _

/-- **A reading with an arena** comes to its result, and its copies are made. -/
structure CopiesInto (s : Session) (name : String) (a : Arena) (command : Command)
    (reading : Reading) (result : Except Failure Unit) (b : Arena) : Prop
    extends Filled (s.step command).2 name a reading.toArena (s.handsOut name command) b where
  answer : (s.step command).1 = .decoded reading.sights result (some b.info)
  /-- All pools are as these copies leave them. -/
  store_eq : (s.step command).2.store =
    (s.play (copyingOut (reading.toArena.map fun row => (name, row)))).2.store
  /-- So are the arenas. -/
  arenas_eq (other : String) : (s.step command).2.arenas.get? other =
    (s.play (copyingOut (reading.toArena.map fun row => (name, row)))).2.arenas.get? other

/-- **A reading with an arena makes its copies**, or one of them is too much. -/
theorem Sound.copiesInto_step (h : s.Sound) (hout : s.Out name slices)
    (ha : s.arenas.get? name = some a) {source : Source} {input : List UInt8}
    (hinput : s.sourceBytes? source = some input) (order : ByteOrder) (calls : List ReadCall)
    (fallible : Bool) :
    let command := .message (.decode source (some name) order calls fallible)
    let decoded := decode order input calls fallible
    (∃ b, s.CopiesInto name a command decoded.1 decoded.2 b) ∨
      a.TooMuchOf decoded.1.toArena ∧ ∃ abort, (s.step command).1 = .aborted abort := by
  intro command decoded
  have hmem := Table.mem_values_of_get? ha
  obtain ⟨others, hstore⟩ := h.store_of_arena hmem
  have hends := (hout.laid a ha).ends_copies hstore (h.arenas_lt a hmem) decoded.1.toArena
  have hrequests : s.requests name command =
      decoded.1.toArena.map fun row => some <$> Arena.copy row := by
    rw [requests, if_pos rfl, hinput]
  have hstep : s.step command = s.runArena name a decoded.1.copyOut fun _ arena s =>
      (.decoded decoded.1.sights decoded.2 (some arena.info), s) := by
    show s.expect (s.sourceBytes? source) _ = _
    rw [hinput]
    show s.expect (s.arenas.get? name) _ = _
    rw [ha]
    rfl
  have hne : command.endsArena? ≠ some name := (Option.some_ne_none name).symm
  refine (h.filled_step hout ha hne hrequests hstep (fun _ _ _ => rfl) hends).imp_left
    fun hfilled => ?_
  obtain ⟨b, -, hanswer, hserved, hothers, hfilled⟩ := hfilled
  obtain ⟨c, -, hrows⟩ := hfilled.kept [] keepsSlices_nil
  have hall : (s.handsOut name command).length = decoded.1.toArena.length := by
    rw [← hrows, List.length_map]
  obtain ⟨hcopied, hself, hsame⟩ := play_copyingOut ha hserved hall
  refine ⟨b, hfilled, hanswer, hcopied.symm, fun other => ?_⟩
  by_cases heq : other = name
  · rw [heq, hfilled.found, hself]
  · rw [hothers other heq, hsame other heq]

/-! ## Readings with several arenas

A decoder asks for its copies while it reads, and which arenas take them changes with each
attaching. What it finds does not depend on them, so for the session such a reading is its
copies, made in turn in the arenas that they are addressed to. -/

/-- The rows that are addressed to an arena. -/
def addressedTo (name : String) (copies : List (String × List UInt8)) : List (List UInt8) :=
  (copies.filter fun copy => copy.1 = name).map Prod.snd

theorem addressedTo_cons_self (name : String) (row : List UInt8)
    (copies : List (String × List UInt8)) :
    addressedTo name ((name, row) :: copies) = row :: addressedTo name copies := by
  simp [addressedTo]

theorem addressedTo_cons_of_ne {other : String} (hne : other ≠ name) (row : List UInt8)
    (copies : List (String × List UInt8)) :
    addressedTo name ((other, row) :: copies) = addressedTo name copies := by
  simp [addressedTo, hne]

/-- Copies end no slices, so what ends none behind them ends none in all. -/
theorem keepsSlices_copyingOut_append (copies : List (String × List UInt8)) {later : List Command}
    (h : (s.play (copyingOut copies)).2.KeepsSlices name later) :
    s.KeepsSlices name (copyingOut copies ++ later) := by
  induction copies generalizing s with
  | nil => exact h
  | cons copy copies ih =>
    exact keepsSlices_cons.mpr
      ⟨s.endsSlices_of_ne (Option.some_ne_none name).symm, ih h⟩

/-- **A copy** is made in the arena it is addressed to, or it is too much. -/
theorem Sound.filled_copy (h : s.Sound) (hout : s.Out name slices)
    (ha : s.arenas.get? name = some a) (row : List UInt8) :
    let command := .arena (.copy name row none)
    (∃ b news, (∀ other, other ≠ name →
        (s.step command).2.arenas.get? other = s.arenas.get? other) ∧
      (s.step command).2.Filled name a [row] news b) ∨
    a.TooMuchOf [row] ∧ ∃ abort, (s.step command).1 = .aborted abort := by
  intro command
  have hmem := Table.mem_values_of_get? ha
  obtain ⟨others, hstore⟩ := h.store_of_arena hmem
  have hends := (hout.laid a ha).copied_copy hstore (h.arenas_lt a hmem) row
  have hrequests : s.requests name command = [row].map fun row => some <$> Arena.copy row := by
    rw [requests, if_pos rfl]
    rfl
  have hne : command.endsArena? ≠ some name := (Option.some_ne_none name).symm
  refine (h.filled_step hout ha hne hrequests (step_copy ha row) (fun _ _ _ => rfl)
    (hends.mono (fun slice _ ht => ⟨[slice], ht⟩) fun _ _ ht => ht)).imp_left fun hfilled => ?_
  obtain ⟨b, -, -, -, hothers, hfilled⟩ := hfilled
  exact ⟨b, _, hothers, hfilled⟩

/-- An arena that has taken copies takes others, while copies are made. -/
theorem Filled.trans {b c : Arena} {more : List (List UInt8)} {later : List Slice}
    {copies : List (String × List UInt8)} (h : s.Filled name a rows news b)
    (h' : (s.play (copyingOut copies)).2.Filled name b more later c) :
    (s.play (copyingOut copies)).2.Filled name a (rows ++ more) (news ++ later) c := by
  refine ⟨h'.found, ?_, fun commands hkeeps => ?_⟩
  · rw [List.map_append, List.sum_append]
    exact h.charged.trans h'.charged
  · obtain ⟨d, hd, hrows⟩ := h.kept _ (keepsSlices_copyingOut_append copies hkeeps)
    obtain ⟨d', hd', hmore⟩ := h'.kept commands hkeeps
    rw [play_append] at hd
    obtain rfl : d' = d := Option.some.inj (hd'.symm.trans hd)
    exact ⟨d', hd, by rw [List.map_append, hrows, hmore]⟩

/-- **Copies are made in several arenas**, each arena taking what is addressed to it. -/
def CopiesAmong (s : Session) (copies : List (String × List UInt8)) : Prop :=
  ∀ name a, s.arenas.get? name = some a → ∃ b news,
    (s.play (copyingOut copies)).2.Filled name a (addressedTo name copies) news b

/-- **Some arena is asked for too much**, and its copy is not made. -/
def TooMuchAmong (s : Session) (copies : List (String × List UInt8)) : Prop :=
  (∃ name a, s.arenas.get? name = some a ∧ a.TooMuchOf (addressedTo name copies)) ∧
    ∃ seen ∈ (s.play (copyingOut copies)).1, ∃ abort, seen.answer = .aborted abort

/-- **Copies in turn** are all made, each in its own arena, or one of them is too much. -/
theorem Sound.copiesAmong (copies : List (String × List UInt8)) (h : s.Sound)
    (hout : ∀ name, ∃ slices, s.Out name slices)
    (hfound : ∀ copy ∈ copies, (s.arenas.get? copy.1).isSome) :
    s.CopiesAmong copies ∨ s.TooMuchAmong copies := by
  induction copies generalizing s with
  | nil =>
    refine .inl fun name a ha => ?_
    obtain ⟨slices, hout⟩ := hout name
    refine ⟨a, [], ha, .refl a, fun later hkeeps => ?_⟩
    exact (h.holdsUnnamed_play hout (List.nil_subset _) ⟨⟨a, ha, rfl⟩,
      fun _ hslice => absurd hslice List.not_mem_nil⟩ hkeeps).holds
  | cons copy copies ih =>
    obtain ⟨own, row⟩ := copy
    obtain ⟨a, ha⟩ := Option.isSome_iff_exists.mp (hfound (own, row) List.mem_cons_self)
    obtain ⟨slices, hown⟩ := hout own
    rcases h.filled_copy hown ha row with ⟨b, news, hothers, hfirst⟩ | ⟨hmuch, habort⟩
    · have hout' (name : String) :
          ∃ slices, (s.step (.arena (.copy own row none))).2.Out name slices := by
        obtain ⟨slices, hout⟩ := hout name
        exact ⟨_, h.out_step hout _⟩
      have hfound' : ∀ copy ∈ copies,
          ((s.step (.arena (.copy own row none))).2.arenas.get? copy.1).isSome := by
        intro copy hcopy
        by_cases heq : copy.1 = own
        · rw [heq, hfirst.found]
          rfl
        · rw [hothers _ heq]
          exact hfound copy (List.mem_cons_of_mem _ hcopy)
      rcases ih (h.obeys_step _).sound hout' hfound' with hrest | ⟨hmuch, hseen⟩
      · refine .inl fun name found hname => ?_
        by_cases heq : name = own
        · subst heq
          obtain rfl : a = found := Option.some.inj (ha.symm.trans hname)
          obtain ⟨c, later, hlater⟩ := hrest name b hfirst.found
          rw [addressedTo_cons_self]
          exact ⟨c, _, hfirst.trans hlater⟩
        · rw [addressedTo_cons_of_ne (Ne.symm heq)]
          exact hrest name found ((hothers name heq).trans hname)
      · refine .inr ⟨?_, ?_⟩
        · obtain ⟨name, found, hname, hmuch⟩ := hmuch
          by_cases heq : name = own
          · subst heq
            obtain rfl : b = found := Option.some.inj (hfirst.found.symm.trans hname)
            refine ⟨name, a, ha, ?_⟩
            rw [addressedTo_cons_self]
            exact hmuch.of_tail hfirst.charged
          · refine ⟨name, found, (hothers name heq).symm.trans hname, ?_⟩
            rwa [addressedTo_cons_of_ne (Ne.symm heq)]
        · obtain ⟨seen, hmem, habort⟩ := hseen
          exact ⟨seen, List.mem_cons_of_mem _ hmem, habort⟩
    · obtain ⟨abort, habort⟩ := habort
      refine .inr ⟨⟨own, a, ha, ?_⟩, _, List.mem_cons_self, abort, habort⟩
      rw [addressedTo_cons_self]
      exact hmuch.of_sublist ((List.nil_sublist _).cons_cons row)

/-- **Copying is not seen in what is read.** Two rows of calls that differ only in which
payloads are to be copies and in where an arena is attached show the same values, unread
bytes and faults, call by call, and come to the same result. A payload is a copy on the
heap exactly if a copy was asked for, no arena was attached and the read succeeded, and it
goes to the arena exactly if one was; nothing else does. In every session that can be
reached, the arena is charged with the lengths of these copies, it and the pools are as
the copies leave them, and each copy holds what was read until the arena ends its slices;
if that cannot be, it is because one of them is too much. The same holds if each attaching
attaches another arena: every copy goes to the one that was attached last, and an arena is
charged with those that go to it. Without an arena a reading leaves the session as it is. -/
theorem copying_is_not_seen (order : ByteOrder) (input : List UInt8) (calls others : List ReadCall)
    (hplain : plain calls = plain others) :
    let reading := (Decoder.start order input).calls calls
    let other := (Decoder.start order input).calls others
    (shown calls reading = shown others other ∧ reading.outcome = other.outcome ∧
      ∀ fallible, (decode order input calls fallible).2 = (decode order input others fallible).2) ∧
    Decoder.SettlesAll false calls reading.sights ∧
    ∀ (commands : List Command) (source : Source) (fallible : Bool),
      let s := (({} : Session).play commands).2
      let result := (decode order input calls fallible).2
      s.sourceBytes? source = some input →
      s.step (.message (.decode source none order calls fallible)) =
          (.decoded reading.sights result none, s) ∧
        (∀ name a, s.arenas.get? name = some a →
          let command := .message (.decode source (some name) order calls fallible)
          (∃ b, s.CopiesInto name a command reading result b) ∨
            a.TooMuchOf reading.toArena ∧ ∃ abort, (s.step command).1 = .aborted abort) ∧
        ∀ arenas : Nat → String,
          let copies := reading.addressed calls arenas
          copies.map Prod.snd = reading.toArena ∧
            ((∀ copy ∈ copies, (s.arenas.get? copy.1).isSome) →
              s.CopiesAmong copies ∨ s.TooMuchAmong copies) := by
  intro reading other
  refine ⟨decode_of_plain_eq hplain order input,
    Decoder.settles_calls calls (Decoder.start order input),
    fun commands source fallible hinput => ⟨?_, fun name a ha => ?_, fun arenas =>
      ⟨reading.map_snd_addressed calls arenas, fun hfound => ?_⟩⟩⟩
  · show Session.expect _ (sourceBytes? _ source) _ = _
    rw [hinput, show reading = _ from (fst_decode order input calls fallible).symm]
    rfl
  · have hcopies := (sound_play commands).copiesInto_step (out_play name commands) ha hinput order
      calls fallible
    dsimp only at hcopies
    rw [fst_decode] at hcopies
    exact hcopies
  · exact (sound_play commands).copiesAmong _ (fun name => ⟨_, out_play name commands⟩) hfound

/-- Two copies, in one arena or in two, and the same input read without any. -/
theorem copying_is_not_seen_attached :
    let commands : List Command := [.pool (.make "pool"), .arena (.make "pool" 64 false "arena"),
      .arena (.make "pool" 64 false "other")]
    let calls : List ReadCall :=
      [.read (.text (.exactly 1) true), .attach, .read (.bytes (.exactly 1) true), .attach,
        .read (.text .rest true)]
    let others : List ReadCall :=
      [.read (.text (.exactly 1) false), .read (.bytes (.exactly 1) false),
        .read (.text .rest false)]
    let s := (({} : Session).play commands).2
    let reading := (Decoder.start .bigEndian [97, 1, 98, 99]).calls calls
    plain calls = plain others ∧
      reading.toArena = [[1], [98, 99]] ∧
      shown calls reading =
        shown others ((Decoder.start .bigEndian [97, 1, 98, 99]).calls others) ∧
      (∃ a b, s.arenas.get? "arena" = some a ∧
        s.CopiesInto "arena" a
          (.message (.decode (.bytes [97, 1, 98, 99]) (some "arena") .bigEndian calls true))
          reading (decode .bigEndian [97, 1, 98, 99] calls).2 b) ∧
      s.CopiesAmong [("arena", [1]), ("other", [98, 99])] := by
  intro commands calls others s reading
  have hrows : reading.toArena = [[1], [98, 99]] := by decide
  have hsmall {name : String} {a : Arena} (ha : s.arenas.get? name = some a) :
      ¬a.TooMuchOf [[1], [98, 99]] := by
    have hfresh : ∀ a ∈ s.arenas.values, a.length = 0 ∧ a.size = 64 := by decide
    obtain ⟨hlength, hsize⟩ := hfresh a (Table.mem_values_of_get? ha)
    unfold Arena.TooMuchOf
    rw [hlength, hsize]
    decide
  have hunseen := copying_is_not_seen .bigEndian [97, 1, 98, 99] calls others rfl
  obtain ⟨-, hstep, hamong⟩ := hunseen.2.2 commands (.bytes [97, 1, 98, 99]) true rfl
  refine ⟨rfl, hrows, hunseen.1.1, ?_, ?_⟩
  · obtain ⟨a, ha⟩ : ∃ a, s.arenas.get? "arena" = some a := ⟨_, rfl⟩
    obtain ⟨b, hcopies⟩ := (hstep "arena" a ha).resolve_right fun hmuch =>
      hsmall ha (hrows ▸ hmuch.1)
    exact ⟨a, b, ha, hcopies⟩
  · have hmakes := (hamong fun k => if k = 1 then "arena" else "other").2
    have hcopies : reading.addressed calls (fun k => if k = 1 then "arena" else "other") =
        [("arena", [1]), ("other", [98, 99])] := by decide
    rw [hcopies] at hmakes
    refine (hmakes (by decide)).resolve_right fun hmuch => ?_
    obtain ⟨name, a, ha, hmuch⟩ := hmuch.1
    exact hsmall ha (hmuch.of_sublist (List.filter_sublist.map Prod.snd))

end Session

end Wirepool
