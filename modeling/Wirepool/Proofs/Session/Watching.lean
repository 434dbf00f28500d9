import Wirepool.Proofs.Session.Endings
import Wirepool.Proofs.Session.Marks

/-!
# Watching for leaks

Two switches say who watches for lost loans. The tracker that was installed last receives a
report on each of them, unless it has been removed; a tracker that was there before receives
none any more. A loan that is made while tracing is on, by itself or because of a tracker, is
known by where it was made. All commands but the switches do what they would do without the
switches: that is a statement about two runs, one with and one without them.

The run without switches goes along with the other one. What the marks are that are given for
the loans of a run is said by the run itself: the loans that a command makes have the mark that
the switches asked for when it was carried out. So there are marks to compare the two runs by
at any time, and since a report shows the mark of its loan, it says what the switches asked for
at that time, whatever came between.
-/

namespace Wirepool

/-- The setting that asks for tracing is put in force by a switch. -/
def Settings.applyLeakCapture (s : Settings) : Command := .watch (.trace s.captureLeakBacktraces)

/-! ## What the switches say -/

namespace Session

/-- **The tracker that is installed** after some commands: the one of the last command that
installs or removes one. -/
def tracker? (commands : List Command) : Option Tracker :=
  commands.foldl (fun installed command => match command with
    | .watch (.install tracker) => tracker
    | _ => installed) none

/-- **Whether tracing was asked for by itself**, when it was last switched. -/
def traces (commands : List Command) : Bool :=
  commands.foldl (fun asked command => match command with
    | .watch (.trace on) => on
    | _ => asked) false

/-- **Whether it is kept where a loan is made** that is made after some commands. -/
def captures (commands : List Command) : Bool := (tracker? commands).isSome || traces commands

theorem tracker?_concat (commands : List Command) (command : Command) :
    tracker? (commands ++ [command]) = match command with
      | .watch (.install tracker) => tracker
      | _ => tracker? commands := by
  rw [tracker?, List.foldl_append, ← tracker?]
  rfl

theorem traces_concat (commands : List Command) (command : Command) :
    traces (commands ++ [command]) = match command with
      | .watch (.trace on) => on
      | _ => traces commands := by
  rw [traces, List.foldl_append, ← traces]
  rfl

/-- What is no switch leaves the switches. -/
theorem switches_concat {command : Command} (h : command.isSwitch = false)
    (commands : List Command) : tracker? (commands ++ [command]) = tracker? commands ∧
      traces (commands ++ [command]) = traces commands := by
  rw [tracker?_concat, traces_concat]
  cases command with
  | watch command =>
    cases command with
    | describe name => exact ⟨rfl, rfl⟩
    | install tracker => cases h
    | trace on => cases h
  | _ => exact ⟨rfl, rfl⟩

end Session

/-! ## What is seen of a run, but for the switches -/

/-- An event as it is logged: its severity, its text and the numbers that belong to the text. -/
def Event.logged (event : Event) : Severity × String × List (String × Nat) :=
  (event.severity, event.message, event.fields)

/-- The log does not show marks. -/
@[simp] theorem Event.logged_marked (mark : Nat → Bool) (event : Event) :
    (event.marked mark).logged = event.logged := by
  cases event <;> rfl

/-- **What a program sees of a command**: the answer, but for the marks in it, and the log. -/
structure Outcome where
  answer : Answer
  log : List (Severity × String × List (String × Nat))

namespace Session

/-- What a program sees of a command. -/
def Seen.outcome (seen : Seen) : Outcome := ⟨seen.answer.unmarked, seen.events.map Event.logged⟩

/-- The commands that are no switches. -/
def unswitched (commands : List Command) : List Command :=
  commands.filter fun command => !command.isSwitch

theorem unswitched_concat (commands : List Command) (command : Command) :
    unswitched (commands ++ [command]) =
      unswitched commands ++ if command.isSwitch then [] else [command] := by
  rw [unswitched, List.filter_append, ← unswitched, List.filter_cons, List.filter_nil]
  cases command.isSwitch <;> rfl

/-- **What a program sees of the commands that are no switches.** -/
def outcomes (commands : List Command) : List Outcome :=
  ((commands.zip (({} : Session).play commands).1).filter fun command =>
    !command.1.isSwitch).map fun command => command.2.outcome

/-- What a command puts in front of the journal is seen, the oldest first. -/
theorem observe_events {s : Session} {command : Command} {told : List Event}
    (h : (s.step command).2.store.events = told ++ s.store.events) :
    (s.observe command).1.events = told.reverse := by
  show news _ (s.step command).2.store.events = _
  rw [h, news_append]

/-- Where nothing was put in front, nothing is new. -/
theorem observe_of_eq {s t : Session} {command : Command} {answer : Answer}
    (hstep : s.step command = (answer, t)) (hevents : t.store.events = s.store.events)
    (hdeliveries : t.store.deliveries = s.store.deliveries) :
    (s.observe command).1 = ⟨answer, [], []⟩ := by
  unfold observe
  rw [hstep]
  dsimp only
  rw [hevents, hdeliveries, news_self, news_self]

end Session

/-! ## Marks of a run -/

/-- The marks that are given for the loans that were made, and one mark for all loans to
come. -/
def Marks.later (marks : Marks) (s : Store) (mark : Bool) : Marks := fun number generation =>
  if generation ≤ (s.pool number).generation then marks number generation else mark

theorem Marks.later_of_le {marks : Marks} {s : Store} {mark : Bool} {number generation : Nat}
    (h : generation ≤ (s.pool number).generation) :
    marks.later s mark number generation = marks number generation := if_pos h

theorem Marks.later_of_lt {marks : Marks} {s : Store} {mark : Bool} {number generation : Nat}
    (h : (s.pool number).generation < generation) :
    marks.later s mark number generation = mark := if_neg (Nat.not_le_of_lt h)

/-- All loans of several rows. -/
theorem Dealings.mem_lent_total {rows : List Dealings} {account : Account} :
    account ∈ (total rows).lent ↔ ∃ row ∈ rows, account ∈ row.lent := by
  induction rows using List.reverseRecOn with
  | nil => exact ⟨nofun, nofun⟩
  | append_singleton rows row ih =>
    rw [total_concat, lent_append, List.mem_append, ih]
    simp only [List.mem_append, List.mem_singleton, or_and_right, exists_or, exists_eq_left]

namespace Session

variable {marks : Marks} {commands : List Command} {rows : List Dealings} {command : Command}
  {row : Dealings} {account : Account}

/-- There is a row for each command. -/
theorem Ledger.length_eq (h : Ledger commands rows) : rows.length = commands.length := by
  induction h with
  | nil => rfl
  | concat _ _ ih => rw [List.length_append, List.length_append, ih, List.length_singleton,
      List.length_singleton]

/-- A loan that was made has one of the generations that there were. -/
theorem Ledger.generation_le (h : Ledger commands rows)
    (haccount : account ∈ (Dealings.total rows).lent) : account.generation ≤
      ((({} : Session).play commands).2.store.pool account.home).generation := by
  have hmem : account.generation ∈
      (accountsOf account.home (Dealings.total rows).lent).map Account.generation :=
    List.mem_map_of_mem (List.mem_filter.mpr ⟨haccount, decide_eq_true rfl⟩)
  rw [h.tallies.numbered, List.mem_range'_1] at hmem
  have hgeneration := h.tallies.generation account.home
  omega

/-- A loan that is made has one of the generations that follow. -/
theorem Enters.lt_generation {s : Session} (h : s.Enters command row)
    (haccount : account ∈ row.lent) :
    (s.store.pool account.home).generation < account.generation := by
  have hmem : account.generation ∈ (accountsOf account.home row.lent).map Account.generation :=
    List.mem_map_of_mem (List.mem_filter.mpr ⟨haccount, decide_eq_true rfl⟩)
  rw [h.tallies.numbered, List.mem_range'_1] at hmem
  omega

/-- A loan is lost to a pool that counts it. -/
theorem Enters.leaked_ne {s : Session} (h : s.Enters command row) (haccount : account ∈ row.lost) :
    ((s.step command).2.store.pool account.home).leaked ≠ (s.store.pool account.home).leaked := by
  have hmem : account ∈ accountsOf account.home row.lost :=
    List.mem_filter.mpr ⟨haccount, decide_eq_true rfl⟩
  have hpos := List.length_pos_of_mem hmem
  have hleaked := h.tallies.leaked account.home
  omega

section GoAlike

variable {losing : Nat} {s t : Session}

/-- **Steps that go alike** tell the same, but for the marks. The tracker that is installed
receives what is told of lost loans. -/
theorem GoAlike.observe (h : GoAlike marks losing s.store t.store (s.step command)
    (t.step command)) :
    (t.observe command).1.events =
        (s.observe command).1.events.map (Event.marked (marks losing)) ∧
      (t.observe command).1.deliveries =
        deliver t.store.tracker ((t.observe command).1.events.filterMap Event.report?) := by
  obtain ⟨told, hs, ht, hdeliveries⟩ := h.2.store.told
  refine ⟨by rw [observe_events ht, observe_events hs, List.map_reverse], ?_⟩
  rw [observe_events ht, List.filterMap_reverse]
  show news _ (t.step command).2.store.deliveries = _
  rw [hdeliveries, news_append, deliver_reverse]

/-- A program sees the same of them. -/
theorem GoAlike.outcome_eq (h : GoAlike marks losing s.store t.store (s.step command)
    (t.step command)) : (t.observe command).1.outcome = (s.observe command).1.outcome := by
  have hlog : (t.observe command).1.events.map Event.logged =
      (s.observe command).1.events.map Event.logged := by
    rw [h.observe.1, List.map_map]
    exact List.map_congr_left fun event _ => event.logged_marked _
  rw [Seen.outcome, hlog, Seen.outcome]
  exact congrArg (fun answer => Outcome.mk answer _) h.1

/-- **What is told of a lost loan** is told with the mark that is given for it. -/
theorem GoAlike.told (h : GoAlike marks losing s.store t.store (s.step command) (t.step command))
    (hrow : t.Enters command row) :
    List.Forall₂ (fun account report => account ∈ row.lost ∧ report.figures = account.figures ∧
        report.traced = marks account.home account.generation)
      row.lost ((t.observe command).1.events.filterMap Event.report?) := by
  have hfigures : ((t.observe command).1.events.filterMap Event.report?).map
      LeakReport.figures = row.lost.map Account.figures := by
    obtain ⟨told, -, ht, -⟩ := h.2.store.told
    have hwarned := hrow.tallies.warned
    rw [Store.warned, ht, List.filterMap_append, List.map_append, ← Store.warned] at hwarned
    rw [observe_events ht, List.filterMap_reverse, List.map_reverse,
      List.append_cancel_right hwarned, List.reverse_reverse]
  have hmarked : ∀ report ∈ (t.observe command).1.events.filterMap Event.report?,
      report.traced = marks losing report.generation := by
    intro report hreport
    rw [h.observe.1, List.filterMap_map] at hreport
    obtain ⟨event, -, hevent⟩ := List.mem_filterMap.mp hreport
    cases event with
    | leaked lost =>
      cases hevent
      rfl
    | _ => cases hevent
  -- the reports are marked as those of one pool, and to no other is anything lost
  have hhome : ∀ account ∈ row.lost, account.home = losing := by
    intro account haccount
    by_contra hne
    exact hrow.leaked_ne haccount (h.2.store.leaked_eq account.home hne)
  generalize (t.observe command).1.events.filterMap Event.report? = reports at hfigures hmarked ⊢
  have hsame : List.Forall₂ (fun (account : Account) (report : LeakReport) =>
      account.figures = report.figures) row.lost reports := by
    have hmap : List.Forall₂ Eq (row.lost.map Account.figures)
        (reports.map LeakReport.figures) := by
      rw [hfigures, List.forall₂_eq_eq_eq]
    exact List.forall₂_map_right_iff.mp (List.forall₂_map_left_iff.mp hmap)
  obtain ⟨hlength, hsame⟩ := List.forall₂_iff_zip.mp hsame
  refine List.forall₂_iff_zip.mpr ⟨hlength, fun {account report} hmem => ?_⟩
  obtain ⟨haccount, hreport⟩ := List.of_mem_zip hmem
  have hfigure := hsame hmem
  refine ⟨haccount, hfigure.symm, ?_⟩
  rw [hmarked report hreport, hhome account haccount,
    show account.generation = report.generation from congrArg Prod.fst hfigure]

end GoAlike

/-- **Marks for the loans of a run**: the run without its switches goes along with it but for
these marks, and they say of each loan what the switches asked for when it was made. -/
structure Shadows (marks : Marks) (commands : List Command) (rows : List Dealings) : Prop where
  marked : Marked marks (Store.Alike marks) (({} : Session).play (unswitched commands)).2
    (({} : Session).play commands).2
  tracker : (({} : Session).play commands).2.store.tracker = tracker? commands
  tracing : (({} : Session).play commands).2.store.tracing = traces commands
  known : ∀ j row, rows[j]? = some row → ∀ account ∈ row.lent,
    marks account.home account.generation = captures (commands.take j)

/-- **What is reported of a command**, given the commands before it and the loans that were
made by then. -/
structure Reported (before : List Command) (rows : List Dealings) (row : Dealings)
    (seen : Seen) : Prop where
  /-- The tracker that is installed just then receives a report on each loan that is lost, and
  no other tracker receives any. If none is installed, nobody does. -/
  delivered : seen.deliveries = deliver (tracker? before) (seen.events.filterMap Event.report?)
  /-- A report shows what the switches asked for when the loan was made. -/
  traced : List.Forall₂ (fun account report => report.figures = account.figures ∧
    ∃ j made, j ≤ before.length ∧ rows[j]? = some made ∧ account ∈ made.lent ∧
      report.traced = captures (before.take j)) row.lost (seen.events.filterMap Event.report?)

/-- Nothing has happened yet. -/
theorem shadows_nil (marks : Marks) : Shadows marks [] [] := by
  refine ⟨⟨⟨rfl, fun number => ⟨rfl, rfl, fun slot => ?_⟩⟩, rfl, rfl, rfl, rfl, ?_, ?_, ?_⟩, rfl,
    rfl, nofun⟩
  · exact .empty _
  · exact fun name => .none
  · exact fun name => .none
  · exact fun name => .none

section Step

variable (h : Shadows marks commands rows)

include h

/-- **The next command** can be carried out in both runs. What was marked is marked as before,
and the loans to come are marked as the switches say now. -/
theorem Shadows.lends (losing : Nat) :
    let s := (({} : Session).play (unswitched commands)).2
    let t := (({} : Session).play commands).2
    let later := marks.later s.store (captures commands)
    Marked later (Store.Lends later losing s.store t.store) s t := by
  intro s t later
  have hsound : s.Sound := sound_play (unswitched commands)
  have halike : Store.Alike later s.store t.store := by
    refine ⟨h.marked.store.length_eq, fun number => (h.marked.store.pool number).congr ?_⟩
    exact fun slot => Marks.later_of_le ((hsound.pool number).generation_le slot)
  refine h.marked.congr ⟨⟨halike, rfl, rfl, ⟨[], rfl, rfl, ?_⟩, fun _ _ => rfl⟩,
    fun number => (hsound.pool number).placed.orderly, fun number generation hlt => ?_⟩
    fun loan hloan => Loan.marked_congr ?_
  · rw [List.map_nil, List.filterMap_nil, deliver_nil, List.nil_append]
  · refine (Marks.later_of_lt hlt).trans ?_
    rw [captures, ← h.tracker, ← h.tracing, Store.tracking]
  · rintro lease rfl
    refine Marks.later_of_le ?_
    rw [← (hsound.slot_of_held hloan).1]
    exact (hsound.pool lease.home).generation_le lease.slot

/-- The marks are those that the switches asked for, also for the loans of the next command. -/
theorem Shadows.known_concat (hrows : Ledger commands rows)
    (hrow : (({} : Session).play commands).2.Enters command row) :
    let s := (({} : Session).play (unswitched commands)).2
    ∀ j made, (rows ++ [row])[j]? = some made → ∀ account ∈ made.lent, j ≤ commands.length ∧
      marks.later s.store (captures commands) account.home account.generation =
        captures (commands.take j) := by
  intro s j made hj account haccount
  have hgeneration : ((({} : Session).play commands).2.store.pool account.home).generation =
      (s.store.pool account.home).generation := (h.marked.store.pool account.home).generation_eq
  have hlength := hrows.length_eq
  rcases Nat.lt_or_ge j rows.length with hlt | hge
  -- a loan that was made before has one of the generations there were, and keeps its mark
  · rw [List.getElem?_append_left hlt] at hj
    have hmade : account ∈ (Dealings.total rows).lent :=
      Dealings.mem_lent_total.mpr ⟨made, List.mem_of_getElem? hj, haccount⟩
    have hle := hrows.generation_le hmade
    rw [hgeneration] at hle
    exact ⟨hlength ▸ Nat.le_of_lt hlt,
      (Marks.later_of_le hle).trans (h.known j made hj account haccount)⟩
  -- a loan that is made now has one of those to come
  · have hlast : j = rows.length := by
      have hlt := (List.getElem?_eq_some_iff.mp hj).1
      rw [List.length_append, List.length_singleton] at hlt
      omega
    rw [hlast, List.getElem?_concat_length] at hj
    cases hj
    have hlt := hrow.lt_generation haccount
    rw [hgeneration] at hlt
    refine ⟨Nat.le_of_eq (hlast.trans hlength), ?_⟩
    rw [Marks.later_of_lt hlt, hlast, hlength, List.take_length]

/-- The same marks are good for the run with the next command, if the two sessions are then the
same but for them, and the switches are as the commands say. -/
theorem Shadows.concat (hrows : Ledger commands rows)
    (hrow : (({} : Session).play commands).2.Enters command row) {s t : Session}
    (hs : (({} : Session).play (unswitched (commands ++ [command]))).2 = s)
    (ht : ((({} : Session).play commands).2.step command).2 = t)
    {later : Marks} (hlater : later =
      marks.later (({} : Session).play (unswitched commands)).2.store (captures commands))
    (hmarked : Marked later (Store.Alike later) s t)
    (htracker : t.store.tracker = tracker? (commands ++ [command]))
    (htracing : t.store.tracing = traces (commands ++ [command])) :
    ∃ later, Shadows later (commands ++ [command]) (rows ++ [row]) := by
  subst hs ht hlater
  rw [← play_concat] at hmarked htracker htracing
  refine ⟨_, hmarked, htracker, htracing, fun j made hj account haccount => ?_⟩
  obtain ⟨hle, hmark⟩ := h.known_concat hrows hrow j made hj account haccount
  rw [List.take_append_of_le_length hle]
  exact hmark

/-- **A switch** is carried out in one run only. It tells nothing and loses nothing. -/
theorem Shadows.switch (hrows : Ledger commands rows)
    (hrow : (({} : Session).play commands).2.Enters command row)
    (hswitch : command.isSwitch = true) :
    (∃ later, Shadows later (commands ++ [command]) (rows ++ [row])) ∧
      ((({} : Session).play commands).2.observe command).1 = ⟨.done, [], []⟩ ∧ row.lost = [] := by
  have hsame : (({} : Session).play (unswitched (commands ++ [command]))).2 =
      (({} : Session).play (unswitched commands)).2 := by
    rw [unswitched_concat, hswitch, if_pos rfl, List.append_nil]
  have hlends := h.lends 0
  -- what no pool counts as lost is not lost
  have hlost (hpool : ∀ number, (((({} : Session).play commands).2.step command).2.store.pool
      number).leaked = ((({} : Session).play commands).2.store.pool number).leaked) :
      row.lost = [] :=
    List.eq_nil_iff_forall_not_mem.mpr fun account haccount =>
      hrow.leaked_ne haccount (hpool account.home)
  cases command with
  | watch command =>
    cases command with
    | install tracker =>
      refine ⟨h.concat hrows hrow hsame rfl rfl
        { hlends with store := ⟨hlends.store.length_eq, hlends.store.pool⟩ } ?_ ?_, ?_,
        hlost fun _ => rfl⟩
      · rw [tracker?_concat]
        rfl
      · rw [traces_concat]
        exact h.tracing
      · exact observe_of_eq rfl rfl rfl
    | trace on =>
      refine ⟨h.concat hrows hrow hsame rfl rfl
        { hlends with store := ⟨hlends.store.length_eq, hlends.store.pool⟩ } ?_ ?_, ?_,
        hlost fun _ => rfl⟩
      · rw [tracker?_concat]
        exact h.tracker
      · rw [traces_concat]
        rfl
      · exact observe_of_eq rfl rfl rfl
    | describe name => cases hswitch
  | _ => cases hswitch

/-- **Any other command** does the same in both runs. -/
theorem Shadows.step (hrows : Ledger commands rows)
    (hrow : (({} : Session).play commands).2.Enters command row)
    (hswitch : command.isSwitch = false) :
    (∃ later, Shadows later (commands ++ [command]) (rows ++ [row])) ∧
      ((({} : Session).play commands).2.observe command).1.outcome =
        ((({} : Session).play (unswitched commands)).2.observe command).1.outcome ∧
      Reported commands (rows ++ [row]) row
        ((({} : Session).play commands).2.observe command).1 := by
  have hplain : (({} : Session).play (unswitched (commands ++ [command]))).2 =
      ((({} : Session).play (unswitched commands)).2.step command).2 := by
    rw [unswitched_concat, hswitch, if_neg Bool.false_ne_true, play_concat]
  have hlends := h.lends ((({} : Session).play (unswitched commands)).2.losesTo command)
  have hgo := hlends.step hswitch rfl fun name lease hlease =>
    ((sound_play (unswitched commands)).slot_of_held (mem_holdings.mpr ⟨.loan name, hlease⟩)).1
  have hnext := hgo.2
  obtain ⟨htracker, htraces⟩ := switches_concat hswitch commands
  refine ⟨h.concat hrows hrow hplain rfl rfl { hnext with store := hnext.store.toAlike } ?_ ?_,
    ?_, ?_, ?_⟩
  · rw [hnext.store.tracker_eq, h.tracker, htracker]
  · rw [hnext.store.tracing_eq, h.tracing, htraces]
  · exact hgo.outcome_eq
  · rw [hgo.observe.2, h.tracker]
  · refine (hgo.told hrow).imp fun account report htold => ?_
    obtain ⟨hlost, hfigures, htraced⟩ := htold
    have hgone : account ∈ (Dealings.total (rows ++ [row])).lost := by
      rw [Dealings.total_concat]
      exact List.mem_append_right _ hlost
    have hplace : account ∈ (({} : Session).play (commands ++ [command])).2.openAccounts
        account.home ∨ account ∈ (Dealings.total (rows ++ [row])).returned ∨
          account ∈ (Dealings.total (rows ++ [row])).lost := .inr (.inr hgone)
    obtain ⟨made, hmem, hlent⟩ :=
      Dealings.mem_lent_total.mp ((hrows.concat hrow).mem_lent hplace)
    obtain ⟨j, hj⟩ := List.getElem?_of_mem hmem
    obtain ⟨hle, hmark⟩ := h.known_concat hrows hrow j made hj account hlent
    exact ⟨hfigures, j, made, hle, hj, hlent, htraced.trans hmark⟩

/-- Whatever the next command is. -/
theorem Shadows.next (hrows : Ledger commands rows)
    (hrow : (({} : Session).play commands).2.Enters command row) :
    let seen := ((({} : Session).play commands).2.observe command).1
    (∃ later, Shadows later (commands ++ [command]) (rows ++ [row])) ∧
      (command.isSwitch = false → seen.outcome =
        ((({} : Session).play (unswitched commands)).2.observe command).1.outcome) ∧
      Reported commands (rows ++ [row]) row seen ∧
      (command.isSwitch = true → seen = ⟨.done, [], []⟩) := by
  intro seen
  cases hswitch : command.isSwitch with
  | false =>
    obtain ⟨hlater, houtcome, hreported⟩ := h.step hrows hrow hswitch
    exact ⟨hlater, fun _ => houtcome, hreported, nofun⟩
  | true =>
    obtain ⟨hlater, hseen, hlost⟩ := h.switch hrows hrow hswitch
    refine ⟨hlater, nofun, ?_, fun _ => hseen⟩
    show Reported commands (rows ++ [row]) row ((({} : Session).play commands).2.observe command).1
    rw [hseen]
    refine ⟨?_, ?_⟩
    · exact (deliver_nil _).symm
    · rw [hlost]
      exact .nil

end Step

/-! ## Runs -/

/-- What a program sees of one command more. -/
theorem outcomes_concat (commands : List Command) (command : Command) :
    outcomes (commands ++ [command]) = outcomes commands ++ if command.isSwitch then []
      else [((({} : Session).play commands).2.observe command).1.outcome] := by
  rw [outcomes, seen_concat, List.zip_append (length_seen _ _).symm, List.filter_append,
    List.map_append, ← outcomes]
  congr 1
  cases hswitch : command.isSwitch <;> simp [hswitch]

/-- A longer ledger says the same of the commands before. -/
theorem Reported.append {before : List Command} {seen : Seen}
    (h : Reported before rows row seen) (hlt : before.length < rows.length)
    (more : List Dealings) : Reported before (rows ++ more) row seen := by
  refine ⟨h.delivered, h.traced.imp fun account report => ?_⟩
  rintro ⟨hfigures, j, made, hle, hj, hlent, htraced⟩
  refine ⟨hfigures, j, made, hle, ?_, hlent, htraced⟩
  rwa [List.getElem?_append_left (Nat.lt_of_le_of_lt hle hlt)]

/-- **Every run has marks for its loans.** Its commands but the switches are seen to do what they
do in the run without the switches, and what is reported is reported by these marks. -/
theorem Ledger.exists_shadows (h : Ledger commands rows) :
    (∃ marks, Shadows marks commands rows) ∧
      outcomes commands = (({} : Session).play (unswitched commands)).1.map Seen.outcome ∧
      ∀ k command row, commands[k]? = some command → rows[k]? = some row →
        let seen := ((({} : Session).play (commands.take k)).2.observe command).1
        Reported (commands.take k) rows row seen ∧
          (command.isSwitch = true → seen = ⟨.done, [], []⟩) := by
  induction h with
  | nil => exact ⟨⟨fun _ _ => false, shadows_nil _⟩, rfl, nofun⟩
  | @concat commands rows command row hrows hrow ih =>
    obtain ⟨⟨marks, hmarks⟩, houtcomes, hreported⟩ := ih
    have hlength := hrows.length_eq
    obtain ⟨hlater, houtcome, hlast, hquiet⟩ := hmarks.next hrows hrow
    refine ⟨hlater, ?_, fun k other made hk hmade => ?_⟩
    · rw [outcomes_concat, unswitched_concat, houtcomes]
      cases hswitch : command.isSwitch with
      | true => simp
      | false =>
        rw [if_neg Bool.false_ne_true, if_neg Bool.false_ne_true, seen_concat, List.map_append,
          houtcome hswitch]
        rfl
    · rcases Nat.lt_or_ge k commands.length with hlt | hge
      · rw [List.getElem?_append_left hlt] at hk
        rw [List.getElem?_append_left (hlength ▸ hlt)] at hmade
        rw [List.take_append_of_le_length (Nat.le_of_lt hlt)]
        obtain ⟨hrep, hsw⟩ := hreported k other made hk hmade
        refine ⟨hrep.append ?_ [row], hsw⟩
        rw [List.length_take, hlength]
        omega
      · have hend : k = commands.length := by
          have hlt := (List.getElem?_eq_some_iff.mp hk).1
          rw [List.length_append, List.length_singleton] at hlt
          omega
        rw [hend, List.getElem?_concat_length] at hk
        rw [hend, ← hlength, List.getElem?_concat_length] at hmade
        cases hk
        cases hmade
        rw [hend, List.take_left]
        exact ⟨hlast, hquiet⟩

/-- **Leaks are watched, and nothing else changes.** Two rows of commands that are the same but
for the switches are seen to do the same: all answers are the same, but for the marks in them,
and so is the log; a switch answers that it is done and logs nothing. Any run has a ledger,
whose rows say which loans each command makes and which are lost by it. In each run a lost loan
is reported to the tracker that is installed just then, to no other that was installed before
or will be later, and to nobody if none is installed. The report says where the loan was made
if and only if some tracker was installed, or tracing was last asked for, when the loan was
made, whatever was switched or done with the loan since. -/
theorem leaks_are_only_watched {commands commands' : List Command}
    (h : unswitched commands = unswitched commands') :
    outcomes commands = outcomes commands' ∧ ∃ rows, Ledger commands rows ∧
      ∀ k command row, commands[k]? = some command → rows[k]? = some row →
        let seen := ((({} : Session).play (commands.take k)).2.observe command).1
        Reported (commands.take k) rows row seen ∧
          (command.isSwitch = true → seen = ⟨.done, [], []⟩) := by
  obtain ⟨rows, hrows⟩ := exists_ledger commands
  obtain ⟨rows', hrows'⟩ := exists_ledger commands'
  obtain ⟨-, houtcomes, hreported⟩ := hrows.exists_shadows
  obtain ⟨-, houtcomes', -⟩ := hrows'.exists_shadows
  exact ⟨by rw [houtcomes, houtcomes', h], rows, hrows, hreported⟩

/-- Three loans are lost with the switches turned in between. The second one was made while
nobody asked for tracing and the third one while only the settings did. The first and the
second are reported to different trackers, and the third to nobody, as both are gone by
then. A tracker that is removed before anything is lost receives nothing. -/
theorem leaks_are_only_watched_switched :
    let plain : List Command := [.pool (.make "pool"), .pool (.borrow "pool" 16 false "one"),
      .pool (.borrow "pool" 2000 false "two"), .pool (.borrow "pool" 16 false "three"),
      .loan (.detach "one" "ticket"), .ticket (.discard "ticket"), .loan (.drop "two"),
      .loan (.drop "three")]
    let watched : List Command := [.watch (.install (some ⟨1⟩)), .pool (.make "pool"),
      .pool (.borrow "pool" 16 false "one"), .watch (.install none),
      .pool (.borrow "pool" 2000 false "two"),
      ({ captureLeakBacktraces := true } : Settings).applyLeakCapture,
      .pool (.borrow "pool" 16 false "three"), .watch (.trace false),
      .watch (.install (some ⟨2⟩)), .loan (.detach "one" "ticket"), .ticket (.discard "ticket"),
      .watch (.install (some ⟨3⟩)), .loan (.drop "two"), .watch (.install none),
      .loan (.drop "three")]
    let store := (({} : Session).play watched).2.store
    outcomes watched = outcomes plain ∧ (∃ rows, Ledger watched rows) ∧
      (store.events.filterMap Event.report?).map (fun report => (report.generation, report.traced))
        = [(3, true), (2, false), (1, true)] ∧
      store.deliveries.map (fun delivery => (delivery.tracker.number, delivery.report.generation))
        = [(3, 2), (2, 1)] := by
  intro plain watched store
  have hsame : unswitched watched = unswitched plain := rfl
  obtain ⟨houtcomes, rows, hrows, -⟩ := leaks_are_only_watched hsame
  exact ⟨houtcomes, ⟨rows, hrows⟩, by decide +kernel, by decide +kernel⟩

end Session

end Wirepool
