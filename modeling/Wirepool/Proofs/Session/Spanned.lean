import Wirepool.Proofs.Arena.Sound
import Wirepool.Proofs.Session.Slices
import Wirepool.Proofs.Store.Refusal

/-!
# What is held can be spanned

Nobody holds more memory than addresses can span. A page is far from that, and a block from
the system is refused before it is there. What is held is written to and passed on, but
never made longer. So whatever is decoded from a loan or a slice is a row that addresses
can span, as is any row that a caller brings.
-/

namespace Wirepool

namespace Store

/-- Memory that is borrowed is as long as was asked for. -/
theorem ends_borrow_len (number len : Nat) (zero : Bool) (s : Store) :
    Ends (borrow number len zero s) (fun loan _ => loan.len = len) fun _ _ => True :=
  (ends_borrow_offers number len zero s).mono (fun _ _ hoffers => by cases hoffers <;> rfl)
    fun _ _ _ => trivial

/-- So it can be spanned. -/
theorem ends_borrow_spanned (number len : Nat) (zero : Bool) (s : Store) :
    Ends (borrow number len zero s) (fun loan _ => loan.len < addressLimit) fun _ _ => True :=
  ((ends_borrow_len number len zero s).and (grantedOrLeft_borrow number len zero s)).mono
    (fun _ _ ht => ht.1 ▸ ht.2) fun _ _ _ => trivial

/-- Memory for a message can be spanned. -/
theorem ends_obtain_spanned (home : Option Nat) (len : Nat) (s : Store) :
    Ends (obtain home len s) (fun loan _ => loan.len < addressLimit) fun _ _ => True := by
  cases home with
  | some number => exact ends_borrow_spanned number len false s
  | none =>
    by_cases hlen : len < addressLimit
    · rw [obtain_granted hlen]
      exact hlen
    · rw [obtain_refused hlen]
      trivial

end Store

namespace Arena

open HolderM

/-- **Every chunk of an arena** can be spanned. -/
def Spanned (a : Arena) : Prop := ∀ chunk ∈ a.chunks, chunk.len < addressLimit

namespace Spanned

variable {a b : Arena}

/-- What is in the memory does not matter. -/
theorem of_terms_eq (h : a.Spanned) (hterms : b.chunks.map Loan.terms = a.chunks.map Loan.terms) :
    b.Spanned := by
  intro chunk hchunk
  have hmem : chunk.terms ∈ a.chunks.map Loan.terms :=
    hterms ▸ List.mem_map_of_mem hchunk
  obtain ⟨other, hother, heq⟩ := List.mem_map.mp hmem
  rw [← Loan.len_terms, ← heq, Loan.len_terms]
  exact h other hother

/-- Another chunk that can be spanned. -/
theorem addChunk (h : a.Spanned) {chunk : Loan} (hchunk : chunk.len < addressLimit) :
    (a.addChunk chunk).Spanned := by
  intro other hother
  rcases List.mem_append.mp hother with hother | hother
  · exact h other hother
  · rw [List.mem_singleton.mp hother]
    exact hchunk

/-- As much as is read of a slice can be spanned. -/
theorem length_read (h : a.Spanned) (slice : Slice) (offset count : Nat) :
    (a.read slice offset count).length < addressLimit := by
  unfold read
  split
  · next chunk hchunk =>
    have hlen := h chunk (List.mem_of_getElem? hchunk)
    unfold Loan.read
    rw [Block.read_eq, List.length_take]
    omega
  · decide

/-- The system grants fragments wherever something is left of one. -/
theorem grants (h : a.Spanned) (htidy : a.Tidy) : a.Grants := by
  intro hleft
  obtain ⟨chunk, hchunk, hsize⟩ := htidy.current hleft
  have hlen := h chunk (List.mem_of_getElem? hchunk)
  rw [Loan.length_view] at hsize
  omega

end Spanned

/-- **An action that gives an arena no chunk** but such as can be spanned, whichever way it
ends. -/
def KeepsSpanned {α : Type} (action : HolderM Arena α) : Prop :=
  ∀ t, t.1.Spanned → Ends (action t) (fun _ u => u.1.Spanned) fun _ u => u.1.Spanned

theorem keepsSpanned_get (len : Nat) (zero : Bool) : KeepsSpanned (get len zero) := by
  rintro ⟨a, s⟩ h
  have hcut (u : Arena × Store) (hu : u.1.Spanned) :
      Ends (get.cutOff len zero u) (fun _ u => u.1.Spanned) fun _ u => u.1.Spanned := by
    cases zero with
    | false => exact hu
    | true =>
      exact hu.of_terms_eq (terms_modifyChunk (u.1.cut len).2 (u.1.cut len).1 fun loan =>
        Loan.terms_fill loan _ _ _)
  have hborrow (size : Nat) (zero : Bool) :
      Ends (onStore (Store.borrow a.home size zero) (a.longer len, s))
        (fun chunk u => u.1.Spanned ∧ chunk.len < addressLimit) fun _ u => u.1.Spanned :=
    (ends_onStore (Store.ends_borrow_spanned a.home size zero s)).mono
      (fun _ _ hu => ⟨hu.2 ▸ h, hu.1⟩) fun _ _ hu => hu.2 ▸ h
  have hcount : Ends (count len (a, s)) (fun _ u => u = (a.longer len, s)) fun _ u =>
      u.1.Spanned := by
    rw [count_eq]
    split
    · exact h
    · rfl
  unfold get
  refine hcount.bind fun _ u hu => ?_
  subst hu
  refine ends_now ?_
  dsimp only
  cases (a.longer len).plan len with
  | nothing => exact h
  | dedicated => exact (hborrow len zero).bind fun chunk u hu => hu.1.addChunk hu.2
  | opening =>
    refine (hborrow a.size false).bind fun chunk u hu => ?_
    exact hcut (u.1.openFragment chunk, u.2) (hu.1.addChunk hu.2)
  | current => exact hcut (a.longer len, s) h

theorem keepsSpanned_copy (row : List UInt8) : KeepsSpanned (copy row) := by
  intro t h
  unfold copy
  exact (keepsSpanned_get row.length false t h).bind fun slice u hu =>
    hu.of_terms_eq (terms_modifyChunk u.1 slice fun loan => Loan.terms_write loan _ _)

theorem keepsSpanned_reset : KeepsSpanned reset := by
  rintro ⟨a, s⟩ h
  show Ends ((onStore a.release >>= fun _ => update fun a => ((), new a.home a.size)) (a, s)) _ _
  have hrelease : Ends (a.release s) (fun _ _ => True) fun _ _ => True := by
    unfold Ends
    split <;> trivial
  exact ((ends_onStore hrelease).mono (fun _ _ _ => trivial) fun _ _ hu => hu.2 ▸ h).bind
    fun _ _ _ => nofun

theorem keepsSpanned_encodeInArena (script : Script) (order : ByteOrder) :
    KeepsSpanned (script.encodeInArena order) := by
  intro t h
  unfold Script.encodeInArena
  dsimp only
  cases (script.measure order).length with
  | error failure => exact h
  | ok length =>
    exact (keepsSpanned_get length false t h).bind fun slice u hu =>
      hu.of_terms_eq (terms_modifyChunk u.1 slice fun loan => Loan.terms_write loan _ _)

theorem keepsSpanned_copyOut (reading : Reading) : KeepsSpanned reading.copyOut := by
  intro t h
  show Ends (reading.toArena.forM (fun row => discard (copy row)) t) _ _
  exact Ends.forM (fun _ u => u.1.Spanned) (fun row _ u hu => (keepsSpanned_copy row u hu).discard)
    reading.toArena h

end Arena

/-- Memory of its own for a message can be spanned. -/
theorem Script.ends_encode_spanned (script : Script) (order : ByteOrder) (home : Option Nat)
    (s : Store) :
    Ends (script.encode order home s)
      (fun encoded _ => ∀ loan, encoded.result = .ok loan → loan.len < addressLimit)
      fun _ _ => True := by
  unfold encode
  dsimp only
  cases (script.measure order).length with
  | error failure => exact nofun
  | ok length =>
    refine (Store.ends_obtain_spanned home length s).bind fun memory t ht => ?_
    cases (script.fill order memory.view).outcome with
    | ok =>
      rintro _ ⟨⟩
      exact (Loan.len_mapBlock _ _ memory).trans_lt ht
    | error failure =>
      show Ends ((Store.release _ >>= fun _ => pure _) (t.tell (.abandoned length))) _ _
      have hrelease (loan : Loan) (u : Store) :
          Ends (Store.release loan u) (fun _ _ => True) fun _ _ => True := by
        unfold Ends
        split <;> trivial
      exact (hrelease _ _).bind fun _ _ _ => nofun

/-! ## Sessions -/

namespace Session

open Table

/-- **Whatever is held under a name or by an arena** can be spanned. -/
structure Spanned (s : Session) : Prop where
  loan : ∀ name loan, s.loans.get? name = some loan → loan.len < addressLimit
  arena : ∀ name a, s.arenas.get? name = some a → a.Spanned

variable {s t r : Session} {name : String}

namespace Spanned

/-- Other tables do not matter. -/
theorem of_eq (h : s.Spanned) (hloans : t.loans = s.loans) (harenas : t.arenas = s.arenas) :
    t.Spanned :=
  ⟨fun name loan hloan => h.loan name loan (hloans ▸ hloan),
    fun name a ha => h.arena name a (harenas ▸ ha)⟩

theorem putLoan (h : s.Spanned) (name : String) {loan : Loan} (hloan : loan.len < addressLimit) :
    { s with loans := s.loans.put name loan }.Spanned := by
  refine ⟨fun other found hfound => ?_, h.arena⟩
  rw [show Table.get? _ other = _ from get?_put s.loans name other loan] at hfound
  split at hfound
  · cases hfound
    exact hloan
  · exact h.loan other found hfound

theorem eraseLoan (h : s.Spanned) (name : String) :
    { s with loans := s.loans.erase name }.Spanned := by
  refine ⟨fun other found hfound => ?_, h.arena⟩
  rw [show Table.get? _ other = _ from get?_erase s.loans name other] at hfound
  split at hfound
  · cases hfound
  · exact h.loan other found hfound

theorem putArena (h : s.Spanned) (name : String) {a : Arena} (ha : a.Spanned) :
    { s with arenas := s.arenas.put name a }.Spanned := by
  refine ⟨h.loan, fun other found hfound => ?_⟩
  rw [show Table.get? _ other = _ from get?_put s.arenas name other a] at hfound
  split at hfound
  · cases hfound
    exact ha
  · exact h.arena other found hfound

theorem eraseArena (h : s.Spanned) (name : String) :
    { s with arenas := s.arenas.erase name }.Spanned := by
  refine ⟨h.loan, fun other found hfound => ?_⟩
  rw [show Table.get? _ other = _ from get?_erase s.arenas name other] at hfound
  split at hfound
  · cases hfound
  · exact h.arena other found hfound

/-- What goes on with a thing. -/
theorem expect {α : Type} {thing : Option α} {go : α → Step} (h : s.Spanned)
    (hgo : ∀ a, thing = some a → (go a).2.Spanned) : (s.expect thing go).2.Spanned := by
  cases thing with
  | none => exact h
  | some a => exact hgo a rfl

/-- What goes on with an answer of the store. -/
theorem run {α : Type} {action : StoreM α} {go : α → Session → Step} {good : α → Prop}
    (h : s.Spanned) (haction : Ends (action s.store) (fun a _ => good a) fun _ _ => True)
    (hgo : ∀ a u, good a → { s with store := u }.Spanned → (go a { s with store := u }).2.Spanned) :
    (s.run action go).2.Spanned := by
  unfold Session.run
  cases hresult : action s.store with
  | ok a u =>
    rw [hresult] at haction
    exact hgo a u haction (h.of_eq rfl rfl)
  | error abort u => exact h.of_eq rfl rfl

/-- What goes on with an answer of an arena. -/
theorem runArena {α : Type} {a : Arena} {action : HolderM Arena α}
    {go : α → Arena → Session → Step} (h : s.Spanned) (ha : a.Spanned)
    (haction : Arena.KeepsSpanned action)
    (hgo : ∀ x b t, t.Spanned → (go x b t).2.Spanned) :
    (s.runArena name a action go).2.Spanned := by
  have hends := haction (a, s.store) ha
  unfold Session.runArena
  cases hresult : action (a, s.store) with
  | ok x u =>
    rw [hresult] at hends
    exact hgo x u.1 _ ((h.putArena name hends).of_eq rfl rfl)
  | error abort u =>
    rw [hresult] at hends
    exact (h.putArena name hends).of_eq rfl rfl

theorem enterLoan (h : s.Spanned) (name : String) {loan : Loan} (hloan : loan.len < addressLimit) :
    (s.enterLoan name loan).Spanned := by
  obtain ⟨u, heq⟩ := enterLoan_eq s name loan
  rw [heq]
  exact (h.putLoan name hloan).of_eq rfl rfl

theorem enterTicket (h : s.Spanned) (name : String) (ticket : Ticket) :
    (s.enterTicket name ticket).Spanned := by
  obtain ⟨u, heq⟩ := enterTicket_eq s name ticket
  rw [heq]
  exact h.of_eq rfl rfl

theorem enterArena (h : s.Spanned) (name : String) {a : Arena} (ha : a.Spanned) :
    (s.enterArena name a).Spanned := by
  obtain ⟨u, slices, heq⟩ := enterArena_eq s name a
  rw [heq]
  exact (h.putArena name ha).of_eq rfl rfl

theorem enterBuffer (h : s.Spanned) (name : String) (buffer : Buffer) :
    (s.enterBuffer name buffer).Spanned := by
  obtain ⟨u, heq⟩ := enterBuffer_eq s name buffer
  rw [heq]
  exact h.of_eq rfl rfl

theorem enterSlice (h : s.Spanned) (arena : String) (slice : Slice) (entered : Option String) :
    (s.enterSlice arena slice entered).Spanned := by
  obtain ⟨slices, heq⟩ := enterSlice_eq s arena slice entered
  rw [heq]
  exact h.of_eq rfl rfl

/-- An action of which nothing has to be known. -/
theorem run_any {α : Type} {action : StoreM α} {go : α → Session → Step} (h : s.Spanned)
    (hgo : ∀ a u, { s with store := u }.Spanned → (go a { s with store := u }).2.Spanned) :
    (s.run action go).2.Spanned := by
  have hany : Ends (action s.store) (fun _ _ => True) fun _ _ => True := by
    unfold Ends
    split <;> trivial
  exact h.run hany fun a u _ hu => hgo a u hu

theorem poolStep (h : s.Spanned) (command : PoolCommand) : (s.poolStep command).2.Spanned := by
  cases command with
  | make name => exact h.of_eq rfl rfl
  | shared name =>
    unfold Session.poolStep
    dsimp only
    split <;> exact h.of_eq rfl rfl
  | clone pool name => exact h.expect fun _ _ => h.of_eq rfl rfl
  | forget pool => exact h.expect fun _ _ => h.of_eq rfl rfl
  | same first second => exact h.expect fun _ _ => h.expect fun _ _ => h
  | figures pool => exact h.expect fun _ _ => h
  | classFigures pool capacity => exact h.expect fun _ _ => h
  | borrow pool len zero name =>
    exact h.expect fun number _ => h.run (Store.ends_borrow_spanned number len zero s.store)
      fun _ _ hloan hu => hu.enterLoan name hloan
  | concat pool parts name =>
    refine h.expect fun number _ => ?_
    have hconcat : Ends (Store.concat number parts s.store)
        (fun loan _ => loan.len < addressLimit) fun _ _ => True :=
      (Store.ends_borrow_spanned number _ false s.store).bind fun loan _ hlen =>
        (Loan.len_mapBlock _ _ loan).trans_lt hlen
    exact h.run hconcat fun _ _ hloan hu => hu.enterLoan name hloan

theorem loanStep (h : s.Spanned) (command : LoanCommand) : (s.loanStep command).2.Spanned := by
  cases command with
  | idle name => exact h.enterLoan name (by decide)
  | info name => exact h.expect fun _ _ => h
  | fill name value stretch =>
    refine h.expect fun loan hloan => h.putLoan name ?_
    rw [Loan.fill, Loan.len_mapBlock]
    exact h.loan name loan hloan
  | dump name stretch => exact h.expect fun _ _ => h
  | runs name stretch => exact h.expect fun _ _ => h
  | release name => exact h.expect fun _ _ => (h.eraseLoan name).run_any fun _ _ hu => hu
  | drop name => exact h.expect fun _ _ => (h.eraseLoan name).run_any fun _ _ hu => hu
  | detach loanName name =>
    exact h.expect fun _ _ => (h.eraseLoan loanName).run_any fun ticket _ hu =>
      hu.enterTicket name ticket

theorem ticketStep (h : s.Spanned) (command : TicketCommand) :
    (s.ticketStep command).2.Spanned := by
  have herased (name : String) : { s with tickets := s.tickets.erase name }.Spanned :=
    h.of_eq rfl rfl
  cases command with
  | idle name => exact h.enterTicket name .idle
  | info name => exact h.expect fun _ _ => h
  | clone held name =>
    exact h.expect fun _ _ => h.run_any fun ticket _ hu => hu.enterTicket name ticket
  | redeem name => exact h.expect fun _ _ => (herased name).run_any fun _ _ hu => hu
  | discard name => exact h.expect fun _ _ => (herased name).run_any fun _ _ hu => hu

theorem arenaStep (h : s.Spanned) (command : ArenaCommand) : (s.arenaStep command).2.Spanned := by
  have hended (name : String) : (s.endSlices name).Spanned := h.of_eq rfl rfl
  have herased (name : String) :
      { s.endSlices name with arenas := s.arenas.erase name }.Spanned :=
    (h.eraseArena name).of_eq rfl rfl
  cases command with
  | make pool size checked name =>
    rcases s.arenaStep_make pool size checked name with hstep | ⟨fault, hstep⟩ |
      ⟨home, -, hstep⟩ <;> rw [hstep]
    · exact h
    · exact h
    · exact h.enterArena name nofun
  | info name => exact h.expect fun _ _ => h
  | get name len zero entered =>
    exact h.expect fun a ha => h.runArena (h.arena name a ha) (Arena.keepsSpanned_get len zero)
      fun slice _ _ ht => ht.enterSlice name slice entered
  | copy name row entered =>
    exact h.expect fun a ha => h.runArena (h.arena name a ha) (Arena.keepsSpanned_copy row)
      fun slice _ _ ht => ht.enterSlice name slice entered
  | fill sliceName value =>
    refine h.expect fun found hfound => ?_
    obtain ⟨arenaName, a, slice⟩ := found
    have ha := h.arena arenaName a (arena_of_slice? hfound)
    exact h.putArena arenaName (ha.of_terms_eq (Arena.terms_modifyChunk a slice fun loan =>
      Loan.terms_fill loan _ _ _))
  | dump sliceName stretch => exact h.expect fun _ _ => h
  | runs sliceName stretch => exact h.expect fun _ _ => h
  | reset name =>
    exact h.expect fun a ha => (hended name).runArena (h.arena name a ha)
      Arena.keepsSpanned_reset fun _ _ _ ht => ht
  | release name => exact h.expect fun _ _ => (herased name).run_any fun _ _ hu => hu
  | drop name => exact h.expect fun _ _ => (herased name).run_any fun _ _ hu => hu

theorem messageStep (h : s.Spanned) (command : MessageCommand) :
    (s.messageStep command).2.Spanned := by
  cases command with
  | encode pool order script name =>
    have hgo (home : Option Nat) : (s.run (script.encode order home) fun encoded s =>
        s.enterEncoded name encoded).2.Spanned := by
      refine h.run (script.ends_encode_spanned order home s.store) fun encoded u hencoded hu => ?_
      unfold enterEncoded
      dsimp only
      split
      · next loan hloan => exact hu.enterLoan name (hencoded loan hloan)
      · exact hu
    cases pool with
    | none => exact hgo none
    | some pool => exact h.expect fun home _ => hgo (some home)
  | encodeInArena name order script entered =>
    refine h.expect fun a ha => h.runArena (h.arena name a ha)
      (Arena.keepsSpanned_encodeInArena script order) fun encoded _ _ ht => ?_
    dsimp only
    split
    · next slice _ => exact ht.enterSlice name slice entered
    · exact ht
  | decode source arenaName order calls fallible =>
    refine h.expect fun input _ => ?_
    cases arenaName with
    | none => exact h
    | some name =>
      exact h.expect fun a ha => h.runArena (h.arena name a ha) (Arena.keepsSpanned_copyOut _)
        fun _ _ _ ht => ht

theorem bufferStep (h : s.Spanned) (command : BufferCommand) :
    (s.bufferStep command).2.Spanned := by
  have hspares := s.spares_bufferStep command
  refine ⟨fun name loan hloan => ?_, fun name a ha => ?_⟩
  · exact h.loan name loan ((hspares.held (.loan name) id).symm.trans hloan)
  · refine h.arena name a ((hspares.arena name fun position => ?_).symm.trans ha)
    rintro (hnames | ⟨_, _, _, _, heq, -⟩)
    · exact hnames
    · cases heq

theorem watchStep (h : s.Spanned) (command : WatchCommand) : (s.watchStep command).2.Spanned := by
  cases command with
  | install tracker => exact h.of_eq rfl rfl
  | trace on => exact h.of_eq rfl rfl
  | describe name => exact h.expect fun _ _ => h

/-- **A command** leaves it so. -/
theorem step (h : s.Spanned) (command : Command) : (s.step command).2.Spanned := by
  cases command with
  | pool command => exact h.poolStep command
  | loan command => exact h.loanStep command
  | ticket command => exact h.ticketStep command
  | arena command => exact h.arenaStep command
  | message command => exact h.messageStep command
  | buffer command => exact h.bufferStep command
  | watch command => exact h.watchStep command

/-- So does a row of commands. -/
theorem play (h : s.Spanned) (commands : List Command) : (s.play commands).2.Spanned := by
  induction commands generalizing s with
  | nil => exact h
  | cons command commands ih => exact ih (h.step command)

end Spanned

/-- **Every session that can be reached** holds nothing but what can be spanned. -/
theorem spanned_play (commands : List Command) : (({} : Session).play commands).2.Spanned :=
  Spanned.play ⟨fun _ _ h => (by cases h), fun _ _ h => (by cases h)⟩ commands

end Session

end Wirepool
