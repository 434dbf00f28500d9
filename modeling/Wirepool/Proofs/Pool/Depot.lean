import Mathlib.Data.List.Infix
import Mathlib.Data.Multiset.AddSub
import Mathlib.Logic.Function.Basic
import Wirepool.Proofs.Memory.View
import Wirepool.Proofs.Pool.SizeClass
import Wirepool.Proofs.Pool.Stays

/-!
# Pages that pass from borrower to borrower

To its borrowers a pool is a *depot*: for each class a stack of pages that are not lent, and
beside it the pages that are out, with all that is in them. A depot changes by *moves*, and
a move is about one page. How a page comes back makes no difference: given back, lost, or
left with a ticket, it is put on top as it was held last.

Two things follow from the moves alone. The page that is lent next can be told from the row
of moves by counting, as brackets are matched (`LastIn`), and if none is left it is one that
was never lent. And a page stays as it is, wherever it is, until a move *changes* it. There
are two that do: a loan that asks for zeros, which clears what is seen of the page and
nothing behind that, and a write of the borrower, who does not see behind that either.
-/

namespace Wirepool

/-! ## Moves -/

/-- **What becomes of a page.** -/
inductive Move where
  /-- It is lent, as it is or cleared as far as it is seen. -/
  | lend (lease : Lease) (zero : Bool)
  /-- Its borrower writes to it. -/
  | write (before after : Lease)
  /-- Its loan is detached, and it is left with its slot. -/
  | detach (lease : Lease)
  /-- Its borrower gives it back or loses it. -/
  | regain (lease : Lease)
  /-- It comes back from its slot, for a ticket or because the last one is gone. -/
  | collect (lease : Lease)

/-- **A borrower writes to a page**: the loan stays the same, and so does all that stands
behind what the borrower sees. -/
structure Lease.Rewrites (before after : Lease) : Prop where
  lease_eq : after = { before with page := after.page }
  id_eq : after.page.id = before.page.id
  rest_eq : after.page.block.toBytes.drop before.len = before.page.block.toBytes.drop before.len

/-- **What a borrower is shown** of a page that is lent, and what is left behind that. -/
structure Lease.Shows (lease : Lease) (page : Page) (zero : Bool) : Prop where
  id_eq : lease.page.id = page.id
  /-- Zeros if they were asked for, and otherwise what stands in the page. -/
  view_eq : (Loan.pooled lease).view =
    if zero then List.replicate lease.len 0 else page.block.toBytes.take lease.len
  rest_eq : lease.page.block.toBytes.drop lease.len = page.block.toBytes.drop lease.len

/-- **Clearing the front of a block** leaves what stands behind it. -/
theorem Block.toBytes_clear_front {b : Block} {count : Nat} (h : count ≤ b.size) :
    (b.clear 0 count).toBytes = List.replicate count 0 ++ b.toBytes.drop count := by
  apply List.ext_getElem?
  intro i
  rw [toBytes_clear, getElem?_toBytes_write, List.length_replicate, List.getElem?_append,
    List.length_replicate, List.getElem?_drop]
  by_cases hi : i < count
  · rw [if_pos (by omega), if_pos hi, Nat.sub_zero]
  · rw [if_neg (by omega), if_neg hi, Nat.add_sub_cancel' (Nat.le_of_not_lt hi)]

namespace Lease

theorem Rewrites.refl (lease : Lease) : lease.Rewrites lease := ⟨rfl, rfl, rfl⟩

theorem Rewrites.trans {before between after : Lease} (h : before.Rewrites between)
    (h' : between.Rewrites after) : before.Rewrites after := by
  have hlen : between.len = before.len := (congrArg Lease.len h.lease_eq).trans rfl
  refine ⟨?_, h'.id_eq.trans h.id_eq, ?_⟩
  · rw [h'.lease_eq, h.lease_eq]
  · rw [← hlen, h'.rest_eq, hlen, h.rest_eq]

/-- **Clearing what is seen** leaves what stands behind that. -/
theorem shows_of_page {lease : Lease} {page : Page} {zero : Bool}
    (h : lease.page = if zero then page.clear lease.len else page)
    (hlen : lease.len ≤ page.sizeClass.capacity) : lease.Shows page zero := by
  have hsize : lease.len ≤ page.block.size := by
    rw [page.size_eq]
    exact hlen
  have hview : (Loan.pooled lease).view = lease.page.block.toBytes.take lease.len :=
    (Loan.pooled lease).view_eq
  cases zero with
  | false =>
    rw [if_neg Bool.false_ne_true] at h
    exact ⟨by rw [h], by rw [hview, h]; rfl, by rw [h]⟩
  | true =>
    rw [if_pos rfl] at h
    have hbytes := Block.toBytes_clear_front hsize
    rw [show page.block.clear 0 lease.len = lease.page.block by rw [h]; rfl] at hbytes
    refine ⟨by rw [h]; rfl, ?_, ?_⟩
    · rw [hview, hbytes, if_pos rfl, List.take_left' List.length_replicate]
    · rw [hbytes, List.drop_left' List.length_replicate]

end Lease

namespace Move

variable {c : SizeClass}

/-- Whether a page of a class is lent. -/
def lends (c : SizeClass) : Move → Bool
  | lend lease _ => SizeClass.ofLength? lease.len = some c
  | _ => false

/-- The page that comes back. -/
def returned? : Move → Option Page
  | regain lease | collect lease => some lease.page
  | _ => none

/-- Whether a page of a class comes back. -/
def returns (c : SizeClass) (move : Move) : Bool :=
  move.returned?.any fun page => page.sizeClass = c

/-- **What a move does to the stack of a class**: the top is taken off, or what comes back is
put on. -/
def restack (c : SizeClass) (stack : List Page) (move : Move) : List Page :=
  if move.lends c then stack.tail
  else (move.returned?.filter fun page => page.sizeClass = c).toList ++ stack

/-- **A move changes a page**: it clears it or writes to it. -/
def Changes (page : PageId) : Move → Prop
  | lend lease zero => zero = true ∧ lease.page.id = page
  | write before _ => before.page.id = page
  | _ => False

/-- The stack of a class after a row of moves, if there was none before. -/
def stack (c : SizeClass) (row : List Move) : List Page := row.foldl (restack c) []

/-- **As many pages of a class were lent as came back, and at no time more.** -/
structure Settled (c : SizeClass) (row : List Move) : Prop where
  within : ∀ front, front <+: row → front.countP (lends c) ≤ front.countP (returns c)
  even : row.countP (lends c) = row.countP (returns c)

/-- **The page of a class that came back last** of those that were not lent again. -/
def LastIn (c : SizeClass) (row : List Move) (page : Page) : Prop :=
  ∃ before back between, row = before ++ back :: between ∧ back.returned? = some page ∧
    page.sizeClass = c ∧ Settled c between

/-- **The page to be lent next**: the one that came back last, or if there is none, a page
that was never lent and is all zero. -/
def Next (c : SizeClass) (row : List Move) (page : Page) : Prop :=
  LastIn c row page ∨ (∀ other, ¬LastIn c row other) ∧ page.sizeClass = c ∧
    page.block.toBytes = List.replicate c.capacity 0 ∧
    ∀ lease zero, lend lease zero ∈ row → lease.page.id ≠ page.id

/-! ## The page on top -/

/-- **A move takes the top of a stack off, or puts a page on it, or does neither.** -/
theorem restack_cases (c : SizeClass) (move : Move) :
    (move.lends c = true ∧ move.returns c = false ∧ ∀ stack, restack c stack move = stack.tail) ∨
      (∃ page, move.returned? = some page ∧ page.sizeClass = c ∧ move.lends c = false ∧
        move.returns c = true ∧ ∀ stack, restack c stack move = page :: stack) ∨
      (move.lends c = false ∧ move.returns c = false ∧
        ∀ stack, restack c stack move = stack) := by
  have hnone (h : move.lends c = false) (hreturns : move.returns c = false) :
      move.lends c = false ∧ move.returns c = false ∧ ∀ stack, restack c stack move = stack := by
    refine ⟨h, hreturns, fun stack => ?_⟩
    rw [restack, if_neg (by rw [h]; exact Bool.false_ne_true)]
    cases hpage : move.returned? with
    | none => rfl
    | some page =>
      rw [returns, hpage, Option.any_some] at hreturns
      rw [Option.filter_some, hreturns]
      rfl
  have hback {page : Page} (hpage : move.returned? = some page) (h : move.lends c = false) :
      (∃ page, move.returned? = some page ∧ page.sizeClass = c ∧ move.lends c = false ∧
          move.returns c = true ∧ ∀ stack, restack c stack move = page :: stack) ∨
        (move.lends c = false ∧ move.returns c = false ∧
          ∀ stack, restack c stack move = stack) := by
    by_cases hc : page.sizeClass = c
    · refine .inl ⟨page, hpage, hc, h, ?_, fun stack => ?_⟩
      · rw [returns, hpage, Option.any_some, decide_eq_true hc]
      · rw [restack, if_neg (by rw [h]; exact Bool.false_ne_true), hpage, Option.filter_some,
          decide_eq_true hc]
        rfl
    · exact .inr (hnone h (by rw [returns, hpage, Option.any_some, decide_eq_false hc]))
  cases move with
  | lend lease zero =>
    cases hlends : (lend lease zero).lends c with
    | true => exact .inl ⟨rfl, rfl, fun stack => if_pos hlends⟩
    | false =>
      have hneither := hnone hlends rfl
      rw [hlends] at hneither
      exact .inr (.inr hneither)
  | regain lease => exact .inr (hback rfl rfl)
  | collect lease => exact .inr (hback rfl rfl)
  | write before after => exact .inr (.inr (hnone rfl rfl))
  | detach lease => exact .inr (.inr (hnone rfl rfl))

theorem stack_concat (c : SizeClass) (row : List Move) (move : Move) :
    stack c (row ++ [move]) = restack c (stack c row) move := by
  rw [stack, List.foldl_append]
  rfl

/-- **What is never lent more than came back** leaves a stack as it was, under what came back
and was not lent. -/
theorem exists_above {row : List Move}
    (h : ∀ front, front <+: row → front.countP (lends c) ≤ front.countP (returns c))
    (under : List Page) :
    ∃ above, row.foldl (restack c) under = above ++ under ∧
      above.length + row.countP (lends c) = row.countP (returns c) := by
  induction row using List.reverseRecOn with
  | nil => exact ⟨[], rfl, rfl⟩
  | append_singleton row move ih =>
    obtain ⟨above, hfold, hlength⟩ := ih fun front hfront => h front (hfront.trans
      (List.prefix_append row [move]))
    have hall := h _ List.prefix_rfl
    simp only [List.countP_append, List.countP_singleton] at hall ⊢
    rw [List.foldl_append, hfold]
    show ∃ above', restack c (above ++ under) move = above' ++ under ∧ _
    rcases restack_cases c move with ⟨hl, hr, hstack⟩ | ⟨page, -, -, hl, hr, hstack⟩ |
      ⟨hl, hr, hstack⟩ <;> rw [hl, hr] at hall ⊢ <;> rw [hstack]
    · -- more came back than was lent, so something lies on top
      cases above with
      | nil =>
        simp only [List.length_nil, if_true, Bool.false_eq_true, if_false] at hlength hall
        omega
      | cons top above =>
        refine ⟨above, rfl, ?_⟩
        simp only [List.length_cons, if_true, Bool.false_eq_true, if_false] at hlength ⊢
        omega
    · refine ⟨page :: above, rfl, ?_⟩
      simp only [List.length_cons, if_true, Bool.false_eq_true, if_false]
      omega
    · exact ⟨above, rfl, hlength⟩

/-- **What lies on a stack** came back, and since then no more was lent than came back: that
is what lies above it. -/
theorem exists_back {row : List Move} {above under : List Page} {page : Page}
    (h : stack c row = above ++ page :: under) :
    ∃ before back between, row = before ++ back :: between ∧ back.returned? = some page ∧
      page.sizeClass = c ∧
      (∀ front, front <+: between → front.countP (lends c) ≤ front.countP (returns c)) ∧
      above.length + between.countP (lends c) = between.countP (returns c) := by
  induction row using List.reverseRecOn generalizing above with
  | nil => exact absurd h.symm (List.append_ne_nil_of_right_ne_nil _ (List.cons_ne_nil _ _))
  | append_singleton row move ih =>
    -- what happens behind a move that put the page there goes on with the last move
    have hlater {above' : List Page} (hrow : stack c row = above' ++ page :: under)
        (hcount : above.length + [move].countP (lends c) =
          above'.length + [move].countP (returns c)) :
        ∃ before back between, row ++ [move] = before ++ back :: between ∧
          back.returned? = some page ∧ page.sizeClass = c ∧
          (∀ front, front <+: between → front.countP (lends c) ≤ front.countP (returns c)) ∧
          above.length + between.countP (lends c) = between.countP (returns c) := by
      obtain ⟨before, back, between, rfl, hback, hc, hwithin, heven⟩ := ih hrow
      have hall : above.length + (between ++ [move]).countP (lends c) =
          (between ++ [move]).countP (returns c) := by
        rw [List.countP_append, List.countP_append]
        omega
      refine ⟨before, back, between ++ [move], by simp, hback, hc, fun front hfront => ?_, hall⟩
      rcases List.prefix_concat_iff.mp hfront with rfl | hfront
      · omega
      · exact hwithin front hfront
    rw [stack_concat] at h
    rcases restack_cases c move with ⟨hl, hr, hstack⟩ | ⟨other, hother, hc, hl, hr, hstack⟩ |
      ⟨hl, hr, hstack⟩ <;> rw [hstack] at h
    · cases hrow : stack c row with
      | nil =>
        rw [hrow] at h
        exact absurd h.symm (List.append_ne_nil_of_right_ne_nil _ (List.cons_ne_nil _ _))
      | cons top rest =>
        rw [hrow] at h
        have htop : stack c row = (top :: above) ++ page :: under := by
          rw [hrow, List.cons_append]
          exact congrArg _ h
        refine hlater htop ?_
        rw [List.countP_singleton, List.countP_singleton, hl, hr]
        rfl
    · cases above with
      | nil =>
        cases h
        exact ⟨row, move, [], rfl, hother, hc, fun front hfront => by
          rw [List.prefix_nil.mp hfront]; exact Nat.le_refl _, rfl⟩
      | cons top above =>
        refine hlater (List.cons.inj h).2 ?_
        rw [List.countP_singleton, List.countP_singleton, hl, hr]
        rfl
    · refine hlater h ?_
      rw [List.countP_singleton, List.countP_singleton, hl, hr]

/-- **The page that came back last is the one on top.** -/
theorem lastIn_iff {row : List Move} {page : Page} :
    LastIn c row page ↔ (stack c row).head? = some page := by
  constructor
  · rintro ⟨before, back, between, rfl, hback, hc, hsettled⟩
    obtain ⟨above, hfold, hlength⟩ := exists_above hsettled.within (page :: stack c before)
    have habove : above = [] := List.eq_nil_of_length_eq_zero (by have := hsettled.even; omega)
    have hput : restack c (stack c before) back = page :: stack c before := by
      rcases restack_cases c back with ⟨-, hr, -⟩ | ⟨other, hother, -, -, -, hstack⟩ | ⟨-, hr, -⟩
      · rw [returns, hback, Option.any_some, decide_eq_true hc] at hr
        cases hr
      · cases hback.symm.trans hother
        exact hstack _
      · rw [returns, hback, Option.any_some, decide_eq_true hc] at hr
        cases hr
    rw [stack, List.foldl_append, List.foldl_cons, ← stack, hput, hfold, habove]
    rfl
  · intro hhead
    obtain ⟨under, hstack⟩ := List.head?_eq_some_iff.mp hhead
    have habove : stack c row = [] ++ page :: under := hstack
    obtain ⟨before, back, between, hrow, hback, hc, hwithin, heven⟩ := exists_back habove
    exact ⟨before, back, between, hrow, hback, hc, hwithin, by simpa using heven⟩

end Move

/-! ## Depots -/

/-- **A pool as its borrowers see it.** -/
@[ext]
structure Depot where
  /-- The pages of a class that are not lent, the one that came back last on top. -/
  stack : SizeClass → List Page := fun _ => []
  /-- The number of pages of a class that were made. -/
  made : SizeClass → Nat := fun _ => 0
  /-- What the borrowers hold. -/
  held : Multiset Lease := 0
  /-- What detached loans have left with the slots. -/
  parked : Nat → Option Lease := fun _ => none

namespace Depot

/-- The page of a class that is on top, or one that is made. -/
def top (d : Depot) (c : SizeClass) : Page := (d.stack c).headD (.fresh c (d.made c))

/-- The depot without the top of a class. -/
def pop (d : Depot) (c : SizeClass) : Depot :=
  { d with
    stack := Function.update d.stack c (d.stack c).tail
    made := Function.update d.made c (d.made c + if d.stack c = [] then 1 else 0) }

/-- The depot with a page put on top of its class. -/
def push (d : Depot) (page : Page) : Depot :=
  { d with stack := Function.update d.stack page.sizeClass (page :: d.stack page.sizeClass) }

/-- **A depot makes a move.** What it gives out is on top of the class that serves the
length, what comes back is put on top of its own class, and all the rest stays. -/
inductive Makes (d : Depot) : Move → Depot → Prop
  | lend {lease : Lease} {zero : Bool} {c : SizeClass}
      (hclass : SizeClass.ofLength? lease.len = some c)
      (hpage : lease.page = if zero then (d.top c).clear lease.len else d.top c) :
      Makes d (.lend lease zero) { d.pop c with held := lease ::ₘ d.held }
  | write {before after : Lease} {held : Multiset Lease} (hheld : d.held = before ::ₘ held)
      (hwrites : before.Rewrites after) :
      Makes d (.write before after) { d with held := after ::ₘ held }
  | detach {lease : Lease} {held : Multiset Lease} (hheld : d.held = lease ::ₘ held)
      (hfree : d.parked lease.slot = none) :
      Makes d (.detach lease)
        { d with held, parked := Function.update d.parked lease.slot (some lease) }
  | regain {lease : Lease} {held : Multiset Lease} (hheld : d.held = lease ::ₘ held) :
      Makes d (.regain lease) { d.push lease.page with held }
  | collect {lease : Lease} (hparked : d.parked lease.slot = some lease) :
      Makes d (.collect lease)
        { d.push lease.page with parked := Function.update d.parked lease.slot none }

/-- **A depot makes a row of moves.** -/
inductive Goes (d : Depot) : List Move → Depot → Prop
  | nil : Goes d [] d
  | concat {row : List Move} {move : Move} {e f : Depot} (h : Goes d row e)
      (hmove : e.Makes move f) : Goes d (row ++ [move]) f

/-- **A page is in a depot**, with just these bytes, wherever it is. -/
def Has (d : Depot) (page : Page) : Prop :=
  (∃ c, page ∈ d.stack c) ∨ (∃ lease ∈ d.held, lease.page = page) ∨
    ∃ slot lease, d.parked slot = some lease ∧ lease.page = page

variable {d e f : Depot} {row later : List Move} {move : Move} {c : SizeClass}

theorem mem_push {page other : Page} :
    other ∈ (d.push page).stack c ↔ other = page ∧ c = page.sizeClass ∨ other ∈ d.stack c := by
  by_cases hc : c = page.sizeClass
  · subst hc
    simp [push]
  · simp [push, hc]

theorem mem_of_mem_pop {page : Page} {d' : SizeClass} (h : page ∈ (d.pop d').stack c) :
    page ∈ d.stack c := by
  by_cases hc : c = d'
  · subst hc
    exact List.mem_of_mem_tail (by simpa [pop] using h)
  · simpa [pop, hc] using h

/-- What is not on top stays when the top is taken off. -/
theorem mem_pop_or_eq_top (c : SizeClass) {c' : SizeClass} {page : Page}
    (h : page ∈ d.stack c') : page ∈ (d.pop c).stack c' ∨ page = d.top c := by
  by_cases hc : c' = c
  · subst hc
    cases hstack : d.stack c' with
    | nil => exact absurd (hstack ▸ h) List.not_mem_nil
    | cons first rest =>
      rw [hstack] at h
      rcases List.mem_cons.mp h with rfl | h
      · exact .inr (by rw [top, hstack]; rfl)
      · exact .inl (by simpa [pop, hstack] using h)
  · exact .inl (by simpa [pop, hc] using h)

/-- **A move does to every stack what it says.** -/
theorem Makes.stack_eq (h : d.Makes move e) (c : SizeClass) :
    e.stack c = move.restack c (d.stack c) := by
  have hpush {page : Page} (hback : move.returned? = some page) (hl : move.lends c = false) :
      (d.push page).stack c = move.restack c (d.stack c) := by
    rw [Move.restack, if_neg (by rw [hl]; exact Bool.false_ne_true), hback, Option.filter_some]
    by_cases hc : page.sizeClass = c
    · rw [decide_eq_true hc, if_pos rfl]
      subst hc
      exact Function.update_self ..
    · rw [decide_eq_false hc, if_neg Bool.false_ne_true]
      exact Function.update_of_ne (Ne.symm hc) _ _
  cases h with
  | @lend lease zero c' hclass hpage =>
    rw [Move.restack, Move.lends, hclass]
    by_cases hc : c = c'
    · subst hc
      rw [if_pos (decide_eq_true rfl)]
      exact Function.update_self ..
    · rw [if_neg (by simpa using Ne.symm hc)]
      exact Function.update_of_ne hc _ _
  | write hheld hwrites => rfl
  | detach hheld hfree => rfl
  | regain hheld => exact hpush rfl rfl
  | collect hparked => exact hpush rfl rfl

namespace Goes

theorem single (h : d.Makes move e) : d.Goes [move] e := concat .nil h

/-- **One row of moves after another.** -/
theorem append (h : d.Goes row e) (h' : e.Goes later f) : d.Goes (row ++ later) f := by
  induction h' with
  | nil => rwa [List.append_nil]
  | concat _ hmove ih =>
    rw [← List.append_assoc]
    exact concat ih hmove

/-- The last move comes behind the others. -/
theorem exists_of_concat (h : d.Goes (row ++ [move]) f) : ∃ e, d.Goes row e ∧ e.Makes move f := by
  generalize hrow : row ++ [move] = all at h
  cases h with
  | nil => exact absurd hrow (List.append_ne_nil_of_right_ne_nil _ (List.cons_ne_nil _ _))
  | concat h hmove =>
    obtain ⟨rfl, hlast⟩ := List.append_inj' hrow rfl
    cases hlast
    exact ⟨_, h, hmove⟩

/-- A row of moves can be taken apart anywhere. -/
theorem exists_of_append (h : d.Goes (row ++ later) f) : ∃ e, d.Goes row e ∧ e.Goes later f := by
  induction later using List.reverseRecOn generalizing f with
  | nil => exact ⟨f, by rwa [List.append_nil] at h, .nil⟩
  | append_singleton later move ih =>
    rw [← List.append_assoc] at h
    obtain ⟨e, hfront, hmove⟩ := h.exists_of_concat
    obtain ⟨g, hrow, hlater⟩ := ih hfront
    exact ⟨g, hrow, hlater.concat hmove⟩

/-- Each move is made between those before it and those behind it. -/
theorem exists_makes (h : d.Goes (row ++ move :: later) f) :
    ∃ e g, d.Goes row e ∧ e.Makes move g ∧ g.Goes later f := by
  rw [List.append_cons] at h
  obtain ⟨g, hfront, hlater⟩ := h.exists_of_append
  obtain ⟨e, hrow, hmove⟩ := hfront.exists_of_concat
  exact ⟨e, g, hrow, hmove, hlater⟩

/-- **The stacks can be told from the moves.** -/
theorem stack_eq (h : ({} : Depot).Goes row d) (c : SizeClass) :
    d.stack c = Move.stack c row := by
  induction h with
  | nil => rfl
  | concat _ hmove ih => rw [hmove.stack_eq, ih, Move.stack_concat]

end Goes

/-! ## Pages that were made -/

/-- **Pages are numbered** within their class as they are made, and stacked by class. -/
structure Numbered (d : Depot) : Prop where
  sizeClass_eq : ∀ c, ∀ page ∈ d.stack c, page.sizeClass = c
  serial_lt : ∀ page, d.Has page → page.serial < d.made page.sizeClass

theorem numbered_empty : ({} : Depot).Numbered := by
  refine ⟨fun c page hpage => absurd hpage List.not_mem_nil, fun page hpage => ?_⟩
  rcases hpage with ⟨c, hpage⟩ | ⟨lease, hlease, -⟩ | ⟨slot, lease, hlease, -⟩
  · cases hpage
  · cases hlease
  · cases hlease

/-- The page on top is of its class. -/
theorem Numbered.sizeClass_top (h : d.Numbered) (c : SizeClass) : (d.top c).sizeClass = c := by
  rw [top]
  cases hstack : d.stack c with
  | nil => rfl
  | cons page rest => exact h.sizeClass_eq c page (by rw [hstack]; exact List.mem_cons_self)

/-- No page is ever unmade. -/
theorem Makes.made_le (h : d.Makes move e) (c : SizeClass) : d.made c ≤ e.made c := by
  cases h with
  | @lend lease zero c' hclass hpage =>
    show d.made c ≤ Function.update d.made c' _ c
    by_cases hc : c = c'
    · subst hc
      rw [Function.update_self]
      exact Nat.le_add_right _ _
    · rw [Function.update_of_ne hc]
  | _ => exact Nat.le_refl _

/-- What the borrowers hold is in the depot. -/
theorem has_of_held {out : Lease} {held : Multiset Lease} (hheld : d.held = out ::ₘ held) :
    d.Has out.page := by
  refine .inr (.inl ⟨out, ?_, rfl⟩)
  rw [hheld]
  exact Multiset.mem_cons_self _ _

theorem has_of_mem_held {out lease : Lease} {held : Multiset Lease}
    (hheld : d.held = out ::ₘ held) (hlease : lease ∈ held) : d.Has lease.page := by
  refine .inr (.inl ⟨lease, ?_, rfl⟩)
  rw [hheld]
  exact Multiset.mem_cons_of_mem hlease

/-- **What is put on top** was there before. -/
theorem has_of_mem_push {page other : Page} (h : d.Has page)
    (hmem : other ∈ (d.push page).stack c) : d.Has other := by
  rcases mem_push.mp hmem with ⟨rfl, -⟩ | hmem
  · exact h
  · exact .inl ⟨c, hmem⟩

/-- **A page that is in a depot was there before with just these bytes**, if it is not the
one that is lent or written to. -/
theorem Makes.has_or_renewed {page : Page} (h : d.Makes move e) (hpage : e.Has page) :
    d.Has page ∨ (∃ lease zero, move = .lend lease zero ∧ page = lease.page) ∨
      ∃ before after, move = .write before after ∧ page = after.page := by
  cases h with
  | @lend lent zero c hclass hlent =>
    rcases hpage with ⟨c', hmem⟩ | ⟨lease, hlease, rfl⟩ | hparked
    · exact .inl (.inl ⟨c', mem_of_mem_pop hmem⟩)
    · rcases Multiset.mem_cons.mp hlease with rfl | hlease
      · exact .inr (.inl ⟨lease, zero, rfl, rfl⟩)
      · exact .inl (.inr (.inl ⟨lease, hlease, rfl⟩))
    · exact .inl (.inr (.inr hparked))
  | @write before after held hheld hwrites =>
    rcases hpage with hmem | ⟨lease, hlease, rfl⟩ | hparked
    · exact .inl (.inl hmem)
    · rcases Multiset.mem_cons.mp hlease with rfl | hlease
      · exact .inr (.inr ⟨before, lease, rfl, rfl⟩)
      · exact .inl (has_of_mem_held hheld hlease)
    · exact .inl (.inr (.inr hparked))
  | @detach detached held hheld hfree =>
    rcases hpage with hmem | ⟨lease, hlease, rfl⟩ | ⟨slot, lease, hparked, rfl⟩
    · exact .inl (.inl hmem)
    · exact .inl (has_of_mem_held hheld hlease)
    · by_cases hslot : slot = detached.slot
      · subst hslot
        cases (Function.update_self ..).symm.trans hparked
        exact .inl (has_of_held hheld)
      · exact .inl (.inr (.inr ⟨slot, lease, (Function.update_of_ne hslot _ _).symm.trans hparked,
          rfl⟩))
  | @regain back held hheld =>
    rcases hpage with ⟨c, hmem⟩ | ⟨lease, hlease, rfl⟩ | hparked
    · exact .inl (has_of_mem_push (has_of_held hheld) hmem)
    · exact .inl (has_of_mem_held hheld hlease)
    · exact .inl (.inr (.inr hparked))
  | @collect back hback =>
    rcases hpage with ⟨c, hmem⟩ | hheld | ⟨slot, lease, hparked, rfl⟩
    · exact .inl (has_of_mem_push (.inr (.inr ⟨_, back, hback, rfl⟩)) hmem)
    · exact .inl (.inr (.inl hheld))
    · by_cases hslot : slot = back.slot
      · subst hslot
        cases (Function.update_self ..).symm.trans hparked
      · exact .inl (.inr (.inr ⟨slot, lease, (Function.update_of_ne hslot _ _).symm.trans hparked,
          rfl⟩))

/-- **A page that is in a depot was there before**, with these bytes or others, or it was
made. -/
theorem Makes.exists_of_has {page : Page} (h : d.Makes move e) (hpage : e.Has page) :
    (∃ other, d.Has other ∧ other.id = page.id) ∨
      ∃ c, page.id = (c, d.made c) ∧ e.made c = d.made c + 1 := by
  rcases h.has_or_renewed hpage with hbefore | ⟨lease, zero, rfl, rfl⟩ | ⟨before, after, rfl, rfl⟩
  · exact .inl ⟨page, hbefore, rfl⟩
  · -- what is lent was on top, or was made for that
    cases h with
    | @lend _ _ c hclass hlent =>
      have hid : lease.page.id = (d.top c).id := by
        rw [hlent]
        cases zero <;> rfl
      cases hstack : d.stack c with
      | nil =>
        refine .inr ⟨c, hid.trans ?_, ?_⟩
        · rw [top, hstack]
          rfl
        · show Function.update d.made c _ c = _
          rw [Function.update_self, if_pos hstack]
      | cons first rest =>
        refine .inl ⟨first, .inl ⟨c, by rw [hstack]; exact List.mem_cons_self⟩, ?_⟩
        rw [hid, top, hstack]
        rfl
  · cases h with
    | write hheld hwrites => exact .inl ⟨before.page, has_of_held hheld, hwrites.id_eq.symm⟩

/-- **Pages stay numbered.** -/
theorem Makes.numbered (h : d.Makes move e) (hd : d.Numbered) : e.Numbered := by
  refine ⟨fun c page hpage => ?_, fun page hpage => ?_⟩
  · rw [h.stack_eq] at hpage
    rcases Move.restack_cases c move with ⟨-, -, hstack⟩ | ⟨other, -, hc, -, -, hstack⟩ |
      ⟨-, -, hstack⟩ <;> rw [hstack] at hpage
    · exact hd.sizeClass_eq c page (List.mem_of_mem_tail hpage)
    · rcases List.mem_cons.mp hpage with rfl | hpage
      · exact hc
      · exact hd.sizeClass_eq c page hpage
    · exact hd.sizeClass_eq c page hpage
  · rcases h.exists_of_has hpage with ⟨other, hother, hid⟩ | ⟨c, hid, hmade⟩
    · obtain ⟨hc, hserial⟩ := Prod.mk.inj hid
      have hlt := hd.serial_lt other hother
      rw [hc, hserial] at hlt
      exact Nat.lt_of_lt_of_le hlt (h.made_le _)
    · obtain ⟨hc, hserial⟩ := Prod.mk.inj hid
      rw [hc, hserial, hmade]
      exact Nat.lt_succ_self _

theorem Goes.numbered (h : ({} : Depot).Goes row d) : d.Numbered := by
  induction h with
  | nil => exact numbered_empty
  | concat _ hmove ih => exact hmove.numbered ih

/-- **Whatever was lent was made before.** -/
theorem Goes.serial_lt (h : ({} : Depot).Goes row d) {lease : Lease} {zero : Bool}
    (hlease : .lend lease zero ∈ row) : lease.page.serial < d.made lease.page.sizeClass := by
  induction h with
  | nil => cases hlease
  | concat h hmove ih =>
    rcases List.mem_append.mp hlease with hbefore | hlast
    · exact Nat.lt_of_lt_of_le (ih hbefore) (hmove.made_le _)
    · cases List.mem_singleton.mp hlast
      refine (hmove.numbered h.numbered).serial_lt lease.page (.inr (.inl ⟨lease, ?_, rfl⟩))
      cases hmove
      exact Multiset.mem_cons_self _ _

/-! ## The page that is lent next -/

/-- **The page to be lent next** is on top, or it is made. -/
theorem Goes.next (h : ({} : Depot).Goes row d) (c : SizeClass) : Move.Next c row (d.top c) := by
  cases hstack : d.stack c with
  | cons page rest =>
    refine .inl (Move.lastIn_iff.mpr ?_)
    rw [← h.stack_eq, top, hstack]
    rfl
  | nil =>
    have htop : d.top c = .fresh c (d.made c) := by rw [top, hstack]; rfl
    refine .inr ⟨fun other hother => ?_, by rw [htop]; rfl, ?_, fun lease zero hlease hid => ?_⟩
    · rw [Move.lastIn_iff, ← h.stack_eq, hstack] at hother
      cases hother
    · rw [htop]
      exact Block.toBytes_zeroed _
    · obtain ⟨hc, hserial⟩ := Prod.mk.inj (hid.trans (congrArg Page.id htop))
      have hlt := h.serial_lt hlease
      rw [hc, hserial] at hlt
      exact Nat.lt_irrefl _ hlt

/-- **A loan shows the page that is next**, and leaves all that is not seen of it. -/
theorem Goes.shows (h : ({} : Depot).Goes row d) {lease : Lease} {zero : Bool}
    (hclass : SizeClass.ofLength? lease.len = some c)
    (hpage : lease.page = if zero then (d.top c).clear lease.len else d.top c) :
    Move.Next c row (d.top c) ∧ lease.Shows (d.top c) zero := by
  refine ⟨h.next c, Lease.shows_of_page hpage ?_⟩
  rw [h.numbered.sizeClass_top]
  exact SizeClass.le_capacity_of_ofLength? hclass

/-- **Whoever is lent a page is shown the one that is next.** -/
theorem Goes.exists_shows {before : List Move} {lease : Lease} {zero : Bool}
    (h : ({} : Depot).Goes (before ++ .lend lease zero :: later) d) :
    ∃ c page, SizeClass.ofLength? lease.len = some c ∧ Move.Next c before page ∧
      lease.Shows page zero := by
  obtain ⟨e, f, hbefore, hmove, -⟩ := h.exists_makes
  cases hmove with
  | lend hclass hpage =>
    obtain ⟨hnext, hshows⟩ := hbefore.shows hclass hpage
    exact ⟨_, _, hclass, hnext, hshows⟩

/-! ## Bytes that stay -/

/-- **A page that a move does not change** stays as it is, though perhaps elsewhere. -/
theorem Makes.has {page : Page} (h : d.Makes move e) (hpage : d.Has page)
    (hkeeps : ¬move.Changes page.id) : e.Has page := by
  have hheld {held : Multiset Lease} {out lease : Lease} (hd : d.held = out ::ₘ held)
      (hlease : lease ∈ d.held) (hne : lease ≠ out) : lease ∈ held := by
    rw [hd] at hlease
    exact (Multiset.mem_cons.mp hlease).resolve_left hne
  cases h with
  | @lend lent zero c hclass hlent =>
    rcases hpage with ⟨c', hmem⟩ | ⟨lease, hlease, rfl⟩ | hparked
    · rcases mem_pop_or_eq_top c hmem with hmem | rfl
      · exact .inl ⟨c', hmem⟩
      · -- the page on top is lent as it is, since it is not cleared
        cases zero with
        | false => exact .inr (.inl ⟨lent, Multiset.mem_cons_self _ _, hlent⟩)
        | true =>
          refine absurd ⟨rfl, ?_⟩ hkeeps
          rw [hlent]
          rfl
    · exact .inr (.inl ⟨lease, Multiset.mem_cons_of_mem hlease, rfl⟩)
    · exact .inr (.inr hparked)
  | @write before after held hd hwrites =>
    rcases hpage with hmem | ⟨lease, hlease, rfl⟩ | hparked
    · exact .inl hmem
    · refine .inr (.inl ⟨lease, Multiset.mem_cons_of_mem (hheld hd hlease ?_), rfl⟩)
      rintro rfl
      exact hkeeps rfl
    · exact .inr (.inr hparked)
  | @detach detached held hd hfree =>
    rcases hpage with hmem | ⟨lease, hlease, rfl⟩ | ⟨slot, lease, hparked, rfl⟩
    · exact .inl hmem
    · by_cases hout : lease = detached
      · exact .inr (.inr ⟨detached.slot, detached, Function.update_self .., by rw [hout]⟩)
      · exact .inr (.inl ⟨lease, hheld hd hlease hout, rfl⟩)
    · refine .inr (.inr ⟨slot, lease, (Function.update_of_ne ?_ _ _).trans hparked, rfl⟩)
      rintro rfl
      cases hfree.symm.trans hparked
  | @regain back held hd =>
    rcases hpage with ⟨c, hmem⟩ | ⟨lease, hlease, rfl⟩ | hparked
    · exact .inl ⟨c, mem_push.mpr (.inr hmem)⟩
    · by_cases hout : lease = back
      · exact .inl ⟨_, mem_push.mpr (.inl ⟨by rw [hout], rfl⟩)⟩
      · exact .inr (.inl ⟨lease, hheld hd hlease hout, rfl⟩)
    · exact .inr (.inr hparked)
  | @collect back hback =>
    rcases hpage with ⟨c, hmem⟩ | hlease | ⟨slot, lease, hparked, rfl⟩
    · exact .inl ⟨c, mem_push.mpr (.inr hmem)⟩
    · exact .inr (.inl hlease)
    · by_cases hslot : slot = back.slot
      · subst hslot
        cases hback.symm.trans hparked
        exact .inl ⟨_, mem_push.mpr (.inl ⟨rfl, rfl⟩)⟩
      · exact .inr (.inr ⟨slot, lease, (Function.update_of_ne hslot _ _).trans hparked, rfl⟩)

/-- **A page that no move changes** stays as it is. -/
theorem Goes.has {page : Page} (h : d.Goes row e) (hpage : d.Has page)
    (hkeeps : ∀ move ∈ row, ¬move.Changes page.id) : e.Has page := by
  induction h with
  | nil => exact hpage
  | concat _ hmove ih =>
    refine hmove.has (ih fun move hmove => hkeeps move (List.mem_append_left _ hmove)) ?_
    exact hkeeps _ (List.mem_append_right _ (List.mem_singleton_self _))

/-! ## Pages that are written to -/

/-- **What is held** was held before, perhaps with other bytes, or it is lent. -/
theorem Makes.held_or_lent (h : d.Makes move e) {lease : Lease} (hlease : lease ∈ e.held) :
    (∃ other ∈ d.held, other.page.id = lease.page.id) ∨ ∃ zero, move = .lend lease zero := by
  have hstays {out : Lease} {held : Multiset Lease} (hd : d.held = out ::ₘ held)
      (hmem : lease ∈ held) : (∃ other ∈ d.held, other.page.id = lease.page.id) ∨
        ∃ zero, move = .lend lease zero := by
    refine .inl ⟨lease, ?_, rfl⟩
    rw [hd]
    exact Multiset.mem_cons_of_mem hmem
  cases h with
  | lend hclass hpage =>
    rcases Multiset.mem_cons.mp hlease with rfl | hmem
    · exact .inr ⟨_, rfl⟩
    · exact .inl ⟨lease, hmem, rfl⟩
  | @write before after held hd hwrites =>
    rcases Multiset.mem_cons.mp hlease with rfl | hmem
    · refine .inl ⟨before, ?_, hwrites.id_eq.symm⟩
      rw [hd]
      exact Multiset.mem_cons_self _ _
    · exact hstays hd hmem
  | detach hd hfree => exact hstays hd hlease
  | regain hd => exact hstays hd hlease
  | collect hparked => exact .inl ⟨lease, hlease, rfl⟩

theorem Goes.held_or_lent (h : d.Goes row e) {lease : Lease} (hlease : lease ∈ e.held) :
    (∃ other ∈ d.held, other.page.id = lease.page.id) ∨
      ∃ other zero, .lend other zero ∈ row ∧ other.page.id = lease.page.id := by
  induction h generalizing lease with
  | nil => exact .inl ⟨lease, hlease, rfl⟩
  | concat _ hmove ih =>
    rcases hmove.held_or_lent hlease with ⟨between, hbetween, hid⟩ | ⟨zero, rfl⟩
    · rw [← hid]
      rcases ih hbetween with hbefore | ⟨other, zero, hother, hid⟩
      · exact .inl hbefore
      · exact .inr ⟨other, zero, List.mem_append_left _ hother, hid⟩
    · exact .inr ⟨lease, zero, List.mem_append_right _ (List.mem_singleton_self _), rfl⟩

/-- **A page that is written to** is held already, or it is lent in the same row. -/
theorem Goes.held_of_write (h : d.Goes row e) {before after : Lease}
    (hwrite : .write before after ∈ row) :
    (∃ lease ∈ d.held, lease.page.id = before.page.id) ∨
      ∃ lease zero, .lend lease zero ∈ row ∧ lease.page.id = before.page.id := by
  obtain ⟨front, later, rfl⟩ := List.append_of_mem hwrite
  obtain ⟨f, g, hfront, hmove, -⟩ := h.exists_makes
  cases hmove with
  | write hheld hwrites =>
    have hmem : before ∈ f.held := by
      rw [hheld]
      exact Multiset.mem_cons_self _ _
    rcases hfront.held_or_lent hmem with hbefore | ⟨lease, zero, hlease, hid⟩
    · exact .inl hbefore
    · exact .inr ⟨lease, zero, List.mem_append_left _ hlease, hid⟩

/-! ## Pages that come back -/

/-- **A page is out**: a borrower holds it, or a detached loan has left it with a slot. -/
def Out (d : Depot) (page : PageId) : Prop :=
  (∃ lease ∈ d.held, lease.page.id = page) ∨
    ∃ slot lease, d.parked slot = some lease ∧ lease.page.id = page

/-- **A page that is out** stays out, or it comes back. -/
theorem Makes.out_or_returned {page : PageId} (h : d.Makes move e) (hout : d.Out page) :
    e.Out page ∨ ∃ back, move.returned? = some back ∧ back.id = page := by
  cases h with
  | lend hclass hpage =>
    rcases hout with ⟨lease, hlease, hid⟩ | hparked
    · exact .inl (.inl ⟨lease, Multiset.mem_cons_of_mem hlease, hid⟩)
    · exact .inl (.inr hparked)
  | @write before after held hd hwrites =>
    rcases hout with ⟨lease, hlease, hid⟩ | hparked
    · rw [hd] at hlease
      rcases Multiset.mem_cons.mp hlease with rfl | hlease
      · exact .inl (.inl ⟨after, Multiset.mem_cons_self _ _, hwrites.id_eq.trans hid⟩)
      · exact .inl (.inl ⟨lease, Multiset.mem_cons_of_mem hlease, hid⟩)
    · exact .inl (.inr hparked)
  | @detach detached held hd hfree =>
    rcases hout with ⟨lease, hlease, hid⟩ | ⟨slot, lease, hparked, hid⟩
    · rw [hd] at hlease
      rcases Multiset.mem_cons.mp hlease with rfl | hlease
      · exact .inl (.inr ⟨lease.slot, lease, Function.update_self .., hid⟩)
      · exact .inl (.inl ⟨lease, hlease, hid⟩)
    · refine .inl (.inr ⟨slot, lease, (Function.update_of_ne ?_ _ _).trans hparked, hid⟩)
      rintro rfl
      cases hfree.symm.trans hparked
  | @regain back held hd =>
    rcases hout with ⟨lease, hlease, hid⟩ | hparked
    · rw [hd] at hlease
      rcases Multiset.mem_cons.mp hlease with rfl | hlease
      · exact .inr ⟨lease.page, rfl, hid⟩
      · exact .inl (.inl ⟨lease, hlease, hid⟩)
    · exact .inl (.inr hparked)
  | @collect back hback =>
    rcases hout with hheld | ⟨slot, lease, hparked, hid⟩
    · exact .inl (.inl hheld)
    · by_cases hslot : slot = back.slot
      · subst hslot
        cases hback.symm.trans hparked
        exact .inr ⟨back.page, rfl, hid⟩
      · exact .inl (.inr ⟨slot, lease, (Function.update_of_ne hslot _ _).trans hparked, hid⟩)

/-- **A page that was out and is not any more** has come back. -/
theorem Goes.out_or_returned {page : PageId} (h : d.Goes row e) (hout : d.Out page) :
    e.Out page ∨ ∃ move ∈ row, ∃ back, move.returned? = some back ∧ back.id = page := by
  induction h with
  | nil => exact .inl hout
  | concat _ hmove ih =>
    rcases ih with hout | ⟨back, hback, hpage⟩
    · rcases hmove.out_or_returned hout with hout | hpage
      · exact .inl hout
      · exact .inr ⟨_, List.mem_append_right _ (List.mem_singleton_self _), hpage⟩
    · exact .inr ⟨back, List.mem_append_left _ hback, hpage⟩

/-- **What is parked** stays parked, or it is collected. -/
theorem Makes.parked_or_collected {slot : Nat} {lease : Lease} (h : d.Makes move e)
    (hparked : d.parked slot = some lease) :
    e.parked slot = some lease ∨ move = .collect lease := by
  cases h with
  | lend hclass hpage => exact .inl hparked
  | write hd hwrites => exact .inl hparked
  | detach hd hfree =>
    refine .inl ((Function.update_of_ne ?_ _ _).trans hparked)
    rintro rfl
    cases hfree.symm.trans hparked
  | regain hd => exact .inl hparked
  | @collect back hback =>
    by_cases hslot : slot = back.slot
    · subst hslot
      cases hback.symm.trans hparked
      exact .inr rfl
    · exact .inl ((Function.update_of_ne hslot _ _).trans hparked)

theorem Goes.parked_or_collected {slot : Nat} {lease : Lease} (h : d.Goes row e)
    (hparked : d.parked slot = some lease) :
    e.parked slot = some lease ∨ .collect lease ∈ row := by
  induction h with
  | nil => exact .inl hparked
  | concat _ hmove ih =>
    rcases ih with hparked | hbefore
    · refine (hmove.parked_or_collected hparked).imp_right fun hlast => ?_
      rw [hlast]
      exact List.mem_append_right _ (List.mem_singleton_self _)
    · exact .inr (List.mem_append_left _ hbefore)

/-! ## Rows that can be told from the depots -/

theorem Makes.held_of_regain {lease : Lease} (h : d.Makes (.regain lease) e) :
    d.held = lease ::ₘ e.held := by
  cases h
  assumption

theorem Makes.parked_of_collect {lease : Lease} (h : d.Makes (.collect lease) e) :
    d.parked lease.slot = some lease ∧ e.parked = Function.update d.parked lease.slot none := by
  cases h
  exact ⟨by assumption, rfl⟩

/-- No move leads nowhere else. -/
theorem Goes.eq_of_nil (h : d.Goes [] e) : e = d := by
  generalize hrow : ([] : List Move) = row at h
  cases h with
  | nil => rfl
  | concat _ _ =>
    exact absurd hrow.symm (List.append_ne_nil_of_right_ne_nil _ (List.cons_ne_nil _ _))

/-- The first move is made at once. -/
theorem Goes.exists_first (h : d.Goes (move :: later) f) :
    ∃ e, d.Makes move e ∧ e.Goes later f := by
  rw [← List.nil_append (move :: later)] at h
  obtain ⟨g, e, hnothing, hmove, hlater⟩ := h.exists_makes
  rw [hnothing.eq_of_nil] at hmove
  exact ⟨e, hmove, hlater⟩

/-- Each page that is given back is one less to hold. -/
theorem Goes.card_held (h : d.Goes row e) (hrow : ∀ move ∈ row, ∃ lease, move = .regain lease) :
    d.held.card = e.held.card + row.length := by
  induction h with
  | nil => rfl
  | concat _ hmove ih =>
    obtain ⟨lease, rfl⟩ := hrow _ (List.mem_append_right _ (List.mem_singleton_self _))
    rw [ih fun move hmove => hrow move (List.mem_append_left _ hmove), hmove.held_of_regain,
      Multiset.card_cons, List.length_append, List.length_singleton]
    omega

/-- **If one loan less is held**, a row that does nothing but give back gives that loan back. -/
theorem Goes.eq_regain {lease : Lease} (h : d.Goes row e)
    (hrow : ∀ move ∈ row, ∃ lease, move = .regain lease) (hmove : d.Makes (.regain lease) e) :
    row = [.regain lease] := by
  have hcard := h.card_held hrow
  rw [hmove.held_of_regain, Multiset.card_cons] at hcard
  obtain ⟨move, rfl⟩ := List.length_eq_one_iff.mp (by omega : row.length = 1)
  obtain ⟨back, rfl⟩ := hrow move (List.mem_singleton_self _)
  obtain ⟨g, hback, hnothing⟩ := h.exists_first
  rw [← hnothing.eq_of_nil] at hback
  have hheld := hmove.held_of_regain.symm.trans hback.held_of_regain
  rw [Multiset.cons_inj_left] at hheld
  rw [hheld]

/-- What nothing is parked on stays so while pages are only collected. -/
theorem Goes.parked_eq_none {slot : Nat} (h : d.Goes row e)
    (hrow : ∀ move ∈ row, ∃ lease, move = .collect lease) (hparked : d.parked slot = none) :
    e.parked slot = none := by
  induction h with
  | nil => exact hparked
  | concat _ hmove ih =>
    obtain ⟨lease, rfl⟩ := hrow _ (List.mem_append_right _ (List.mem_singleton_self _))
    have hbefore := ih fun move hmove => hrow move (List.mem_append_left _ hmove)
    rw [hmove.parked_of_collect.2]
    by_cases hslot : slot = lease.slot
    · rw [hslot, Function.update_self]
    · rw [Function.update_of_ne hslot, hbefore]

/-- What is collected first is parked at first and not at last. -/
theorem Goes.parked_of_first {back : Lease} (h : d.Goes (.collect back :: later) e)
    (hlater : ∀ move ∈ later, ∃ lease, move = .collect lease) :
    d.parked back.slot = some back ∧ e.parked back.slot = none := by
  obtain ⟨f, hmove, hgoes⟩ := h.exists_first
  refine ⟨hmove.parked_of_collect.1, hgoes.parked_eq_none hlater ?_⟩
  rw [hmove.parked_of_collect.2, Function.update_self]

/-- **If one page less is parked**, a row that does nothing but collect collects that page. -/
theorem Goes.eq_collect {lease : Lease} (h : d.Goes row e)
    (hrow : ∀ move ∈ row, ∃ lease, move = .collect lease) (hmove : d.Makes (.collect lease) e) :
    row = [.collect lease] := by
  obtain ⟨hparked, hafter⟩ := hmove.parked_of_collect
  cases row with
  | nil =>
    rw [h.eq_of_nil] at hafter
    rw [hafter, Function.update_self] at hparked
    cases hparked
  | cons first later =>
    obtain ⟨back, rfl⟩ := hrow first List.mem_cons_self
    have hlater := fun move hmove => hrow move (List.mem_cons_of_mem _ hmove)
    obtain ⟨hback, hgone⟩ := h.parked_of_first hlater
    -- nothing but the page of the one slot is gone
    have hsame : back = lease := by
      by_contra hne
      have hslot : back.slot ≠ lease.slot := fun hslot =>
        hne (Option.some.inj (hback.symm.trans (hslot ▸ hparked)))
      rw [hafter, Function.update_of_ne hslot, hback] at hgone
      cases hgone
    subst hsame
    cases later with
    | nil => rfl
    | cons second rest =>
      obtain ⟨other, rfl⟩ := hlater second List.mem_cons_self
      obtain ⟨f, hfirst, hgoes⟩ := h.exists_first
      obtain ⟨hother, hgone'⟩ :=
        hgoes.parked_of_first fun move hmove => hlater move (List.mem_cons_of_mem _ hmove)
      rw [hafter, ← hfirst.parked_of_collect.2, hother] at hgone'
      cases hgone'

end Depot

end Wirepool
