import Wirepool.Proofs.Arena.Cutting

/-!
# What is charged to an arena

The length of an arena is the sum of what was asked of it, and not of what it holds: a
request is charged before anything is done about it, and nothing takes a charge back but a
new start. So a row of copies is charged with the sum of their lengths, whatever fragments
they are cut from, and each of them is still there when the last one is made.
-/

namespace Wirepool

/-- Nothing is known of how an action ends. -/
theorem Ends.of_any {ε σ α : Type} (result : EStateM.Result ε σ α) :
    Ends result (fun _ _ => True) fun _ _ => True := by
  cases result <;> trivial

namespace Arena

open HolderM

variable {a b c : Arena} {s : Store} {loans : Multiset Loan} {tickets : Multiset Ticket}
  {slices : List Slice}

/-- **An arena that was charged** with `count` bytes more. -/
structure Charged (a : Arena) (count : Nat) (b : Arena) : Prop where
  length_eq : b.length = a.length + count
  size_eq : b.size = a.size
  home_eq : b.home = a.home

theorem Charged.refl (a : Arena) : a.Charged 0 a := ⟨rfl, rfl, rfl⟩

theorem Charged.trans {count more : Nat} (h : a.Charged count b) (h' : b.Charged more c) :
    a.Charged (count + more) c :=
  ⟨by rw [h'.length_eq, h.length_eq, Nat.add_assoc], h'.size_eq.trans h.size_eq,
    h'.home_eq.trans h.home_eq⟩

/-- **Asking for a slice** is charged with its length, also if the memory cannot be had. -/
theorem charged_get (a : Arena) (s : Store) (len : Nat) (zero : Bool) :
    Ends (get len zero (a, s)) (fun _ t => a.Charged len t.1)
      fun _ t => t = (a, s) ∨ a.Charged len t.1 := by
  unfold get
  refine Ends.bind ((ends_count len).mono (fun _ _ ht => ht) fun _ _ ht => .inl ht.1)
    fun _ t ht => ?_
  subst ht
  let counted : Arena := { a with length := a.length + len }
  have hcounted : a.Charged len counted := ⟨rfl, rfl, rfl⟩
  have hnow : Ends (now (counted, s)) (fun b t => b = counted ∧ t = (counted, s))
      fun _ t => t = (a, s) ∨ a.Charged len t.1 := ⟨rfl, rfl⟩
  refine hnow.bind fun b t ht => ?_
  obtain ⟨rfl, rfl⟩ := ht
  have hborrow (size : Nat) (zero : Bool) :
      Ends (onStore (Store.borrow a.home size zero) (counted, s)) (fun _ t => t.1 = counted)
        fun _ t => t = (a, s) ∨ a.Charged len t.1 :=
    (ends_onStore (Ends.of_any (Store.borrow a.home size zero s))).mono (fun _ _ ht => ht.2)
      fun _ _ ht => .inr (ht.2 ▸ hcounted)
  cases counted.plan len with
  | nothing => exact hcounted
  | dedicated =>
    refine (hborrow len zero).bind fun chunk t ht => ?_
    obtain ⟨b, u⟩ := t
    obtain rfl : b = counted := ht
    exact ⟨rfl, rfl, rfl⟩
  | opening =>
    refine (hborrow a.size false).bind fun chunk t ht => ?_
    obtain ⟨b, u⟩ := t
    obtain rfl : b = counted := ht
    cases zero <;> exact ⟨rfl, rfl, rfl⟩
  | current => cases zero <;> exact ⟨rfl, rfl, rfl⟩

/-- So is copying a row. -/
theorem charged_copy (a : Arena) (s : Store) (row : List UInt8) :
    Ends (copy row (a, s)) (fun _ t => a.Charged row.length t.1)
      fun _ t => t = (a, s) ∨ a.Charged row.length t.1 := by
  unfold copy
  exact (charged_get a s row.length false).bind fun slice t ht => ⟨ht.1, ht.2, ht.3⟩

/-- What is got for a message. Nothing is, if it cannot be measured. -/
def measured (script : Script) (order : ByteOrder) : List Nat :=
  ((script.measure order).length.toOption).toList

/-! ## Charges stay -/

/-- A charge is never negative. -/
theorem Charged.length_le {count : Nat} (h : a.Charged count b) : a.length ≤ b.length := by
  rw [h.length_eq]
  exact Nat.le_add_right _ _

/-- **A request that takes no charge back**, whether it is served or not. -/
def Charging (request : Request) : Prop :=
  ∀ t : Arena × Store, Ends (request t) (fun _ u => t.1.length ≤ u.1.length)
    fun _ u => t.1.length ≤ u.1.length

/-- An action that charges takes no charge back. -/
theorem charging_of_charged {α : Type} {action : HolderM Arena α} {count : Nat}
    (h : ∀ a s, Ends (action (a, s)) (fun _ t => a.Charged count t.1)
      fun _ t => t = (a, s) ∨ a.Charged count t.1) (f : α → Option Slice) :
    Charging (f <$> action) := by
  rintro ⟨a, s⟩
  refine Ends.map ((h a s).mono (fun _ _ ht => ht) fun _ t ht => ?_) fun _ _ ht => ht.length_le
  rcases ht with rfl | ht
  · exact Nat.le_refl _
  · exact ht.length_le

/-- **Requests in turn** take no charge back, also if one of them aborts. -/
theorem length_le_serve {requests : List Request}
    (h : ∀ request ∈ requests, Charging request) (t : Arena × Store) :
    t.1.length ≤ (serve requests t).2.1.length := by
  induction requests generalizing t with
  | nil => exact Nat.le_refl _
  | cons request requests ih =>
    have hends := h request List.mem_cons_self t
    unfold serve
    cases hresult : request t with
    | error abort u =>
      rw [hresult] at hends
      exact hends
    | ok slice u =>
      rw [hresult] at hends
      exact Nat.le_trans hends (ih (fun other hother => h other (List.mem_cons_of_mem _ hother)) u)

/-! ## Rows of copies -/

/-- **Copies that were made** of rows, one slice for each. -/
structure Copied (a : Arena) (slices : List Slice) (rows : List (List UInt8)) (news : List Slice)
    (b : Arena) : Prop where
  handsOut : a.HandsOut slices news b
  charged : a.Charged (rows.map List.length).sum b
  bytes : news.map b.bytes = rows

/-- **Some row is too much** for an arena: the lengths cannot be added up any more, or
addresses cannot span the memory for it. -/
def TooMuchOf (a : Arena) (rows : List (List UInt8)) : Prop :=
  wordLimit ≤ a.length + (rows.map List.length).sum ∨
    ∃ row ∈ rows, addressLimit ≤ max row.length a.size

/-- Rows that are copied one behind the other. -/
theorem Copied.trans {rows more : List (List UInt8)} {news later : List Slice}
    (h : a.Copied slices rows news b) (h' : b.Copied (slices ++ news) more later c) :
    a.Copied slices (rows ++ more) (news ++ later) c where
  handsOut := h.handsOut.trans h'.handsOut
  charged := by
    rw [List.map_append, List.sum_append]
    exact h.charged.trans h'.charged
  bytes := by
    rw [List.map_append, h'.bytes, ← h.bytes]
    exact congrArg (· ++ more) (List.map_congr_left fun slice hslice =>
      h'.handsOut.keeps.bytes slice (List.mem_append_right _ hslice))

/-- What is too much is too much among others. -/
theorem TooMuchOf.of_sublist {rows more : List (List UInt8)} (h : a.TooMuchOf rows)
    (hrows : rows.Sublist more) : a.TooMuchOf more := by
  refine h.imp (fun hword => Nat.le_trans hword (Nat.add_le_add_left ?_ _)) fun hother => ?_
  · exact (hrows.map List.length).sum_le_sum fun _ _ => Nat.zero_le _
  · obtain ⟨other, hmem, haddress⟩ := hother
    exact ⟨other, hrows.subset hmem, haddress⟩

/-- What is too much behind a copy is too much in all. -/
theorem TooMuchOf.of_tail {row : List UInt8} {rows : List (List UInt8)}
    (h : b.TooMuchOf rows) (hcharged : a.Charged row.length b) : a.TooMuchOf (row :: rows) := by
  unfold TooMuchOf at h ⊢
  rw [hcharged.length_eq, hcharged.size_eq] at h
  refine h.imp (fun hword => ?_) fun hother => ?_
  · rwa [List.map_cons, List.sum_cons, ← Nat.add_assoc]
  · obtain ⟨other, hmem, haddress⟩ := hother
    exact ⟨other, List.mem_cons_of_mem _ hmem, haddress⟩

/-- **One copy** is made, unless it is too much. -/
theorem Laid.copied_copy (hlaid : a.Laid slices) (h : s.Sound (↑a.chunks + loans) tickets)
    (hhome : a.home < s.pools.length) (row : List UInt8) :
    Ends (copy row (a, s))
      (fun slice t => serve [some <$> copy row] (a, s) = ([slice], t) ∧
        a.Copied slices [row] [slice] t.1)
      fun _ _ => a.TooMuchOf [row] := by
  have hcopy := (hlaid.ends_copy h hhome row).and (charged_copy a s row)
  unfold serve
  simp only [Functor.map, EStateM.map]
  cases hresult : copy row (a, s) with
  | error abort t =>
    rw [hresult] at hcopy
    exact hcopy.1.2.imp id fun haddress => ⟨row, List.mem_cons_self, haddress⟩
  | ok slice t =>
    rw [hresult] at hcopy
    exact ⟨rfl, hcopy.1.1, hcopy.2, congrArg (fun bytes => [bytes]) hcopy.1.2⟩

/-- **A row of copies** is made, unless one of them is too much. -/
theorem Laid.ends_copies (hlaid : a.Laid slices) (h : s.Sound (↑a.chunks + loans) tickets)
    (hhome : a.home < s.pools.length) (rows : List (List UInt8)) :
    Ends (rows.forM (fun row => discard (copy row)) (a, s))
      (fun _ t => ∃ news, serve (rows.map fun row => some <$> copy row) (a, s) = (news, t) ∧
        a.Copied slices rows news t.1)
      fun _ _ => a.TooMuchOf rows := by
  induction rows generalizing a s slices with
  | nil => exact ⟨[], rfl, hlaid.handsOut_nil (.refl a slices), .refl a, rfl⟩
  | cons row rows ih =>
    have hcopy := (hlaid.copied_copy h hhome row).and (Arena.ends_copy h hhome row)
    rw [List.forM_eq_forM, List.forM_cons, List.map_cons]
    unfold serve
    simp only [bind, EStateM.bind, discard, Functor.mapConst, Functor.map, EStateM.map,
      Function.comp]
    cases hresult : copy row (a, s) with
    | error abort t =>
      rw [hresult] at hcopy
      exact hcopy.1.of_sublist ((List.nil_sublist rows).cons_cons row)
    | ok slice t =>
      rw [hresult] at hcopy
      obtain ⟨⟨-, hfirst⟩, hleads⟩ := hcopy
      have hlt : t.1.home < t.2.pools.length := by
        rw [hleads.2]
        exact Nat.lt_of_lt_of_le hhome hleads.1.2.length_le
      refine (ih hfirst.handsOut.laid hleads.1.1 hlt).mono (fun _ u hu => ?_)
        fun _ _ hmuch => hmuch.of_tail hfirst.charged
      obtain ⟨news, hserve, hcopied⟩ := hu
      refine ⟨slice :: news, ?_, hfirst.trans hcopied⟩
      exact congrArg (fun served => (slice :: served.1, served.2)) hserve

end Arena

end Wirepool
