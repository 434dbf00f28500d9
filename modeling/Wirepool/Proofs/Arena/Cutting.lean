import Wirepool.Proofs.Arena.Apart

/-!
# Handing slices out

Every way to get a slice from an arena hands out one that is apart from those there are,
and keeps these: the plain request, the copy, the row of copies that a decoder asks for,
and the message that is encoded into a slice. If nothing is handed out, because memory
cannot be had or because a message fails, the slices there are stay as they are all the
same.
-/

namespace Wirepool

/-! ## What is borrowed -/

/-- **Where zeros are asked for**, nothing else is seen of what a pool offers. -/
theorem Pool.Offers.view_zero {home len : Nat} {traced : Bool} {loan : Loan}
    (h : Pool.Offers home len true traced loan) : ∀ byte ∈ loan.view, byte = 0 := by
  intro byte hbyte
  cases h with
  | unpooled hclass hlen =>
    rw [Loan.view_eq] at hbyte
    have hmem : byte ∈ (Block.zeroed len).toBytes := List.mem_of_mem_take hbyte
    rw [Block.toBytes_zeroed] at hmem
    exact List.eq_of_mem_replicate hmem
  | pooled shelved generation =>
    rw [Loan.view_eq] at hbyte
    change byte ∈ List.take len (shelved.page.block.clear 0 len).toBytes at hbyte
    obtain ⟨i, hi, hget⟩ := List.getElem_of_mem hbyte
    have hlt : i < len := Nat.lt_of_lt_of_le hi (List.length_take_le _ _)
    have hcleared : (shelved.page.block.clear 0 len).toBytes[i]? = some byte := by
      rw [← List.getElem?_take_of_lt hlt, List.getElem?_eq_getElem hi, hget]
    have hsize : i < shelved.page.block.size := by
      have hbound := (List.getElem?_eq_some_iff.mp hcleared).1
      rwa [Block.length_toBytes, Block.size_clear] at hbound
    rw [Block.toBytes_clear, Block.getElem?_toBytes_write, List.length_replicate,
      if_pos ⟨hsize, Nat.zero_le i, by omega⟩, Nat.sub_zero,
      List.getElem?_replicate_of_lt hlt] at hcleared
    exact (Option.some.inj hcleared).symm

namespace Arena

open HolderM

variable {a : Arena} {s : Store} {loans : Multiset Loan} {tickets : Multiset Ticket}
  {slices : List Slice}

/-- **A request is too much** for an arena: lengths cannot be added up any more, or
addresses cannot span the memory for it. -/
def TooMuch (a : Arena) (len : Nat) : Prop :=
  wordLimit ≤ a.length + len ∨ addressLimit ≤ max len a.size

/-- **Slices are handed out**: they are apart from each other and from those there are,
and these are kept. -/
structure HandsOut (a : Arena) (slices news : List Slice) (b : Arena) : Prop where
  laid : b.Laid (slices ++ news)
  keeps : a.Keeps slices b

/-- Nothing is handed out, and the slices there are stay. -/
theorem Laid.handsOut_nil {b : Arena} (h : b.Laid slices) (hkeeps : a.Keeps slices b) :
    a.HandsOut slices [] b :=
  ⟨by rwa [List.append_nil], hkeeps⟩

/-- What is handed out in turn is handed out. -/
theorem HandsOut.trans {b c : Arena} {news others : List Slice} (h : a.HandsOut slices news b)
    (h' : b.HandsOut (slices ++ news) others c) : a.HandsOut slices (news ++ others) c :=
  ⟨by rw [← List.append_assoc]; exact h'.laid,
    h.keeps.trans (h'.keeps.mono (List.subset_append_left _ _))⟩

/-- Part of what is handed out can be held back. -/
theorem HandsOut.mono {b : Arena} {news fewer : List Slice} (h : a.HandsOut slices news b)
    (hfewer : fewer.Sublist news) : a.HandsOut slices fewer b :=
  ⟨h.laid.mono ((List.Sublist.refl slices).append hfewer), h.keeps⟩

/-- **Writing to the slice that was handed out last** changes none of the others. -/
theorem HandsOut.write {b : Arena} {slice : Slice} (h : a.HandsOut slices [slice] b)
    (row : List UInt8) : a.HandsOut slices [slice] (b.write slice row) :=
  ⟨h.laid.write slice row, h.keeps.trans (h.laid.keeps_write row)⟩

/-- So does filling it. -/
theorem HandsOut.fill {b : Arena} {slice : Slice} (h : a.HandsOut slices [slice] b)
    (value : UInt8) : a.HandsOut slices [slice] (b.fill slice value) :=
  ⟨h.laid.fill slice value, h.keeps.trans (h.laid.keeps_fill value)⟩

/-- A slice that was handed out is seen as long as it is. -/
theorem HandsOut.length_bytes {b : Arena} {slice : Slice} (h : a.HandsOut slices [slice] b) :
    (b.bytes slice).length = slice.length :=
  h.laid.length_bytes (List.mem_append_right _ (List.mem_singleton_self slice))

/-! ## Asking for slices -/

/-- A slice that is cut off, cleared or not. -/
theorem Laid.ends_cutOff (h : a.Laid slices) (s : Store) {len : Nat} (hlen : len ≤ a.left)
    (zero : Bool) :
    Ends (get.cutOff len zero (a, s))
      (fun slice t => a.HandsOut slices [slice] t.1 ∧ slice.length = len ∧
        (zero = true → t.1.bytes slice = List.replicate len 0))
      fun _ _ => False := by
  have hcut : a.HandsOut slices [(a.cut len).1] (a.cut len).2 :=
    ⟨h.concat_cut hlen, List.prefix_rfl, fun _ _ => rfl, id⟩
  cases zero with
  | false => exact ⟨hcut, rfl, nofun⟩
  | true => exact ⟨hcut.fill 0, rfl, fun _ => bytes_fill_self hcut.length_bytes 0⟩

/-- **A chunk that is borrowed** is as long as was asked for and a page of the right pool, if
it is one. -/
theorem ends_chunk (h : s.Sound (↑a.chunks + loans) tickets) (hhome : a.home < s.pools.length)
    (size : Nat) (zero : Bool) :
    Ends (onStore (Store.borrow a.home size zero) (a, s))
      (fun chunk t => t.1 = a ∧ chunk.view.length = size ∧
        (∀ home ∈ chunk.terms.lease.map Prod.fst, home = a.home) ∧
        (zero = true → ∀ byte ∈ chunk.view, byte = 0))
      fun _ t => t.1 = a ∧ addressLimit ≤ size := by
  refine (ends_onStore ((h.borrow hhome size zero).and (Store.ends_borrow_offers _ _ _ _))).mono
    (fun chunk t ht => ⟨ht.2, ?_, ht.1.2.ofPool, ?_⟩) fun abort t ht => ⟨ht.2, ht.1.1.2.2⟩
  · exact (ht.1.1.1.1.length_view (Multiset.mem_cons_self _ _)).trans ht.1.1.2.1
  · rintro rfl
    exact ht.1.2.view_zero

/-- **Asking for a slice** hands one out, unless it is too much. -/
theorem Laid.ends_get (hlaid : a.Laid slices) (h : s.Sound (↑a.chunks + loans) tickets)
    (hhome : a.home < s.pools.length) (len : Nat) (zero : Bool) :
    Ends (get len zero (a, s))
      (fun slice t => a.HandsOut slices [slice] t.1 ∧ slice.length = len ∧
        (zero = true → t.1.bytes slice = List.replicate len 0))
      fun _ t => a.HandsOut slices [] t.1 ∧ a.TooMuch len := by
  unfold get
  have hcount : Ends (count len (a, s))
      (fun _ t => t = ({ a with length := a.length + len }, s))
      fun _ t => a.HandsOut slices [] t.1 ∧ a.TooMuch len := by
    unfold count now
    simp only [bind, EStateM.bind]
    split
    · next hlimit => exact ⟨hlaid.handsOut_nil (.refl a slices), .inl hlimit⟩
    · rfl
  refine hcount.bind fun _ t ht => ?_
  subst ht
  let counted : Arena := { a with length := a.length + len }
  have hcounted : counted.Laid slices := hlaid.of_terms_eq rfl rfl rfl rfl
  have hkept : a.Keeps slices counted := ⟨List.prefix_rfl, fun _ _ => rfl, id⟩
  have hnow : Ends (now (counted, s)) (fun b t => b = counted ∧ t = (counted, s))
      fun _ t => a.HandsOut slices [] t.1 ∧ a.TooMuch len := ⟨rfl, rfl⟩
  refine hnow.bind fun b t ht => ?_
  obtain ⟨rfl, rfl⟩ := ht
  have hborrow (size : Nat) (zero : Bool) (hmax : size ≤ max len a.size) :=
    (ends_chunk (a := counted) h hhome size zero).mono (fun _ _ ht => ht) fun _ t ht =>
      show a.HandsOut slices [] t.1 ∧ a.TooMuch len from
        ⟨ht.1 ▸ hcounted.handsOut_nil hkept, .inr (Nat.le_trans ht.2 hmax)⟩
  cases hplan : counted.plan len with
  | nothing =>
    obtain rfl := eq_zero_of_plan_eq_nothing hplan
    exact ⟨⟨hcounted.concat_nothing, hkept⟩, rfl, fun _ =>
      List.eq_nil_of_length_eq_zero (length_read_zero counted ⟨0, 0, 0⟩)⟩
  | dedicated =>
    refine (hborrow len zero (Nat.le_max_left _ _)).bind fun chunk t ht => ?_
    obtain ⟨b, u⟩ := t
    obtain ⟨rfl, rfl, hpage, hzero⟩ := ht
    have hadded : a.HandsOut slices [⟨counted.chunks.length, 0, chunk.view.length⟩]
        (counted.addChunk chunk) :=
      ⟨hcounted.concat_dedicated chunk, hkept.trans (hcounted.keeps_addChunk hpage)⟩
    exact ⟨hadded, rfl, fun hcleared =>
      bytes_eq_zeros List.getElem?_concat_length hadded.length_bytes (hzero hcleared)⟩
  | opening =>
    refine (hborrow counted.size false (Nat.le_max_right _ _)).bind fun chunk t ht => ?_
    obtain ⟨b, u⟩ := t
    obtain ⟨rfl, hlength, hpage, -⟩ := ht
    have hopened := hcounted.openFragment hlength
    have hkeeps := hkept.trans (hcounted.keeps_openFragment hpage)
    exact (hopened.ends_cutOff u (le_size_of_plan_eq_opening hplan) zero).mono
      (fun slice t ht => ⟨⟨ht.1.laid, hkeeps.trans ht.1.keeps⟩, ht.2⟩) fun _ _ hf => hf.elim
  | current =>
    exact (hcounted.ends_cutOff s (le_left_of_plan_eq_current hplan) zero).mono
      (fun slice t ht => ⟨⟨ht.1.laid, hkept.trans ht.1.keeps⟩, ht.2⟩) fun _ _ hf => hf.elim

/-- So whoever asks for a slice sees as much as asked for, and what is left afterwards is
there. -/
theorem Tidy.ends_get (htidy : a.Tidy) (h : s.Sound (↑a.chunks + loans) tickets)
    (hhome : a.home < s.pools.length) (len : Nat) (zero : Bool) :
    Ends (get len zero (a, s))
      (fun slice t => t.1.Tidy ∧ slice.length = len ∧
        (t.1.read slice 0 slice.length).length = slice.length)
      fun _ t => t.1.Tidy :=
  (htidy.laid_nil.ends_get h hhome len zero).mono
    (fun _ _ ht => ⟨ht.1.laid.toTidy, ht.2.1, ht.1.length_bytes⟩) fun _ _ ht => ht.1.laid.toTidy

/-- **Copying a row** hands out a slice that holds it. -/
theorem Laid.ends_copy (hlaid : a.Laid slices) (h : s.Sound (↑a.chunks + loans) tickets)
    (hhome : a.home < s.pools.length) (row : List UInt8) :
    Ends (copy row (a, s))
      (fun slice t => a.HandsOut slices [slice] t.1 ∧ t.1.bytes slice = row)
      fun _ t => a.HandsOut slices [] t.1 ∧ a.TooMuch row.length := by
  unfold copy
  refine (hlaid.ends_get h hhome row.length false).bind fun slice t ht => ?_
  obtain ⟨hhands, hlength, -⟩ := ht
  exact ⟨hhands.write row, read_write_slice (hlength.symm.trans hhands.length_bytes.symm)⟩

/-! ## Requests in turn -/

/-- **A request** asks an arena for a slice, and may make nothing of it. -/
abbrev Request := HolderM Arena (Option Slice)

/-- **What becomes of requests in turn**, up to the first one that aborts: the slices
that are handed out, and what is left behind. -/
def serve : List Request → Arena × Store → List Slice × Arena × Store
  | [], t => ([], t)
  | request :: requests, t =>
    match request t with
    | .ok slice t =>
      let (slices, last) := serve requests t
      (slice.toList ++ slices, last)
    | .error _ t => ([], t)

/-- **A fair request** hands out what it says and keeps the slices there are. -/
def Fair (request : Request) : Prop :=
  ∀ {a : Arena} {s : Store} {loans : Multiset Loan} {tickets : Multiset Ticket}
    {slices : List Slice}, a.Laid slices → s.Sound (↑a.chunks + loans) tickets →
    a.home < s.pools.length →
    Ends (request (a, s))
      (fun slice t => a.HandsOut slices slice.toList t.1 ∧ a.Leads s loans tickets t)
      fun _ t => a.HandsOut slices [] t.1

/-- Asking for a slice is fair. -/
theorem fair_get (len : Nat) (zero : Bool) : Fair (some <$> get len zero) := by
  intro a s loans tickets slices hlaid h hhome
  exact (((hlaid.ends_get h hhome len zero).and (ends_get h hhome len zero)).mono
    (fun _ _ ht => ht) fun _ _ ht => ht.1.1).map fun slice t ht => ⟨ht.1.1, ht.2⟩

/-- So is copying a row. -/
theorem fair_copy (row : List UInt8) : Fair (some <$> copy row) := by
  intro a s loans tickets slices hlaid h hhome
  exact (((hlaid.ends_copy h hhome row).and (ends_copy h hhome row)).mono
    (fun _ _ ht => ht) fun _ _ ht => ht.1.1).map fun slice t ht => ⟨ht.1.1, ht.2⟩

/-- So is encoding a message, which may fail and hold back its slice. -/
theorem fair_encodeInArena (script : Script) (order : ByteOrder) :
    Fair ((fun encoded => encoded.result.toOption) <$> script.encodeInArena order) := by
  intro a s loans tickets slices hlaid h hhome
  have hends : Ends (script.encodeInArena order (a, s))
      (fun encoded t => a.HandsOut slices encoded.result.toOption.toList t.1)
      fun _ t => a.HandsOut slices [] t.1 := by
    unfold Script.encodeInArena
    dsimp only
    cases (script.measure order).length with
    | error failure => exact hlaid.handsOut_nil (.refl a slices)
    | ok length =>
      refine Ends.bind ((hlaid.ends_get h hhome length false).mono (fun _ _ ht => ht)
        fun _ _ ht => ht.1) fun slice t ht => ?_
      refine HandsOut.mono (ht.1.write _) ?_
      cases (script.fill order (t.1.read slice 0 length)).outcome with
      | error failure => exact List.nil_sublist _
      | ok => exact List.Sublist.refl _
  exact ((hends.and (script.ends_encodeInArena h hhome order)).mono (fun _ _ ht => ht)
    fun _ _ ht => ht.1).map fun _ _ ht => ht

/-- **Fair requests in turn** hand out what they say, also if one of them aborts. -/
theorem Laid.handsOut_serve {requests : List Request} (hfair : ∀ request ∈ requests, Fair request)
    (hlaid : a.Laid slices) (h : s.Sound (↑a.chunks + loans) tickets)
    (hhome : a.home < s.pools.length) :
    a.HandsOut slices (serve requests (a, s)).1 (serve requests (a, s)).2.1 := by
  induction requests generalizing a s slices with
  | nil => exact hlaid.handsOut_nil (.refl a slices)
  | cons request requests ih =>
    have hends := hfair request List.mem_cons_self hlaid h hhome
    unfold serve
    cases hresult : request (a, s) with
    | error abort t =>
      rw [hresult] at hends
      exact hends
    | ok slice t =>
      rw [hresult] at hends
      obtain ⟨hhands, hleads⟩ := hends
      have hlt : t.1.home < t.2.pools.length := by
        rw [hleads.2]
        exact Nat.lt_of_lt_of_le hhome hleads.1.2.length_le
      exact hhands.trans
        (ih (fun other hother => hfair other (List.mem_cons_of_mem _ hother)) hhands.laid
          hleads.1.1 hlt)

/-- **A single request** hands out what it answers. -/
theorem ends_serve_singleton {α : Type} (action : HolderM Arena α) (f : α → Option Slice)
    (t : Arena × Store) :
    Ends (action t) (fun x u => serve [f <$> action] t = ((f x).toList, u))
      fun _ u => serve [f <$> action] t = ([], u) := by
  have hmap : serve [f <$> action] t = match (f <$> action) t with
      | .ok slice u => (slice.toList, u)
      | .error _ u => ([], u) := by
    unfold serve
    cases (f <$> action) t with
    | ok slice u => simp only [serve, List.append_nil]
    | error abort u => rfl
  rw [hmap]
  show Ends (action t) _ _
  simp only [Functor.map, EStateM.map]
  cases action t <;> rfl

/-- **Copies in turn** leave behind what the requests for them do. -/
theorem ends_copies (rows : List (List UInt8)) (t : Arena × Store) :
    Ends (rows.forM (fun row => discard (copy row)) t)
      (fun _ u => u = (serve (rows.map fun row => some <$> copy row) t).2)
      fun _ u => u = (serve (rows.map fun row => some <$> copy row) t).2 := by
  induction rows generalizing t with
  | nil => rfl
  | cons row rows ih =>
    rw [List.forM_eq_forM, List.forM_cons, List.map_cons]
    unfold serve
    simp only [bind, EStateM.bind, discard, Functor.mapConst, Functor.map, EStateM.map,
      Function.comp]
    cases copy row t with
    | error abort u => rfl
    | ok slice u => exact ih u

end Arena

end Wirepool
