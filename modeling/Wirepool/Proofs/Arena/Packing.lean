import Wirepool.Proofs.Arena.Charge
import Wirepool.Proofs.Store.Refusal

/-!
# How an arena is packed

An arena asks its pool for memory once for each fragment and not once for each slice. How
much that saves depends on how well fragments are filled, and a fragment may be given up
with almost all of it left. But then the slice for which it was given up is long: it did not
fit, so what was served from the fragment and this slice are together longer than a
fragment. Therefore any two fragments in a row have served more than one of them can hold,
and half of the number of fragments, times a length, is paid for by what was asked for.

For this the slices have to be put in order. Those that are no longer than a fragment are
the slices of the fragments, fragment by fragment and end to end (`Arena.Packed`). Empty
slices and those longer than a fragment may come at any time, and have no part in it. What
is in the memory does not matter, nor does the store behind the arena, so all of this is
about the figures of an arena only.
-/

namespace Wirepool

/-! ## Fragments -/

/-- **A fragment in use**: which chunk it is, and the lengths of the slices that were cut off
it, first one first. -/
structure Fragment where
  chunk : Nat
  lengths : List Nat

namespace Fragment

variable {f g : Fragment} {size : Nat}

/-- How much of a fragment was served. -/
def served (f : Fragment) : Nat := f.lengths.sum

/-- Slices of a chunk end to end, from an offset on. -/
def cuts (chunk : Nat) : (offset : Nat) → List Nat → List Slice
  | _, [] => []
  | offset, len :: lengths => ⟨chunk, offset, len⟩ :: cuts chunk (offset + len) lengths

/-- **The slices of a fragment**, end to end from its start on. -/
def slices (f : Fragment) : List Slice := cuts f.chunk 0 f.lengths

/-- The fragment with one slice more cut off. -/
def cutOff (f : Fragment) (len : Nat) : Fragment := { f with lengths := f.lengths ++ [len] }

theorem cuts_concat (chunk offset : Nat) (lengths : List Nat) (len : Nat) :
    cuts chunk offset (lengths ++ [len]) =
      cuts chunk offset lengths ++ [⟨chunk, offset + lengths.sum, len⟩] := by
  induction lengths generalizing offset with
  | nil => rfl
  | cons first lengths ih =>
    rw [List.cons_append, cuts, ih, cuts, List.sum_cons, Nat.add_assoc, List.cons_append]

/-- The slice that is cut off stands behind the others. -/
theorem slices_cutOff (f : Fragment) (len : Nat) :
    (f.cutOff len).slices = f.slices ++ [⟨f.chunk, f.served, len⟩] := by
  rw [slices, cutOff, cuts_concat, Nat.zero_add]
  rfl

theorem served_cutOff (f : Fragment) (len : Nat) : (f.cutOff len).served = f.served + len := by
  rw [served, cutOff, List.sum_append, List.sum_singleton]
  rfl

theorem map_length_slices (f : Fragment) : f.slices.map Slice.length = f.lengths := by
  have hcuts (offset : Nat) : (cuts f.chunk offset f.lengths).map Slice.length = f.lengths := by
    induction f.lengths generalizing offset with
    | nil => rfl
    | cons len lengths ih => rw [cuts, List.map_cons, ih]
  exact hcuts 0

/-- **A fragment is opened after another one** for a slice that the other could not hold any
more. -/
def Precedes (size : Nat) (f g : Fragment) : Prop :=
  f.chunk < g.chunk ∧ ∃ len, g.lengths.head? = some len ∧ size < f.served + len

/-- **Two fragments in a row** have served more than one of them holds. -/
theorem Precedes.size_lt (h : Precedes size f g) : size < f.served + g.served := by
  obtain ⟨-, len, hhead, hsize⟩ := h
  have hle : len ≤ g.served := List.single_le_sum (fun _ _ => Nat.zero_le _) len
    (List.mem_of_mem_head? hhead)
  omega

/-- **Fragments are paid for in pairs** by what they have served. -/
theorem half_mul_le_sum : ∀ {fragments : List Fragment},
    fragments.IsChain (fun f g => size < f.served + g.served) →
      fragments.length / 2 * (size + 1) ≤ (fragments.map served).sum
  | [], _ | [_], _ => by simp
  | f :: g :: fragments, h => by
    obtain ⟨hpair, hothers⟩ := List.isChain_cons_cons.1 h
    have hrest := half_mul_le_sum hothers.tail
    have hhalf : (f :: g :: fragments).length / 2 = fragments.length / 2 + 1 := by
      simp only [List.length_cons]
      omega
    rw [hhalf, Nat.add_mul, Nat.one_mul, List.map_cons, List.map_cons, List.sum_cons,
      List.sum_cons]
    rw [List.tail_cons] at hrest
    omega

end Fragment

namespace Arena

open HolderM

variable {a b : Arena} {slices : List Slice} {fragments : List Fragment} {len : Nat}

/-! ## What a request does -/

/-- **Arenas with the same figures**, whatever is in their memory. -/
structure SameFigures (a b : Arena) : Prop where
  size : a.size = b.size
  chunks : a.chunks.length = b.chunks.length
  current : a.current = b.current
  left : a.left = b.left
  length : a.length = b.length

theorem SameFigures.refl (a : Arena) : a.SameFigures a := ⟨rfl, rfl, rfl, rfl, rfl⟩

/-- Writing to a slice changes no figure. -/
theorem sameFigures_modifyChunk (a : Arena) (slice : Slice) (f : Loan → Loan) :
    (a.modifyChunk slice f).SameFigures a :=
  ⟨rfl, List.length_modify .., rfl, rfl, rfl⟩

/-- **What a request for `len` bytes does to an arena.** -/
inductive Serves (a : Arena) (len : Nat) : Slice → Arena → Prop
  /-- If there is nothing to serve, nothing happens. -/
  | nothing (hlen : len = 0) : Serves a len ⟨0, 0, 0⟩ a
  /-- A slice that is longer than a fragment gets a chunk of its own. -/
  | dedicated (hlen : a.size < len) (chunk : Loan) :
    Serves a len ⟨a.chunks.length, 0, len⟩ ((a.longer len).addChunk chunk)
  /-- One that the current fragment cannot hold is cut off the next one. -/
  | opening (hpos : 0 < len) (hsize : len ≤ a.size) (hleft : a.left < len) (chunk : Loan)
    {b : Arena} (hb : b.SameFigures (((a.longer len).openFragment chunk).cut len).2) :
    Serves a len ⟨a.chunks.length, 0, len⟩ b
  /-- Any other one is cut off the current fragment. -/
  | current (hpos : 0 < len) (hsize : len ≤ a.size) (hleft : len ≤ a.left) {b : Arena}
    (hb : b.SameFigures ((a.longer len).cut len).2) :
    Serves a len ⟨a.current, a.size - a.left, len⟩ b

theorem Serves.length_eq {slice : Slice} (h : a.Serves len slice b) : slice.length = len := by
  cases h with
  | nothing hlen => exact hlen.symm
  | _ => rfl

/-- **The plan for a request** says which of them it is. -/
theorem of_plan (a : Arena) (len : Nat) :
    match a.plan len with
    | .nothing => len = 0
    | .dedicated => a.size < len
    | .opening => 0 < len ∧ len ≤ a.size ∧ a.left < len
    | .current => 0 < len ∧ len ≤ a.size ∧ len ≤ a.left := by
  by_cases hzero : len = 0
  · rw [plan, if_pos hzero]
    exact hzero
  by_cases hsize : a.size < len
  · rw [plan, if_neg hzero, if_pos hsize]
    exact hsize
  by_cases hleft : a.left < len
  · rw [plan, if_neg hzero, if_neg hsize, if_pos hleft]
    exact ⟨Nat.pos_of_ne_zero hzero, Nat.le_of_not_lt hsize, hleft⟩
  · rw [plan, if_neg hzero, if_neg hsize, if_neg hleft]
    exact ⟨Nat.pos_of_ne_zero hzero, Nat.le_of_not_lt hsize, Nat.le_of_not_lt hleft⟩

/-- **Asking for a slice** does what the request does. -/
theorem serves_get (a : Arena) (s : Store) (len : Nat) (zero : Bool) :
    Ends (get len zero (a, s)) (fun slice t => a.Serves len slice t.1) fun _ _ => True := by
  have hborrow (size : Nat) (zero : Bool) :
      Ends (onStore (Store.borrow a.home size zero) (a.longer len, s))
        (fun _ t => t.1 = a.longer len) fun _ _ => True :=
    (ends_onStore (Ends.of_any _)).mono (fun _ _ ht => ht.2) fun _ _ _ => trivial
  have hcut (b : Arena) (t : Store) : Ends (get.cutOff len zero (b, t))
      (fun slice u => slice = (b.cut len).1 ∧ u.1.SameFigures (b.cut len).2) fun _ _ => True := by
    cases zero with
    | false => exact ⟨rfl, .refl _⟩
    | true => exact ⟨rfl, sameFigures_modifyChunk _ _ _⟩
  have hplan := a.of_plan len
  unfold get
  refine Ends.bind ((ends_count len).mono (fun _ _ ht => ht) fun _ _ _ => trivial) fun _ t ht => ?_
  subst ht
  show Ends ((now >>= fun a => _) (a.longer len, s)) _ _
  refine ends_now ?_
  show Ends ((match a.plan len with
    | .nothing => _
    | .dedicated => _
    | .opening => _
    | .current => _ : HolderM Arena Slice) (a.longer len, s)) _ _
  cases hway : a.plan len with
  | nothing =>
    rw [hway] at hplan
    obtain rfl : len = 0 := hplan
    exact .nothing rfl
  | dedicated =>
    rw [hway] at hplan
    refine (hborrow len zero).bind fun chunk t ht => ?_
    obtain ⟨b, u⟩ := t
    obtain rfl : b = a.longer len := ht
    exact .dedicated hplan chunk
  | opening =>
    rw [hway] at hplan
    obtain ⟨hpos, hsize, hleft⟩ := hplan
    refine (hborrow a.size false).bind fun chunk t ht => ?_
    obtain ⟨b, u⟩ := t
    obtain rfl : b = a.longer len := ht
    refine (hcut ((a.longer len).openFragment chunk) u).mono (fun slice t ht => ?_)
      fun _ _ _ => trivial
    obtain ⟨rfl, hfigures⟩ := ht
    have hslice : (((a.longer len).openFragment chunk).cut len).1 = ⟨a.chunks.length, 0, len⟩ :=
      congrArg (Slice.mk _ · len) (Nat.sub_self a.size)
    rw [hslice]
    exact .opening hpos hsize hleft chunk hfigures
  | current =>
    rw [hway] at hplan
    obtain ⟨hpos, hsize, hleft⟩ := hplan
    refine (hcut (a.longer len) s).mono (fun slice t ht => ?_) fun _ _ _ => trivial
    obtain ⟨rfl, hfigures⟩ := ht
    exact .current hpos hsize hleft hfigures

/-! ## Slices in order -/

/-- A slice is longer than a fragment. -/
def isLong (size : Nat) (slice : Slice) : Bool := size < slice.length

/-- A slice is cut off a fragment. -/
def isShort (size : Nat) (slice : Slice) : Bool := 0 < slice.length && slice.length ≤ size

/-- **An arena is packed** with the slices that it has cut so far. -/
structure Packed (a : Arena) (slices : List Slice) (fragments : List Fragment) : Prop where
  /-- Its length is the sum of what was asked for. -/
  length_eq : a.length = (slices.map Slice.length).sum
  /-- Each chunk is a fragment or all of a long slice, and none is two of them. -/
  chunks : (fragments.map Fragment.chunk ++ (slices.filter (isLong a.size)).map Slice.chunk).Perm
    (List.range a.chunks.length)
  long : ∀ slice ∈ slices, isLong a.size slice → slice.offset = 0
  /-- The other slices that are not empty are those of the fragments, in order. -/
  short : slices.filter (isShort a.size) = fragments.flatMap Fragment.slices
  used : ∀ f ∈ fragments, f.lengths ≠ [] ∧ f.served ≤ a.size
  opened : fragments.IsChain (Fragment.Precedes a.size)
  /-- The current fragment is the last one, and what is left is what it has not served. -/
  current : ∀ f ∈ fragments.getLast?, a.current = f.chunk ∧ f.served + a.left = a.size
  left : fragments = [] → a.left = 0

/-- An arena that holds nothing yet. -/
theorem packed_new (home size : Nat) : (new home size).Packed [] [] :=
  ⟨rfl, .nil, nofun, rfl, nofun, .nil, nofun, fun _ => rfl⟩

namespace Packed

variable (h : a.Packed slices fragments)
include h

/-- Only the figures matter. -/
theorem of_sameFigures (hb : b.SameFigures a) : b.Packed slices fragments := by
  obtain ⟨hsize, hchunks, hcurrent, hleft, hlength⟩ := hb
  refine ⟨hlength.trans h.length_eq, ?_, ?_, ?_, ?_, ?_, ?_,
    fun hnone => hleft.trans (h.left hnone)⟩
  · rw [hsize, hchunks]
    exact h.chunks
  · rw [hsize]
    exact h.long
  · rw [hsize]
    exact h.short
  · rw [hsize]
    exact h.used
  · rw [hsize]
    exact h.opened
  · rw [hsize, hcurrent, hleft]
    exact h.current

/-- The fragments are chunks. -/
theorem chunk_lt {f : Fragment} (hf : f ∈ fragments) : f.chunk < a.chunks.length :=
  List.mem_range.1 (h.chunks.subset (List.mem_append_left _ (List.mem_map_of_mem hf)))

omit h in
/-- The lengths, and one more. -/
theorem sum_concat (slices : List Slice) (slice : Slice) :
    ((slices ++ [slice]).map Slice.length).sum = (slices.map Slice.length).sum + slice.length := by
  rw [List.map_append, List.sum_append, List.map_singleton, List.sum_singleton]

/-- The long slices start where their chunks do, and so does one more. -/
theorem long_concat {slice : Slice} (hslice : isLong a.size slice → slice.offset = 0) :
    ∀ other ∈ slices ++ [slice], isLong a.size other → other.offset = 0 := by
  rw [List.forall_mem_append]
  exact ⟨h.long, List.forall_mem_singleton.2 hslice⟩

/-- An empty slice changes nothing. -/
theorem nothing : a.Packed (slices ++ [⟨0, 0, 0⟩]) fragments := by
  refine ⟨?_, ?_, h.long_concat fun _ => rfl, ?_, h.used, h.opened, h.current, h.left⟩
  · rw [sum_concat]
    exact h.length_eq
  · rw [List.filter_append, show [⟨0, 0, 0⟩].filter (isLong a.size) = [] from rfl, List.append_nil]
    exact h.chunks
  · rw [List.filter_append, h.short]
    exact List.append_nil _

/-- **A long slice** gets the next chunk. -/
theorem dedicated (hlen : a.size < len) (chunk : Loan) :
    ((a.longer len).addChunk chunk).Packed (slices ++ [⟨a.chunks.length, 0, len⟩]) fragments := by
  have hlong : [(⟨a.chunks.length, 0, len⟩ : Slice)].filter (isLong a.size) =
      [⟨a.chunks.length, 0, len⟩] := List.filter_cons_of_pos (decide_eq_true hlen)
  have hshort : [(⟨a.chunks.length, 0, len⟩ : Slice)].filter (isShort a.size) = [] :=
    List.filter_cons_of_neg (by simpa [isShort] using fun _ => hlen)
  refine ⟨?_, ?_, h.long_concat fun _ => rfl, ?_, h.used, h.opened, h.current, h.left⟩
  · rw [sum_concat, ← h.length_eq]
    rfl
  · show (_ ++ ((slices ++ [_]).filter (isLong a.size)).map Slice.chunk).Perm
      (List.range (a.chunks ++ [chunk]).length)
    rw [List.filter_append, hlong, List.map_append, ← List.append_assoc, List.length_append,
      List.length_singleton, List.range_succ]
    exact h.chunks.append_right _
  · show (slices ++ [_]).filter (isShort a.size) = _
    rw [List.filter_append, h.short, hshort, List.append_nil]

/-- One short slice more is no long one, and stands behind the other short ones. -/
theorem short_concat {slice : Slice} (hpos : 0 < slice.length) (hsize : slice.length ≤ a.size) :
    (slices ++ [slice]).filter (isLong a.size) = slices.filter (isLong a.size) ∧
      (slices ++ [slice]).filter (isShort a.size) =
        fragments.flatMap Fragment.slices ++ [slice] := by
  have hlong : isLong a.size slice = false := decide_eq_false (Nat.not_lt_of_le hsize)
  have hshort : isShort a.size slice = true := by simp [isShort, hpos, hsize]
  rw [List.filter_append, List.filter_append, h.short, List.filter_singleton, List.filter_singleton,
    hlong, hshort]
  exact ⟨List.append_nil _, rfl⟩

/-- **A slice that the current fragment cannot hold** opens the next one. -/
theorem opening (hpos : 0 < len) (hsize : len ≤ a.size) (hleft : a.left < len) (chunk : Loan) :
    (((a.longer len).openFragment chunk).cut len).2.Packed
      (slices ++ [⟨a.chunks.length, 0, len⟩]) (fragments ++ [⟨a.chunks.length, [len]⟩]) := by
  let slice : Slice := ⟨a.chunks.length, 0, len⟩
  obtain ⟨hlong, hshort⟩ := h.short_concat (show 0 < slice.length from hpos) hsize
  refine ⟨?_, ?_, h.long_concat fun _ => rfl, ?_, ?_, ?_, ?_, ?_⟩
  · rw [sum_concat, ← h.length_eq]
    rfl
  · show (_ ++ ((slices ++ [slice]).filter (isLong a.size)).map Slice.chunk).Perm
      (List.range (a.chunks ++ [chunk]).length)
    rw [hlong, List.map_append, List.append_assoc, List.length_append, List.length_singleton,
      List.range_succ]
    refine (List.perm_append_comm.append_left _).trans ?_
    rw [← List.append_assoc]
    exact h.chunks.append_right _
  · rw [List.flatMap_append]
    exact hshort
  · rw [List.forall_mem_append]
    exact ⟨h.used, List.forall_mem_singleton.2 ⟨List.cons_ne_nil _ _, hsize⟩⟩
  · refine List.isChain_append.2 ⟨h.opened, .singleton _, ?_⟩
    rintro f hf g ⟨⟩
    have hfull := (h.current f hf).2
    refine ⟨h.chunk_lt (List.mem_of_mem_getLast? hf), len, rfl, ?_⟩
    show a.size < f.served + len
    omega
  · rintro f hf
    rw [List.getLast?_concat] at hf
    cases hf
    exact ⟨rfl, Nat.add_sub_cancel' hsize⟩
  · exact fun hnone => absurd hnone (List.append_ne_nil_of_right_ne_nil _ (List.cons_ne_nil _ _))

/-- **Any other slice** is cut off the current fragment, behind its last one. -/
theorem cut (hpos : 0 < len) (hsize : len ≤ a.size) (hleft : len ≤ a.left) :
    ∃ front f, fragments = front ++ [f] ∧
      ((a.longer len).cut len).2.Packed (slices ++ [⟨a.current, a.size - a.left, len⟩])
        (front ++ [f.cutOff len]) := by
  have hsome : fragments ≠ [] := fun hnone => by
    have hnothing := h.left hnone
    omega
  obtain ⟨front, f, rfl⟩ := fragments.eq_nil_or_concat'.resolve_left hsome
  let slice : Slice := ⟨a.current, a.size - a.left, len⟩
  obtain ⟨hlong, hshort⟩ := h.short_concat (show 0 < slice.length from hpos) hsize
  obtain ⟨hcurrent, hserved⟩ := h.current f List.getLast?_concat
  have hplace : slice = ⟨f.chunk, f.served, len⟩ := by
    show Slice.mk a.current (a.size - a.left) len = _
    rw [hcurrent, ← hserved, Nat.add_sub_cancel]
  obtain ⟨hfront, -, hlast⟩ := List.isChain_append.1 h.opened
  obtain ⟨hused, hfused⟩ := List.forall_mem_append.1 h.used
  obtain ⟨hnonempty, hfits⟩ := List.forall_mem_singleton.1 hfused
  refine ⟨front, f, rfl, ?_, ?_, h.long_concat fun hslice => ?_, ?_, ?_, ?_, ?_, ?_⟩
  · rw [sum_concat, ← h.length_eq]
    rfl
  · show (_ ++ ((slices ++ [slice]).filter (isLong a.size)).map Slice.chunk).Perm
      (List.range a.chunks.length)
    have hsame : (front ++ [f.cutOff len]).map Fragment.chunk =
        (front ++ [f]).map Fragment.chunk := by
      rw [List.map_append, List.map_append]
      rfl
    rw [hlong, hsame]
    exact h.chunks
  · exact absurd (of_decide_eq_true hslice) (Nat.not_lt_of_le hsize)
  · show (slices ++ [slice]).filter (isShort a.size) = _
    rw [hshort, hplace, List.flatMap_append, List.flatMap_append, List.flatMap_singleton,
      List.flatMap_singleton, Fragment.slices_cutOff, List.append_assoc]
  · rw [List.forall_mem_append]
    refine ⟨hused, List.forall_mem_singleton.2 ⟨List.append_ne_nil_of_left_ne_nil hnonempty _, ?_⟩⟩
    rw [Fragment.served_cutOff]
    show f.served + len ≤ a.size
    omega
  · refine List.isChain_append.2 ⟨hfront, .singleton _, ?_⟩
    rintro e he g ⟨⟩
    obtain ⟨hchunk, first, hhead, hfull⟩ := hlast e he f rfl
    exact ⟨hchunk, first, List.head?_append_of_ne_nil _ hnonempty ▸ hhead, hfull⟩
  · rintro g hg
    rw [List.getLast?_concat] at hg
    cases hg
    refine ⟨hcurrent, ?_⟩
    rw [Fragment.served_cutOff]
    show f.served + len + (a.left - len) = a.size
    omega
  · exact fun hnone => absurd hnone (List.append_ne_nil_of_right_ne_nil _ (List.cons_ne_nil _ _))

/-- **Any slice that is served** leaves an arena packed. -/
theorem serves {slice : Slice} (hserves : a.Serves len slice b) :
    ∃ fragments', b.Packed (slices ++ [slice]) fragments' := by
  cases hserves with
  | nothing hlen => exact ⟨fragments, h.nothing⟩
  | dedicated hlen chunk => exact ⟨fragments, h.dedicated hlen chunk⟩
  | opening hpos hsize hleft chunk hb =>
    exact ⟨_, (h.opening hpos hsize hleft chunk).of_sameFigures hb⟩
  | current hpos hsize hleft hb =>
    obtain ⟨front, f, -, hcut⟩ := h.cut hpos hsize hleft
    exact ⟨_, hcut.of_sameFigures hb⟩

/-! ## What it costs -/

/-- **The number of chunks** is that of the long requests and of the fragments. -/
theorem length_chunks : a.chunks.length =
    (slices.map Slice.length).countP (a.size < ·) + fragments.length := by
  have hcount := h.chunks.length_eq
  rw [List.length_append, List.length_map, List.length_map, List.length_range] at hcount
  rw [List.countP_map, ← hcount, Nat.add_comm, ← List.countP_eq_length_filter]
  rfl

/-- **What the fragments have served** is what was asked for in requests that are not long. -/
theorem sum_served : (fragments.map Fragment.served).sum =
    ((slices.map Slice.length).filter (· ≤ a.size)).sum := by
  have hshort : (fragments.map Fragment.served).sum =
      ((slices.filter (isShort a.size)).map Slice.length).sum := by
    rw [h.short, List.map_flatMap, List.flatMap_def, List.sum_flatten, List.map_map]
    refine congrArg List.sum (List.map_congr_left fun f _ => ?_)
    exact (congrArg List.sum f.map_length_slices).symm
  -- the requests for nothing add nothing
  have hsum (row : List Slice) : ((row.filter (isShort a.size)).map Slice.length).sum =
      ((row.map Slice.length).filter (· ≤ a.size)).sum := by
    induction row with
    | nil => rfl
    | cons slice row ih =>
      rw [List.map_cons, List.filter_cons, List.filter_cons]
      rcases Nat.eq_zero_or_pos slice.length with hzero | hpos
      · simp [isShort, hzero, ih]
      · by_cases hsize : slice.length ≤ a.size <;> simp [isShort, hpos, hsize, ih]
  rw [hshort, hsum]

/-- Any two fragments in a row have served more than one of them holds. -/
theorem pairs : fragments.IsChain fun f g => a.size < f.served + g.served :=
  h.opened.imp fun _ _ => Fragment.Precedes.size_lt

/-- **Half of the fragments are paid for.** -/
theorem half_mul_le : fragments.length / 2 * (a.size + 1) ≤
    ((slices.map Slice.length).filter (· ≤ a.size)).sum :=
  h.sum_served ▸ Fragment.half_mul_le_sum h.pairs

end Packed

/-! ## Requests -/

/-- **A request that packs an arena** with slices of the given lengths, whether it hands them
out or holds them back. -/
def Packs (request : Request) (lengths : List Nat) : Prop :=
  ∀ {a : Arena} {s : Store} {slices : List Slice} {fragments : List Fragment},
    a.Packed slices fragments → Ends (request (a, s))
      (fun slice t => ∃ news fragments', news.map Slice.length = lengths ∧
        slice.toList.Sublist news ∧ t.1.Packed (slices ++ news) fragments')
      fun _ _ => True

/-- What goes on with a slice that was got. -/
theorem Packed.ends_get (h : a.Packed slices fragments) (s : Store) (len : Nat) (zero : Bool) :
    Ends (get len zero (a, s)) (fun slice t => slice.length = len ∧
      ∃ fragments', t.1.Packed (slices ++ [slice]) fragments') fun _ _ => True :=
  (serves_get a s len zero).mono (fun _ _ ht => ⟨ht.length_eq, h.serves ht⟩) fun _ _ _ => trivial

theorem packs_get (len : Nat) (zero : Bool) : Packs (some <$> get len zero) [len] := by
  intro a s slices fragments h
  refine (h.ends_get s len zero).map fun slice t ht => ?_
  obtain ⟨rfl, fragments', hpacked⟩ := ht
  exact ⟨[slice], fragments', rfl, List.Sublist.refl _, hpacked⟩

theorem packs_copy (row : List UInt8) : Packs (some <$> copy row) [row.length] := by
  intro a s slices fragments h
  refine Ends.map (Ends.bind (h.ends_get s row.length false) fun slice t ht => ?_)
    fun slice t ht => ht
  obtain ⟨hlen, fragments', hpacked⟩ := ht
  exact ⟨[slice], fragments', congrArg (fun len => [len]) hlen, List.Sublist.refl _,
    hpacked.of_sameFigures (sameFigures_modifyChunk _ _ _)⟩

/-- **A message that fails** while it is written holds its slice back. -/
theorem packs_encodeInArena (script : Script) (order : ByteOrder) :
    Packs ((fun encoded => encoded.result.toOption) <$> script.encodeInArena order)
      (measured script order) := by
  intro a s slices fragments h
  refine Ends.map ?_ fun encoded t ht => ht
  unfold Script.encodeInArena measured
  dsimp only
  cases (script.measure order).length with
  | error failure => exact ⟨[], fragments, rfl, List.nil_sublist _, by rwa [List.append_nil]⟩
  | ok length =>
    refine Ends.bind (h.ends_get s length false) fun slice t ht => ?_
    obtain ⟨hlen, fragments', hpacked⟩ := ht
    refine ⟨[slice], fragments', congrArg (fun len => [len]) hlen, ?_,
      hpacked.of_sameFigures (sameFigures_modifyChunk _ _ _)⟩
    cases (script.fill order (t.1.read slice 0 length)).outcome with
    | error failure => exact List.nil_sublist _
    | ok => exact List.Sublist.refl _

/-- **Requests in turn are all served**, and none of them aborts. -/
def AllServed : List Request → Arena × Store → Prop
  | [], _ => True
  | request :: requests, t =>
    match request t with
    | .ok _ u => AllServed requests u
    | .error _ _ => False

/-- **Requests in turn that are all served** leave an arena packed. -/
theorem Packed.serve {requests : List Request} {lengths : List (List Nat)}
    (h : a.Packed slices fragments) (hpacks : List.Forall₂ Packs requests lengths) {s : Store}
    (hserved : AllServed requests (a, s)) :
    ∃ news fragments', news.map Slice.length = lengths.flatten ∧
      (serve requests (a, s)).1.Sublist news ∧
      (serve requests (a, s)).2.1.Packed (slices ++ news) fragments' := by
  induction hpacks generalizing a s slices fragments with
  | nil => exact ⟨[], fragments, rfl, List.Sublist.refl _, by rwa [List.append_nil]⟩
  | @cons request first requests others hfirst _ ih =>
    have hends := hfirst h (s := s)
    unfold AllServed at hserved
    unfold Arena.serve
    cases hresult : request (a, s) with
    | error abort t =>
      rw [hresult] at hserved
      exact hserved.elim
    | ok slice t =>
      rw [hresult] at hends hserved
      obtain ⟨news, fragments', hlengths, hsub, hpacked⟩ := hends
      obtain ⟨later, fragments'', hlater, hsub', hpacked'⟩ := ih hpacked hserved
      refine ⟨news ++ later, fragments'', ?_, hsub.append hsub', ?_⟩
      · rw [List.map_append, hlengths, hlater, List.flatten_cons]
      · rw [← List.append_assoc]
        exact hpacked'

end Arena

end Wirepool
