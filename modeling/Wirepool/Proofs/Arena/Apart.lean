import Wirepool.Proofs.Arena.Tidy

/-!
# Slices are apart

An arena gives no slice back, so all that keeps its slices apart is how they are cut:
from a fragment front to back, and in a chunk of its own where a slice is longer than
that. Its state says little of this. It knows how much is left of the current fragment,
but not what became of the rest. So the invariant is about an arena together with the
slices it has handed out: they lie in its chunks, no two of them have a byte in common,
and those in the current fragment lie in front of what is left.

Whatever an arena does later on keeps the bytes of these slices.
-/

namespace Wirepool

namespace Slice

/-- Whether a byte of a chunk is in a slice. -/
def Covers (slice : Slice) (chunk i : Nat) : Prop :=
  slice.chunk = chunk ∧ slice.offset ≤ i ∧ i < slice.offset + slice.length

/-- **Two slices have no byte in common.** -/
def Apart (one other : Slice) : Prop :=
  ∀ chunk i, one.Covers chunk i → ¬other.Covers chunk i

theorem Apart.symm {one other : Slice} (h : one.Apart other) : other.Apart one :=
  fun chunk i hother hone => h chunk i hone hother

/-- Nothing is in a slice of no length. -/
theorem not_covers_of_length_eq_zero {slice : Slice} (h : slice.length = 0) (chunk i : Nat) :
    ¬slice.Covers chunk i := by
  rintro ⟨-, hle, hlt⟩
  omega

end Slice

/-- Memory with the same terms is seen as far. -/
theorem Loan.length_view_of_terms_eq {one other : Loan} (h : one.terms = other.terms) :
    one.view.length = other.view.length := by
  rw [length_view, length_view, ← len_terms, ← capacity_terms, h, len_terms, capacity_terms]

namespace Arena

variable {a b c : Arena} {slices : List Slice}

/-- **The bytes of a slice.** -/
def bytes (a : Arena) (slice : Slice) : List UInt8 := a.read slice 0 slice.length

/-! ## Writing through slices -/

section Bytes

variable {slice other : Slice} {chunk : Loan}

/-- The bytes of a slice are those of its chunk. -/
theorem getElem?_bytes (h : a.chunks[slice.chunk]? = some chunk) (i : Nat) :
    (a.bytes slice)[i]? = if i < slice.length then chunk.view[slice.offset + i]? else none := by
  rw [bytes, read, h]
  dsimp only
  rw [Loan.read_eq_view, Nat.add_zero, Nat.sub_zero, Nat.min_self, List.getElem?_take,
    List.getElem?_drop]

/-- In a chunk of zeros there are zeros. -/
theorem bytes_eq_zeros (h : a.chunks[slice.chunk]? = some chunk)
    (hlength : (a.bytes slice).length = slice.length) (hzero : ∀ byte ∈ chunk.view, byte = 0) :
    a.bytes slice = List.replicate slice.length 0 := by
  refine List.eq_replicate_iff.mpr ⟨hlength, fun byte hbyte => ?_⟩
  obtain ⟨i, hi⟩ := List.getElem?_of_mem hbyte
  rw [getElem?_bytes h] at hi
  split at hi
  · exact hzero byte (List.mem_of_getElem? hi)
  · cases hi

/-- A slice of a chunk that is not there has no bytes. -/
theorem bytes_of_none (h : a.chunks[slice.chunk]? = none) : a.bytes slice = [] := by
  rw [bytes, read, h]

/-- A chunk when a slice is written to. -/
theorem getElem?_chunks_modifyChunk (a : Arena) (written : Slice) (f : Loan → Loan) {i : Nat}
    (h : a.chunks[i]? = some chunk) :
    (a.modifyChunk written f).chunks[i]? =
      some (if written.chunk = i then f chunk else chunk) := by
  refine (List.getElem?_modify f written.chunk a.chunks i).trans ?_
  rw [h]
  rfl

/-- No chunk is added when a slice is written to. -/
theorem getElem?_chunks_modifyChunk_of_none (a : Arena) (written : Slice) (f : Loan → Loan)
    {i : Nat} (h : a.chunks[i]? = none) : (a.modifyChunk written f).chunks[i]? = none := by
  refine (List.getElem?_modify f written.chunk a.chunks i).trans ?_
  rw [h]
  rfl

/-- **A write that stays in one slice** is not seen in a slice apart from it. -/
theorem bytes_modifyChunk_of_apart (h : other.Apart slice) {f : Loan → Loan}
    (hf : ∀ (loan : Loan) i, ¬(other.offset ≤ i ∧ i < other.offset + other.length) →
      (f loan).view[i]? = loan.view[i]?) :
    (a.modifyChunk other f).bytes slice = a.bytes slice := by
  cases hchunk : a.chunks[slice.chunk]? with
  | none =>
    rw [bytes_of_none (a.getElem?_chunks_modifyChunk_of_none other f hchunk), bytes_of_none hchunk]
  | some chunk =>
    apply List.ext_getElem?
    intro i
    rw [getElem?_bytes (a.getElem?_chunks_modifyChunk other f hchunk), getElem?_bytes hchunk]
    by_cases hi : i < slice.length
    · rw [if_pos hi, if_pos hi]
      split
      · next hsame =>
        refine hf chunk _ fun hin => ?_
        exact h slice.chunk (slice.offset + i) ⟨hsame, hin⟩ ⟨rfl, by omega, by omega⟩
      · rfl
    · rw [if_neg hi, if_neg hi]

/-- **Writing to a slice** is not seen in a slice apart from it. -/
theorem bytes_write_of_apart (h : other.Apart slice) (a : Arena) (row : List UInt8) :
    (a.write other row).bytes slice = a.bytes slice := by
  refine bytes_modifyChunk_of_apart h fun loan i hout => ?_
  have hle : (row.take other.length).length ≤ other.length := List.length_take_le _ _
  rw [Loan.getElem?_view_write, if_neg (by omega)]

/-- Filling a slice is writing one value over and over. -/
theorem bytes_fill (a : Arena) (slice other : Slice) (value : UInt8) :
    (a.fill slice value).bytes other =
      (a.write slice (List.replicate slice.length value)).bytes other := by
  rw [fill, write, List.take_of_length_le (by rw [List.length_replicate])]
  cases hchunk : a.chunks[other.chunk]? with
  | none =>
    rw [bytes_of_none (a.getElem?_chunks_modifyChunk_of_none slice _ hchunk),
      bytes_of_none (a.getElem?_chunks_modifyChunk_of_none slice _ hchunk)]
  | some chunk =>
    apply List.ext_getElem?
    intro i
    rw [getElem?_bytes (a.getElem?_chunks_modifyChunk slice _ hchunk),
      getElem?_bytes (a.getElem?_chunks_modifyChunk slice _ hchunk)]
    by_cases hsame : slice.chunk = other.chunk
    · rw [if_pos hsame, if_pos hsame, Loan.view_fill]
    · rw [if_neg hsame, if_neg hsame]

/-- **Filling a slice** is not seen in a slice apart from it. -/
theorem bytes_fill_of_apart (h : other.Apart slice) (a : Arena) (value : UInt8) :
    (a.fill other value).bytes slice = a.bytes slice := by
  rw [bytes_fill, bytes_write_of_apart h]

/-- **A slice that is filled** holds one value. -/
theorem bytes_fill_self (h : (a.bytes slice).length = slice.length) (value : UInt8) :
    (a.fill slice value).bytes slice = List.replicate slice.length value := by
  rw [bytes_fill]
  exact read_write_slice (by rw [List.length_replicate]; exact h.symm)

end Bytes

/-! ## The invariant -/

/-- **How the slices of an arena are laid out.** -/
structure Laid (a : Arena) (slices : List Slice) : Prop extends a.Tidy where
  /-- Each lies in a chunk, unless it has no length. -/
  inside : ∀ slice ∈ slices, 0 < slice.length → ∃ chunk, a.chunks[slice.chunk]? = some chunk ∧
    slice.offset + slice.length ≤ chunk.view.length
  /-- No two of them have a byte in common. -/
  apart : slices.Pairwise Slice.Apart
  /-- In the current fragment they lie in front of what is left. -/
  behind : ∀ slice ∈ slices, 0 < slice.length → 0 < a.left → slice.chunk = a.current →
    slice.offset + slice.length ≤ a.size - a.left

/-- A tidy arena of which nothing is handed out. -/
theorem Tidy.laid_nil (h : a.Tidy) : a.Laid [] := ⟨h, nofun, .nil, nofun⟩

/-- **The pages of an arena are of its pool.** -/
def AtHome (a : Arena) : Prop :=
  ∀ chunk ∈ a.chunks, ∀ home ∈ chunk.terms.lease.map Prod.fst, home = a.home

/-- What page a chunk is does not depend on what is in it. -/
theorem AtHome.of_terms_eq (h : a.AtHome)
    (hterms : b.chunks.map Loan.terms = a.chunks.map Loan.terms) (hhome : b.home = a.home) :
    b.AtHome := by
  intro chunk hmem
  rw [hhome]
  exact Loan.OfPool.of_terms_eq h hterms chunk hmem

/-- **An arena later on keeps slices**: they have the bytes they had, the memory they lie
in is the same, and if there is more of it, that is of the same pool. -/
structure Keeps (a : Arena) (slices : List Slice) (b : Arena) : Prop where
  terms : a.chunks.map Loan.terms <+: b.chunks.map Loan.terms
  bytes : ∀ slice ∈ slices, b.bytes slice = a.bytes slice
  home : a.AtHome → b.AtHome

theorem Keeps.refl (a : Arena) (slices : List Slice) : a.Keeps slices a :=
  ⟨List.prefix_rfl, fun _ _ => rfl, id⟩

theorem Keeps.trans (h : a.Keeps slices b) (h' : b.Keeps slices c) : a.Keeps slices c :=
  ⟨h.terms.trans h'.terms, fun slice hslice =>
    (h'.bytes slice hslice).trans (h.bytes slice hslice), fun hhome => h'.home (h.home hhome)⟩

/-- What is kept of many slices is kept of some of them. -/
theorem Keeps.mono {fewer : List Slice} (h : a.Keeps slices b) (hfewer : fewer ⊆ slices) :
    a.Keeps fewer b :=
  ⟨h.terms, fun slice hslice => h.bytes slice (hfewer hslice), h.home⟩

/-- **Writing through a slice** keeps the slices that are apart from it. -/
theorem keeps_modifyChunk (slice : Slice) {f : Loan → Loan}
    (hf : ∀ loan, (f loan).terms = loan.terms)
    (hbytes : ∀ other ∈ slices, (a.modifyChunk slice f).bytes other = a.bytes other) :
    a.Keeps slices (a.modifyChunk slice f) :=
  ⟨terms_modifyChunk a slice hf ▸ List.prefix_rfl, hbytes,
    fun hhome => hhome.of_terms_eq (terms_modifyChunk a slice hf) rfl⟩

namespace Laid

variable {slice : Slice} {chunk : Loan}

/-- A slice that has a byte is of a chunk that is held. -/
theorem chunk_lt (h : a.Laid slices) (hslice : slice ∈ slices) {position i : Nat}
    (hcovers : slice.Covers position i) : position < a.chunks.length := by
  obtain ⟨rfl, hle, hlt⟩ := hcovers
  obtain ⟨chunk, hchunk, -⟩ := h.inside slice hslice (by omega)
  exact (List.getElem?_eq_some_iff.mp hchunk).1

/-- The current fragment is held, as long as anything is left of it. -/
theorem current_lt (h : a.Laid slices) (hleft : 0 < a.left) : a.current < a.chunks.length := by
  obtain ⟨chunk, hchunk, -⟩ := h.current hleft
  exact (List.getElem?_eq_some_iff.mp hchunk).1

/-- **A slice is seen as long as it is.** -/
theorem length_bytes (h : a.Laid slices) (hslice : slice ∈ slices) :
    (a.bytes slice).length = slice.length := by
  rcases Nat.eq_zero_or_pos slice.length with hzero | hpos
  · rw [bytes, hzero]
    exact length_read_zero a slice
  · obtain ⟨chunk, hchunk, hfit⟩ := h.inside slice hslice hpos
    rw [bytes, length_read hchunk]
    omega

/-- Some of the slices are laid out as all of them are. -/
theorem mono {fewer : List Slice} (h : a.Laid slices) (hfewer : fewer.Sublist slices) :
    a.Laid fewer :=
  ⟨h.toTidy, fun slice hslice => h.inside slice (hfewer.subset hslice), h.apart.sublist hfewer,
    fun slice hslice => h.behind slice (hfewer.subset hslice)⟩

/-- **Whatever leaves the terms of the chunks** and what is left of the fragment leaves
the slices where they are. -/
theorem of_terms_eq (h : a.Laid slices)
    (hterms : b.chunks.map Loan.terms = a.chunks.map Loan.terms) (hsize : b.size = a.size)
    (hcurrent : b.current = a.current) (hleft : b.left = a.left) : b.Laid slices := by
  have hchunk {i : Nat} {chunk : Loan} (hi : a.chunks[i]? = some chunk) :
      ∃ other, b.chunks[i]? = some other ∧ other.view.length = chunk.view.length := by
    have hmap : b.chunks[i]?.map Loan.terms = a.chunks[i]?.map Loan.terms := by
      rw [← List.getElem?_map, ← List.getElem?_map, hterms]
    rw [hi, Option.map_some] at hmap
    obtain ⟨other, hother, hsame⟩ := Option.map_eq_some_iff.mp hmap
    exact ⟨other, hother, Loan.length_view_of_terms_eq hsame⟩
  refine ⟨⟨by rw [hleft, hsize]; exact h.left_le, fun hpos => ?_⟩, fun slice hslice hpos => ?_,
    h.apart, fun slice hslice hpos hsome hsame => ?_⟩
  · obtain ⟨chunk, hi, hlength⟩ := h.current (hleft ▸ hpos)
    obtain ⟨other, hother, hsame⟩ := hchunk hi
    exact ⟨other, hcurrent ▸ hother, by rw [hsame, hlength, hsize]⟩
  · obtain ⟨chunk, hi, hfit⟩ := h.inside slice hslice hpos
    obtain ⟨other, hother, hsame⟩ := hchunk hi
    exact ⟨other, hother, by rw [hsame]; exact hfit⟩
  · rw [hsize, hleft]
    exact h.behind slice hslice hpos (hleft ▸ hsome) (hsame.trans hcurrent)

/-- A slice of no length is apart from all others. -/
theorem concat_nothing (h : a.Laid slices) : a.Laid (slices ++ [⟨0, 0, 0⟩]) := by
  refine ⟨h.toTidy, fun slice hslice hpos => ?_, List.pairwise_append.mpr
    ⟨h.apart, List.pairwise_singleton _ _, ?_⟩, fun slice hslice hpos => ?_⟩
  · rcases List.mem_append.mp hslice with hslice | hslice
    · exact h.inside slice hslice hpos
    · cases List.mem_singleton.mp hslice
      exact absurd hpos (Nat.lt_irrefl 0)
  · intro one _ other hother chunk i _
    cases List.mem_singleton.mp hother
    exact Slice.not_covers_of_length_eq_zero rfl chunk i
  · rcases List.mem_append.mp hslice with hslice | hslice
    · exact h.behind slice hslice hpos
    · cases List.mem_singleton.mp hslice
      exact absurd hpos (Nat.lt_irrefl 0)

/-- **Another chunk** leaves the slices where they are. -/
theorem addChunk (h : a.Laid slices) (chunk : Loan) : (a.addChunk chunk).Laid slices := by
  refine ⟨h.toTidy.addChunk chunk, fun slice hslice hpos => ?_, h.apart, h.behind⟩
  obtain ⟨held, hheld, hfit⟩ := h.inside slice hslice hpos
  have hlt := (List.getElem?_eq_some_iff.mp hheld).1
  exact ⟨held, (List.getElem?_append_left hlt).trans hheld, hfit⟩

/-- **A slice in a chunk of its own** is apart from all others. -/
theorem concat_dedicated (h : a.Laid slices) (chunk : Loan) : (a.addChunk chunk).Laid
    (slices ++ [⟨a.chunks.length, 0, chunk.view.length⟩]) := by
  have hadded := h.addChunk chunk
  refine ⟨hadded.toTidy, fun slice hslice hpos => ?_, List.pairwise_append.mpr
    ⟨h.apart, List.pairwise_singleton _ _, ?_⟩, fun slice hslice hpos hleft hcurrent => ?_⟩
  · rcases List.mem_append.mp hslice with hslice | hslice
    · exact hadded.inside slice hslice hpos
    · cases List.mem_singleton.mp hslice
      exact ⟨chunk, List.getElem?_concat_length, Nat.le_of_eq (Nat.zero_add _)⟩
  · intro one hone other hother position i hcovers hcovers'
    cases List.mem_singleton.mp hother
    exact Nat.ne_of_lt (h.chunk_lt hone hcovers) hcovers'.1.symm
  · rcases List.mem_append.mp hslice with hslice | hslice
    · exact h.behind slice hslice hpos hleft hcurrent
    · cases List.mem_singleton.mp hslice
      exact absurd hcurrent (Nat.ne_of_gt (h.current_lt hleft))

/-- **The next fragment** has no slices yet. -/
theorem openFragment (h : a.Laid slices) (hsize : chunk.view.length = a.size) :
    (a.openFragment chunk).Laid slices := by
  refine ⟨tidy_openFragment hsize, (h.addChunk chunk).inside, h.apart,
    fun slice hslice hpos _ hcurrent => ?_⟩
  have hlt := h.chunk_lt hslice ⟨rfl, Nat.le_refl _, Nat.lt_add_of_pos_right hpos⟩
  exact absurd hcurrent (Nat.ne_of_lt hlt)

/-- **A slice that is cut off the current fragment** lies behind those that were cut off
it before. -/
theorem concat_cut (h : a.Laid slices) {len : Nat} (hlen : len ≤ a.left) :
    (a.cut len).2.Laid (slices ++ [(a.cut len).1]) := by
  have hle := h.left_le
  refine ⟨h.toTidy.cut hlen, fun slice hslice hpos => ?_, List.pairwise_append.mpr
    ⟨h.apart, List.pairwise_singleton _ _, ?_⟩, fun slice hslice hpos hleft hcurrent => ?_⟩
  · rcases List.mem_append.mp hslice with hslice | hslice
    · exact h.inside slice hslice hpos
    · cases List.mem_singleton.mp hslice
      obtain ⟨chunk, hchunk, hlength⟩ := h.current (Nat.lt_of_lt_of_le hpos hlen)
      refine ⟨chunk, hchunk, ?_⟩
      show a.size - a.left + len ≤ _
      omega
  · intro one hone other hother position i hcovers hcovers'
    cases List.mem_singleton.mp hother
    obtain ⟨hsame, hfrom, hto⟩ := hcovers
    obtain ⟨hcurrent, hfrom', hto'⟩ := hcovers'
    change a.size - a.left ≤ i at hfrom'
    change i < a.size - a.left + len at hto'
    have hbehind := h.behind one hone (by omega) (by omega) (hsame.trans hcurrent.symm)
    omega
  · change 0 < a.left - len at hleft
    show slice.offset + slice.length ≤ a.size - (a.left - len)
    rcases List.mem_append.mp hslice with hslice | hslice
    · have hbehind := h.behind slice hslice hpos (by omega) hcurrent
      omega
    · cases List.mem_singleton.mp hslice
      show a.size - a.left + len ≤ _
      omega

/-- **Writing through a slice** leaves the slices where they are. -/
theorem modifyChunk (h : a.Laid slices) (slice : Slice) {f : Loan → Loan}
    (hf : ∀ loan, (f loan).terms = loan.terms) : (a.modifyChunk slice f).Laid slices :=
  h.of_terms_eq (terms_modifyChunk a slice hf) rfl rfl rfl

theorem write (h : a.Laid slices) (slice : Slice) (row : List UInt8) :
    (a.write slice row).Laid slices := h.modifyChunk slice fun loan => loan.terms_write _ _

theorem fill (h : a.Laid slices) (slice : Slice) (value : UInt8) :
    (a.fill slice value).Laid slices := h.modifyChunk slice fun loan => loan.terms_fill _ _ _

/-- **Two different slices** have no byte in common. -/
theorem apart_of_ne (h : a.Laid slices) {one other : Slice} (hone : one ∈ slices)
    (hother : other ∈ slices) (hne : one ≠ other) : one.Apart other := by
  have : Std.Symm Slice.Apart := ⟨fun _ _ hapart => hapart.symm⟩
  exact h.apart.forall hone hother hne

/-- Slices are apart from the last one. -/
theorem apart_last (h : a.Laid (slices ++ [slice])) {other : Slice} (hother : other ∈ slices) :
    slice.Apart other :=
  ((List.pairwise_append.mp h.apart).2.2 other hother slice (List.mem_singleton_self slice)).symm

/-- **Writing to the last slice** keeps the others. -/
theorem keeps_write (h : a.Laid (slices ++ [slice])) (row : List UInt8) :
    a.Keeps slices (a.write slice row) :=
  keeps_modifyChunk slice (fun loan => loan.terms_write _ _) fun _ hother =>
    bytes_write_of_apart (h.apart_last hother) a row

/-- So does filling it. -/
theorem keeps_fill (h : a.Laid (slices ++ [slice])) (value : UInt8) :
    a.Keeps slices (a.fill slice value) :=
  keeps_modifyChunk slice (fun loan => loan.terms_fill _ _ _) fun _ hother =>
    bytes_fill_of_apart (h.apart_last hother) a value

/-- Another chunk of the same pool keeps all slices. -/
theorem keeps_addChunk (h : a.Laid slices) (hhome : ∀ home ∈ chunk.terms.lease.map Prod.fst,
    home = a.home) : a.Keeps slices (a.addChunk chunk) := by
  refine ⟨?_, fun slice hslice => ?_, fun hall other hother => ?_⟩
  · show _ <+: (a.chunks ++ [chunk]).map Loan.terms
    rw [List.map_append]
    exact List.prefix_append _ _
  · rcases Nat.eq_zero_or_pos slice.length with hzero | hpos
    · rw [bytes, bytes, hzero, List.eq_nil_of_length_eq_zero (length_read_zero _ slice),
        List.eq_nil_of_length_eq_zero (length_read_zero a slice)]
    · obtain ⟨held, hheld, -⟩ := h.inside slice hslice hpos
      have hlt := (List.getElem?_eq_some_iff.mp hheld).1
      have hadded : (a.addChunk chunk).chunks[slice.chunk]? = a.chunks[slice.chunk]? :=
        List.getElem?_append_left hlt
      rw [bytes, read, hadded, bytes, read]
  · rcases List.mem_append.mp hother with hother | hother
    · exact hall other hother
    · cases List.mem_singleton.mp hother
      exact hhome

/-- So does the next fragment. -/
theorem keeps_openFragment (h : a.Laid slices) (hhome : ∀ home ∈ chunk.terms.lease.map Prod.fst,
    home = a.home) : a.Keeps slices (a.openFragment chunk) :=
  ⟨(h.keeps_addChunk hhome).terms, (h.keeps_addChunk hhome).bytes, (h.keeps_addChunk hhome).home⟩

end Laid

/-- Writing to a slice keeps an arena tidy. -/
theorem Tidy.write (h : a.Tidy) (slice : Slice) (row : List UInt8) : (a.write slice row).Tidy :=
  (h.laid_nil.write slice row).toTidy

end Arena

end Wirepool
