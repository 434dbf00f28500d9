import Mathlib.Algebra.BigOperators.Ring.Finset
import Mathlib.Tactic.Ring
import Wirepool.Proofs.Wire.Running

/-!
# The rows that are numbers of variable length

A reader that goes byte by byte has three ways out, and which one it takes is a question
about the row alone. A row that is a number announces another byte with every byte but
its last one; it has ten bytes at most, and a tenth byte is 0 or 1. A row that is none
either ends while it announces, or it has a tenth byte that is too large. Nothing else can
happen: a tenth byte that announces another one is too large already, so a row of ten
bytes never ends too early.

A number may be written longer than it has to be. Therefore the number of bytes does not
follow from the value, and the two are said together.

The machine puts the groups together by shifts. A shift by too many bits would stop it,
but a shift that pushes a set bit out of the word would go unnoticed. `Checked.shiftWhole`
notices, and a reader that shifts with it reads the same.
-/

namespace Wirepool

/-- A word shifted to the left, with all bits of it that are set. -/
def Checked.shiftWhole (word : BitVec 64) (count : Nat) : Except Trap (BitVec 64) :=
  if (word <<< count) >>> count = word then shiftLeft word count else .error .overflow

namespace Varint

/-! ## What a row spells -/

/-- The byte in a place of a row, counted from zero. -/
def byteAt (row : List UInt8) (i : Nat) : Nat := (row.getD i 0).toNat

/-- **What the first `n` bytes of a row add up to**, seven bits each. -/
def spelled (row : List UInt8) (n : Nat) : Nat :=
  ∑ i ∈ Finset.range n, byteAt row i % 128 * 2 ^ (7 * i)

/-- **A number of `n` bytes stands at the front of a row.** -/
structure Numeral (row : List UInt8) (n : Nat) : Prop where
  /-- It has a byte. -/
  pos : 1 ≤ n
  /-- It has ten bytes at most. -/
  le_ten : n ≤ maxLength
  /-- It is all there. -/
  le_length : n ≤ row.length
  /-- Each byte in front of the last one announces another one. -/
  announces : ∀ i < n - 1, 128 ≤ byteAt row i
  /-- The last byte announces none. -/
  ends : byteAt row (n - 1) < 128
  /-- A tenth byte has one bit. -/
  tenth : n = maxLength → byteAt row (n - 1) ≤ 1

theorem byteAt_of_append_right (front back : List UInt8) (i : Nat) :
    byteAt (front ++ back) (front.length + i) = byteAt back i := by
  rw [byteAt, byteAt, List.getD_append_right _ _ _ _ (Nat.le_add_right _ i),
    Nat.add_sub_cancel_left]

theorem byteAt_of_lt {front : List UInt8} {i : Nat} (hi : i < front.length)
    (back : List UInt8) : byteAt (front ++ back) i = byteAt front i := by
  rw [byteAt, byteAt, List.getD_append _ _ _ _ hi]

theorem byteAt_take {row : List UInt8} {n i : Nat} (hi : i < n) :
    byteAt (row.take n) i = byteAt row i := by
  simp only [byteAt, List.getD_eq_getElem?_getD, List.getElem?_take_of_lt hi]

theorem spelled_take (row : List UInt8) (n : Nat) : spelled (row.take n) n = spelled row n :=
  Finset.sum_congr rfl fun i hi => by rw [byteAt_take (Finset.mem_range.1 hi)]

/-- The first byte is the lowest group, and all others are seven bits above it. -/
theorem spelled_cons (b : UInt8) (row : List UInt8) (n : Nat) :
    spelled (b :: row) (n + 1) = b.toNat % 128 + 128 * spelled row n := by
  rw [spelled, Finset.sum_range_succ', Nat.add_comm, spelled, Finset.mul_sum]
  refine congrArg₂ (· + ·) (Nat.mul_one _) (Finset.sum_congr rfl fun i _ => ?_)
  rw [show byteAt (b :: row) (i + 1) = byteAt row i from rfl, Nat.mul_succ, Nat.pow_add]
  ring

/-- Groups that stand behind others are above all of them. -/
theorem spelled_append (front back : List UInt8) (n : Nat) :
    spelled (front ++ back) (front.length + n) =
      spelled front front.length + 128 ^ front.length * spelled back n := by
  induction front with
  | nil => simp [spelled]
  | cons b front ih =>
    rw [List.cons_append, List.length_cons, Nat.add_right_comm, spelled_cons, spelled_cons, ih,
      Nat.pow_succ]
    ring

/-! ## The three ways out -/

/-- **Bytes that announce another one** are groups below whatever is read behind them. -/
theorem decodeFrom_announced {before : Nat} {front : List UInt8}
    (hannounced : ∀ b ∈ front, 128 ≤ b.toNat) (hroom : before + front.length < maxLength)
    (back : List UInt8) :
    decodeFrom before (front ++ back) =
      (decodeFrom (before + front.length) back).map fun found =>
        (spelled front front.length + 128 ^ front.length * found.1, found.2) := by
  induction front generalizing before with
  | nil =>
    simp only [List.nil_append, List.length_nil, Nat.add_zero, Nat.pow_zero, Nat.one_mul]
    rcases decodeFrom before back with failure | found
    · rfl
    · simp [Except.map, spelled]
  | cons b front ih =>
    have hb := hannounced b List.mem_cons_self
    rw [List.length_cons] at hroom
    have hearly : ¬(before = maxLength - 1 ∧ 1 < b.toNat) := by omega
    rw [List.cons_append, decodeFrom, if_neg hearly, if_neg (by omega),
      ih (fun c hc => hannounced c (List.mem_cons_of_mem b hc)) (by omega), List.length_cons,
      Nat.add_right_comm, Nat.add_assoc]
    rcases decodeFrom (before + (front.length + 1)) back with failure | found
    · rfl
    · simp only [Except.map, spelled_cons, Nat.pow_succ]
      refine congrArg (fun n => Except.ok (n, found.2)) ?_
      ring

/-- A row that ends while another byte is announced. -/
theorem decode_of_announced {row : List UInt8} (hannounced : ∀ b ∈ row, 128 ≤ b.toNat)
    (hshort : row.length < maxLength) : decode row = .error .truncated := by
  have hrow := decodeFrom_announced hannounced (Nat.zero_add row.length ▸ hshort) []
  rw [List.append_nil] at hrow
  rw [decode, hrow]
  rfl

/-- A tenth byte that is too large. -/
theorem decode_of_tenth {front : List UInt8} (hannounced : ∀ b ∈ front, 128 ≤ b.toNat)
    (hnine : front.length = maxLength - 1) {b : UInt8} (hb : 1 < b.toNat)
    (following : List UInt8) : decode (front ++ b :: following) = .error .overflow := by
  have hten : maxLength = 10 := rfl
  rw [decode, decodeFrom_announced hannounced (by omega), hnine, Nat.zero_add, decodeFrom,
    if_pos ⟨rfl, hb⟩]
  rfl

/-- A byte that announces none, where there is room for it. -/
theorem decode_of_last {front : List UInt8} (hannounced : ∀ b ∈ front, 128 ≤ b.toNat)
    (hroom : front.length < maxLength) {b : UInt8} (hb : b.toNat < 128)
    (htenth : front.length = maxLength - 1 → b.toNat ≤ 1) (following : List UInt8) :
    decode (front ++ b :: following) =
      .ok (spelled (front ++ b :: following) (front.length + 1), following) := by
  have hlarge : ¬(0 + front.length = maxLength - 1 ∧ 1 < b.toNat) := by
    rintro ⟨hnine, hone⟩
    exact Nat.not_lt.2 (htenth (by rw [← hnine, Nat.zero_add])) hone
  rw [decode, decodeFrom_announced hannounced (by rwa [Nat.zero_add]), decodeFrom,
    if_neg hlarge, if_pos hb, spelled_append, spelled_cons, Nat.mod_eq_of_lt hb]
  rfl

/-- The bytes of a row that announce another one, up to a number of them. -/
theorem exists_announced (room : Nat) (row : List UInt8) :
    ∃ front back, row = front ++ back ∧ (∀ b ∈ front, 128 ≤ b.toNat) ∧ front.length ≤ room ∧
      (front.length < room → ∀ b ∈ back.head?, b.toNat < 128) := by
  induction row generalizing room with
  | nil => exact ⟨[], [], rfl, by simp, Nat.zero_le _, by simp⟩
  | cons b row ih =>
    rcases room with _ | room
    · exact ⟨[], b :: row, rfl, by simp, Nat.le_refl _, fun h => absurd h (Nat.lt_irrefl 0)⟩
    rcases Nat.lt_or_ge b.toNat 128 with hb | hb
    · exact ⟨[], b :: row, rfl, by simp, Nat.zero_le _, fun _ c hc => by cases hc; exact hb⟩
    · obtain ⟨front, back, hrow, hannounced, hlength, hnext⟩ := ih room
      refine ⟨b :: front, back, by rw [hrow, List.cons_append], ?_, Nat.succ_le_succ hlength,
        fun h => hnext (Nat.lt_of_succ_lt_succ h)⟩
      exact List.forall_mem_cons.2 ⟨hb, hannounced⟩

/-- A number at the front of a row, in its parts. -/
theorem numeral_iff {row : List UInt8} {n : Nat} :
    Numeral row n ↔ ∃ front b following, row = front ++ b :: following ∧ n = front.length + 1 ∧
      (∀ c ∈ front, 128 ≤ c.toNat) ∧ front.length < maxLength ∧ b.toNat < 128 ∧
      (front.length = maxLength - 1 → b.toNat ≤ 1) := by
  have hten : maxLength = 10 := rfl
  constructor
  · intro h
    have hlast : n - 1 < row.length := by have := h.pos; have := h.le_length; omega
    have hfront : (row.take (n - 1)).length = n - 1 := List.length_take_of_le hlast.le
    have hbyte : byteAt row (n - 1) = (row[n - 1]).toNat := by
      rw [byteAt, List.getD_eq_getElem _ _ hlast]
    refine ⟨row.take (n - 1), row[n - 1], row.drop (n - 1 + 1), ?_, ?_, ?_, ?_, ?_, ?_⟩
    · rw [List.getElem_cons_drop, List.take_append_drop]
    · rw [hfront, Nat.sub_add_cancel h.pos]
    · intro c hc
      obtain ⟨i, hi, rfl⟩ := List.mem_iff_getElem.1 hc
      rw [hfront] at hi
      have hthere := h.announces i hi
      rwa [byteAt, List.getD_eq_getElem _ _ (Nat.lt_trans hi hlast), ← List.getElem_take] at hthere
    · have := h.le_ten
      have := h.pos
      omega
    · rw [← hbyte]
      exact h.ends
    · intro hnine
      rw [← hbyte]
      exact h.tenth (by omega)
  · rintro ⟨front, b, following, rfl, rfl, hannounced, hroom, hb, htenth⟩
    have hlast : byteAt (front ++ b :: following) front.length = b.toNat :=
      byteAt_of_append_right front (b :: following) 0
    refine ⟨Nat.succ_pos _, hroom, ?_, ?_, ?_, ?_⟩
    · rw [List.length_append, List.length_cons]
      omega
    · intro i hi
      rw [Nat.add_sub_cancel] at hi
      rw [byteAt_of_lt hi, byteAt, List.getD_eq_getElem _ _ hi]
      exact hannounced _ (List.getElem_mem hi)
    · rw [Nat.add_sub_cancel, hlast]
      exact hb
    · intro h
      rw [Nat.add_sub_cancel, hlast]
      exact htenth (by omega)

/-- The bytes of a row announce another one if those in its places do. -/
theorem announced_iff {row : List UInt8} :
    (∀ b ∈ row, 128 ≤ b.toNat) ↔ ∀ i < row.length, 128 ≤ byteAt row i := by
  rw [List.forall_mem_iff_getElem]
  refine forall_congr' fun i => forall_congr' fun hi => ?_
  rw [byteAt, List.getD_eq_getElem _ _ hi]

/-- **A row takes one of three ways.** It announces up to its end, or it has a tenth byte
that is too large, or it is a number. -/
theorem decode_cases (row : List UInt8) :
    ((row.length < maxLength ∧ ∀ b ∈ row, 128 ≤ b.toNat) ∧ decode row = .error .truncated) ∨
      ((∃ front b following, row = front ++ b :: following ∧ (∀ c ∈ front, 128 ≤ c.toNat) ∧
        front.length = maxLength - 1 ∧ 1 < b.toNat) ∧ decode row = .error .overflow) ∨
      ∃ n, Numeral row n ∧ decode row = .ok (spelled row n, row.drop n) := by
  have hten : maxLength = 10 := rfl
  obtain ⟨front, back, rfl, hannounced, hlength, hnext⟩ := exists_announced (maxLength - 1) row
  rcases back with _ | ⟨b, following⟩
  · rw [List.append_nil]
    have hshort : front.length < maxLength := by omega
    exact .inl ⟨⟨hshort, hannounced⟩, decode_of_announced hannounced hshort⟩
  by_cases hlarge : front.length = maxLength - 1 ∧ 1 < b.toNat
  · exact .inr (.inl ⟨⟨front, b, following, rfl, hannounced, hlarge⟩,
      decode_of_tenth hannounced hlarge.1 hlarge.2 following⟩)
  · have hroom : front.length < maxLength := by omega
    have htenth : front.length = maxLength - 1 → b.toNat ≤ 1 := by omega
    have hb : b.toNat < 128 := by
      rcases Nat.lt_or_ge front.length (maxLength - 1) with hlt | hge
      · exact hnext hlt b rfl
      · exact Nat.lt_of_le_of_lt (htenth (by omega)) (by decide)
    refine .inr (.inr ⟨front.length + 1,
      numeral_iff.2 ⟨front, b, following, rfl, rfl, hannounced, hroom, hb, htenth⟩, ?_⟩)
    rw [decode_of_last hannounced hroom hb htenth, ← List.drop_drop, List.drop_left]
    rfl

/-- **A row that has a number in front** is read as that number. -/
theorem Numeral.decode_eq {row : List UInt8} {n : Nat} (h : Numeral row n) :
    decode row = .ok (spelled row n, row.drop n) := by
  obtain ⟨front, b, following, rfl, rfl, hannounced, hroom, hb, htenth⟩ := numeral_iff.1 h
  rw [decode_of_last hannounced hroom hb htenth, ← List.drop_drop, List.drop_left]
  rfl

theorem decode_eq_ok_iff {row : List UInt8} {v : Nat} {rest : List UInt8} :
    decode row = .ok (v, rest) ↔ ∃ n, Numeral row n ∧ v = spelled row n ∧ rest = row.drop n := by
  constructor
  · intro h
    rcases decode_cases row with ⟨-, hcut⟩ | ⟨-, hlarge⟩ | ⟨n, hn, hread⟩
    · cases h.symm.trans hcut
    · cases h.symm.trans hlarge
    · cases h.symm.trans hread
      exact ⟨n, hn, rfl, rfl⟩
  · rintro ⟨n, hn, rfl, rfl⟩
    exact hn.decode_eq

theorem decode_eq_truncated_iff {row : List UInt8} :
    decode row = .error .truncated ↔ row.length ≤ 9 ∧ ∀ i < row.length, 128 ≤ byteAt row i := by
  rw [← announced_iff, ← Nat.lt_succ_iff]
  constructor
  · intro h
    rcases decode_cases row with ⟨hcut, -⟩ | ⟨-, hlarge⟩ | ⟨n, -, hread⟩
    · exact hcut
    · cases h.symm.trans hlarge
    · cases h.symm.trans hread
  · rintro ⟨hshort, hannounced⟩
    exact decode_of_announced hannounced hshort

theorem decode_eq_overflow_iff {row : List UInt8} :
    decode row = .error .overflow ↔
      (∀ i < 9, 128 ≤ byteAt row i) ∧ 9 < row.length ∧ 1 < byteAt row 9 := by
  constructor
  · intro h
    rcases decode_cases row with ⟨-, hcut⟩ | ⟨hlarge, -⟩ | ⟨n, -, hread⟩
    · cases h.symm.trans hcut
    · obtain ⟨front, b, following, rfl, hannounced, hnine, hb⟩ := hlarge
      replace hnine : front.length = 9 := hnine
      have htenth : byteAt (front ++ b :: following) 9 = b.toNat :=
        hnine ▸ byteAt_of_append_right front (b :: following) 0
      refine ⟨fun i hi => ?_, ?_, htenth.symm ▸ hb⟩
      · rw [← hnine] at hi
        rw [byteAt_of_lt hi]
        exact announced_iff.1 hannounced i hi
      · rw [List.length_append, List.length_cons, hnine]
        omega
    · cases h.symm.trans hread
  · rintro ⟨hannounced, hlength, htenth⟩
    have hnine : (row.take 9).length = 9 := List.length_take_of_le hlength.le
    have hrow : row.take 9 ++ row[9] :: row.drop (9 + 1) = row := by
      rw [List.getElem_cons_drop, List.take_append_drop]
    rw [byteAt, List.getD_eq_getElem _ _ hlength] at htenth
    rw [← hrow]
    refine decode_of_tenth (announced_iff.2 fun i hi => ?_) hnine htenth _
    rw [hnine] at hi
    rw [byteAt_take hi]
    exact hannounced i hi

/-! ## Shifts that lose nothing -/

/-- `getFrom`, with the shift that puts a group into its place left open. -/
def getFromBy (shiftBy : BitVec 64 → Nat → Except Trap (BitVec 64)) (value : BitVec 64)
    (shift index : Nat) : List UInt8 → Except Trap (Except Failure (BitVec 64 × Nat))
  | [] => .ok (.error .truncated)
  | b :: rest => do
    let next ← Checked.add wordLimit index 1
    if index = maxLength - 1 ∧ 1 < b then
      return .error .overflow
    if b < 128 then
      let group ← shiftBy (.ofNat 64 b.toNat) shift
      return .ok (value ||| group, next)
    let group ← shiftBy (.ofNat 64 (b &&& 127).toNat) shift
    getFromBy shiftBy (value ||| group) (← Checked.add (1 <<< 32) shift 7) next rest

/-- `get`, with the shift that puts a group into its place left open. -/
def getBy (shiftBy : BitVec 64 → Nat → Except Trap (BitVec 64)) (row : List UInt8) :
    Except Trap (Except Failure (BitVec 64 × Nat)) :=
  getFromBy shiftBy 0 0 0 row

theorem getFromBy_shiftLeft (value : BitVec 64) (shift index : Nat) (row : List UInt8) :
    getFromBy Checked.shiftLeft value shift index row = getFrom value shift index row := by
  induction row generalizing value shift index with
  | nil => rfl
  | cons b row ih => simp only [getFromBy, getFrom, ih]

/-- The reader is the one that shifts as words are shifted. -/
theorem getBy_shiftLeft (row : List UInt8) : getBy Checked.shiftLeft row = get row :=
  getFromBy_shiftLeft 0 0 0 row

/-- A group that has room in its place keeps its bits there. -/
theorem shiftWhole_of_lt {n index : Nat} (hword : n * 128 ^ index < 2 ^ 64) :
    Checked.shiftWhole (.ofNat 64 n) (7 * index) = Checked.shiftLeft (.ofNat 64 n) (7 * index) := by
  refine if_pos (BitVec.eq_of_toNat_eq ?_)
  have hn : n < 2 ^ 64 :=
    Nat.lt_of_le_of_lt (Nat.le_mul_of_pos_right n (Nat.pow_pos (by decide))) hword
  rw [BitVec.toNat_ushiftRight, BitVec.toNat_shiftLeft, BitVec.toNat_ofNat, Nat.mod_eq_of_lt hn,
    Nat.shiftLeft_eq, Nat.pow_mul, Nat.mod_eq_of_lt hword, Nat.shiftRight_eq_div_pow,
    Nat.pow_mul]
  exact Nat.mul_div_cancel n (Nat.pow_pos (by decide))

/-- No shift of the reader loses a bit that is set. A group has seven bits and the
tenth has one, so there is room for it above the groups that are read. -/
theorem getFromBy_shiftWhole {value : BitVec 64} {index : Nat} {row : List UInt8}
    (hindex : index < maxLength) :
    getFromBy Checked.shiftWhole value (7 * index) index row =
      getFrom value (7 * index) index row := by
  have hten : maxLength = 10 := rfl
  induction row generalizing value index with
  | nil => rfl
  | cons b row ih =>
    have hnext : Checked.add wordLimit index 1 = .ok (index + 1) :=
      if_pos (show index + 1 < 1 <<< 64 by rw [Nat.shiftLeft_eq]; omega)
    have hfurther : Checked.add (1 <<< 32) (7 * index) 7 = .ok (7 * (index + 1)) :=
      if_pos (by rw [Nat.shiftLeft_eq]; omega)
    simp only [getFrom, getFromBy, hnext, hfurther, bind, Except.bind]
    by_cases hover : index = maxLength - 1 ∧ 1 < b
    · rw [if_pos hover, if_pos hover]
    rw [if_neg hover, if_neg hover]
    by_cases hlast : b < 128
    · rw [if_pos hlast, if_pos hlast,
        shiftWhole_of_lt (place_mul_lt hindex (UInt8.lt_iff_toNat_lt.1 hlast) hover)]
    · have hearly : index < maxLength - 1 := by
        refine Nat.lt_of_le_of_ne (Nat.le_of_lt_succ hindex) fun h => hover ⟨h, ?_⟩
        exact Nat.lt_of_lt_of_le (by decide) (UInt8.not_lt.1 hlast)
      have hgroup : (b &&& 127).toNat < 128 := by
        rw [UInt8.toNat_and]
        exact Nat.lt_of_le_of_lt Nat.and_le_right (by decide)
      rw [if_neg hlast, if_neg hlast,
        shiftWhole_of_lt (place_mul_lt hindex hgroup fun h => hearly.ne h.1)]
      rcases Checked.shiftLeft _ _ with trap | group
      · rfl
      · exact ih (by omega)

/-- **No shift of the reader is too far, and none loses a bit that is set**: with shifts that
would notice, it reads every row as it does. -/
theorem getBy_shiftWhole (row : List UInt8) : getBy Checked.shiftWhole row = get row :=
  have h : getFromBy Checked.shiftWhole 0 (7 * 0) 0 row = getFrom 0 (7 * 0) 0 row :=
    getFromBy_shiftWhole (by decide)
  h

/-! ## What the reader accepts -/

/-- The machine reads a number that stands at the front of a row. -/
theorem Numeral.get_eq {row : List UInt8} {n : Nat} (h : Numeral row n) :
    get row = .ok (.ok (.ofNat 64 (spelled row n), n)) := by
  rw [Varint.get_eq, h.decode_eq]
  simp only [Except.map, List.length_drop, Nat.sub_sub_self h.le_length]

/-- A number of ten groups is a word, since the tenth has one bit. -/
theorem Numeral.spelled_lt {row : List UInt8} {n : Nat} (h : Numeral row n) :
    spelled row n < 2 ^ 64 := by
  obtain ⟨-, -, hword, -⟩ := exists_of_decode h.decode_eq
  simpa [wordLimit] using hword

/-- Only its own bytes make a row a number. -/
theorem Numeral.of_take_eq {row other : List UInt8} {n : Nat} (h : Numeral row n)
    (hother : other.take n = row.take n) : Numeral other n := by
  have hbyte (i : Nat) (hi : i < n) : byteAt other i = byteAt row i := by
    rw [← byteAt_take hi, hother, byteAt_take hi]
  have hlast : n - 1 < n := Nat.sub_lt h.pos Nat.one_pos
  have hlength := congrArg List.length hother
  rw [List.length_take, List.length_take_of_le h.le_length] at hlength
  refine ⟨h.pos, h.le_ten, by omega, fun i hi => ?_, ?_, fun hten => ?_⟩
  · rw [hbyte i (by omega)]
    exact h.announces i hi
  · rw [hbyte _ hlast]
    exact h.ends
  · rw [hbyte _ hlast]
    exact h.tenth hten

theorem get_eq_error_iff {row : List UInt8} {failure : Failure} :
    get row = .ok (.error failure) ↔ decode row = .error failure := by
  rw [get_eq]
  rcases decode row with other | found
  · simp [Except.map]
  · simp [Except.map]

/-- **The rows that are read, and as what.** A row is read as a number of `n` bytes exactly
if its first `n` bytes are one, by the machine and by its model, and it is the number that
they spell, whatever stands behind them. The two refusals are told apart by the number of
bytes that announce another one. No shift is too far and no set bit is lost in one. -/
theorem get_iff_numeral (row : List UInt8) :
    (∀ v n, get row = .ok (.ok (v, n)) ↔ Numeral row n ∧ v.toNat = spelled row n) ∧
      (∀ n, Numeral row n → spelled row n < 2 ^ 64 ∧
        ∀ other, other.take n = row.take n → get other = get row) ∧
      (get row = .ok (.error .truncated) ↔
        row.length ≤ 9 ∧ ∀ i < row.length, 128 ≤ byteAt row i) ∧
      (get row = .ok (.error .overflow) ↔
        (∀ i < 9, 128 ≤ byteAt row i) ∧ 9 < row.length ∧ 1 < byteAt row 9) ∧
      (∀ v rest, decode row = .ok (v, rest) ↔
        ∃ n, Numeral row n ∧ v = spelled row n ∧ rest = row.drop n) ∧
      (∀ failure, decode row = .error failure ↔ get row = .ok (.error failure)) ∧
      ∃ outcome, get row = .ok outcome ∧ getBy Checked.shiftLeft row = .ok outcome ∧
        getBy Checked.shiftWhole row = .ok outcome := by
  refine ⟨fun v n => ⟨fun h => ?_, ?_⟩, fun n hn => ⟨hn.spelled_lt, fun other hother => ?_⟩,
    get_eq_error_iff.trans decode_eq_truncated_iff, get_eq_error_iff.trans decode_eq_overflow_iff,
    fun v rest => decode_eq_ok_iff, fun failure => get_eq_error_iff.symm, ?_⟩
  · rcases decode_cases row with ⟨-, hcut⟩ | ⟨-, hlarge⟩ | ⟨m, hm, -⟩
    · cases h.symm.trans (get_eq_error_iff.2 hcut)
    · cases h.symm.trans (get_eq_error_iff.2 hlarge)
    · cases h.symm.trans hm.get_eq
      exact ⟨hm, Nat.mod_eq_of_lt hm.spelled_lt⟩
  · rintro ⟨hn, hv⟩
    rw [hn.get_eq, ← hv, BitVec.ofNat_toNat, BitVec.setWidth_eq]
  · rw [(hn.of_take_eq hother).get_eq, hn.get_eq, ← spelled_take other, hother, spelled_take]
  · exact ⟨_, get_eq row, (getBy_shiftLeft row).trans (get_eq row),
      (getBy_shiftWhole row).trans (get_eq row)⟩

/-- Two bytes in front of a third one, which makes no difference. -/
theorem get_iff_numeral_two :
    get [0x80, 0x04, 0xff] = .ok (.ok (512, 2)) ∧ get [0x80, 0x04] = get [0x80, 0x04, 0xff] := by
  have htwo : Numeral [0x80, 0x04, 0xff] 2 :=
    ⟨by decide, by decide, by decide, by decide, by decide, by decide⟩
  obtain ⟨haccepts, hfront, -⟩ := get_iff_numeral [0x80, 0x04, 0xff]
  exact ⟨(haccepts 512 2).2 ⟨htwo, by decide⟩, (hfront 2 htwo).2 [0x80, 0x04] rfl⟩

end Varint

end Wirepool
