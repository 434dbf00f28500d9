import Mathlib.Order.Bounds.Basic
import Wirepool.Proofs.Wire.Running

/-!
# A row is split at the occurrences of a delimiter

A delimiter may overlap itself. `aa` occurs twice in `aaa`, and a reader that takes the
payload in front of the first occurrence goes past a part of the second one. So which
occurrences end a payload cannot be seen from the row alone: an occurrence counts if none
that counts reaches into it, and the leftmost of those behind the last one is the next.

`Delimiter.Splits` says this of all pieces at once, with their places in the whole row. A
reader sees its own unread bytes only and knows of no place in front of them; the two views
are tied by `splits_cons_iff`, which shifts the places by the payload and its delimiter. The
row of reads then follows the pieces one by one, and stands still when they are used up.
-/

namespace Wirepool

namespace Delimiter

variable {d row payload following unread : List UInt8} {pieces : List (List UInt8)}

/-! ## One cut -/

/-- **A row is cut at the first occurrence of the delimiter.** -/
structure Cuts (d row payload following : List UInt8) : Prop where
  /-- The delimiter stands between the two parts. -/
  joined : payload ++ d ++ following = row
  /-- It occurs nowhere in front of that, not even with a part of it in the payload. -/
  first : ∀ i < payload.length, ¬d <+: row.drop i

theorem Cuts.ends (h : Cuts d row payload following) : Ends d payload := fun i hi hthere =>
  h.first i hi (h.joined ▸ (prefix_drop_append_iff hi.le following).2 hthere)

/-- What follows the first occurrence is shorter than the row. -/
theorem Cuts.length_lt (h : Cuts d row payload following) (hd : d ≠ []) :
    following.length < row.length := by
  have hpos := List.length_pos_iff.2 hd
  rw [← h.joined, List.length_append, List.length_append]
  omega

/-- **Where a delimiter occurs at all**, it occurs first somewhere. -/
theorem exists_cuts (h : d <:+: row) : ∃ payload following, Cuts d row payload following := by
  obtain ⟨front, back, rfl⟩ := h
  obtain ⟨p, -, hfound⟩ := exists_find?_append d front back
  obtain ⟨hp, ⟨following, hthere⟩, hfirst⟩ := (find?_eq_some_iff _ _ _).1 hfound
  refine ⟨(front ++ d ++ back).take p, following, ?_, fun i hi => hfirst i ?_⟩
  · rw [List.append_assoc, hthere, List.take_append_drop]
  · exact Nat.lt_of_lt_of_le hi (List.length_take_le _ _)

/-- A delimiter that does not occur is not found. -/
theorem find?_eq_none (h : ¬d <:+: row) : find? d row = none := by
  rw [Option.eq_none_iff_forall_ne_some]
  intro p hfound
  obtain ⟨-, hthere, -⟩ := (find?_eq_some_iff _ _ _).1 hfound
  exact h (hthere.isInfix.trans (List.drop_suffix p row).isInfix)

/-! ## All cuts -/

/-- The pieces, each with the delimiter behind it. -/
def closed (d : List UInt8) (pieces : List (List UInt8)) : List UInt8 :=
  pieces.flatMap (· ++ d)

@[simp] theorem closed_nil (d : List UInt8) : closed d [] = [] := rfl

@[simp] theorem closed_cons (d piece : List UInt8) (pieces : List (List UInt8)) :
    closed d (piece :: pieces) = piece ++ d ++ closed d pieces := List.flatMap_cons

theorem length_closed_cons (d piece : List UInt8) (pieces : List (List UInt8)) :
    (closed d (piece :: pieces)).length = (piece ++ d).length + (closed d pieces).length := by
  rw [closed_cons, List.length_append]

/-- **A row is split into pieces.** -/
structure Splits (d row : List UInt8) (pieces : List (List UInt8)) (unread : List UInt8) :
    Prop where
  /-- The pieces, with the delimiter behind each, and what is unread are the row. -/
  joined : closed d pieces ++ unread = row
  /-- A piece ends at the leftmost occurrence in the row that does not start in front of the
  piece, that is, that does not start in front of the end of the last one. -/
  leftmost : ∀ front piece back, pieces = front ++ piece :: back →
    IsLeast {i | (closed d front).length ≤ i ∧ d <+: row.drop i}
      ((closed d front).length + piece.length)
  /-- There is no occurrence in what is unread. -/
  unsplit : ¬d <:+: unread

/-- The leftmost occurrence is where it is, whether the places are counted from the start of
a row or from behind a front part of it. -/
theorem isLeast_append_iff (front following d : List UInt8) (behind place : Nat) :
    IsLeast {i | front.length + behind ≤ i ∧ d <+: (front ++ following).drop i}
        (front.length + place) ↔
      IsLeast {i | behind ≤ i ∧ d <+: following.drop i} place := by
  have hdrop (i : Nat) : (front ++ following).drop (front.length + i) = following.drop i := by
    rw [← List.drop_drop, List.drop_left]
  constructor
  · rintro ⟨⟨hbehind, hthere⟩, hleast⟩
    refine ⟨⟨Nat.le_of_add_le_add_left hbehind, hdrop place ▸ hthere⟩, fun i hi => ?_⟩
    have hle := hleast ⟨Nat.add_le_add_left hi.1 front.length, (hdrop i).symm ▸ hi.2⟩
    exact Nat.le_of_add_le_add_left hle
  · rintro ⟨⟨hbehind, hthere⟩, hleast⟩
    refine ⟨⟨Nat.add_le_add_left hbehind _, (hdrop place).symm ▸ hthere⟩, ?_⟩
    rintro i ⟨hi, hother⟩
    obtain ⟨j, rfl⟩ := Nat.exists_eq_add_of_le (Nat.le_of_add_right_le hi)
    rw [hdrop] at hother
    exact Nat.add_le_add_left (hleast ⟨Nat.le_of_add_le_add_left hi, hother⟩) _

theorem splits_nil (h : ¬d <:+: row) : Splits d row [] row :=
  ⟨rfl, fun front piece back hpieces => by simp at hpieces, h⟩

/-- **The first piece is cut off, and what follows is split.** -/
theorem splits_cons_iff :
    Splits d row (payload :: pieces) unread ↔
      ∃ following, Cuts d row payload following ∧ Splits d following pieces unread := by
  constructor
  · intro h
    have hrow : payload ++ d ++ (closed d pieces ++ unread) = row := by
      rw [← List.append_assoc, ← closed_cons, h.joined]
    refine ⟨closed d pieces ++ unread, ⟨hrow, fun i hi hthere => ?_⟩, rfl, ?_, h.unsplit⟩
    · obtain ⟨-, hleast⟩ := h.leftmost [] payload pieces rfl
      have hle := hleast ⟨Nat.zero_le i, hthere⟩
      rw [closed_nil, List.length_nil, Nat.zero_add] at hle
      omega
    · rintro front piece back rfl
      have hleast := h.leftmost (payload :: front) piece back rfl
      rw [length_closed_cons, Nat.add_assoc, ← hrow] at hleast
      exact (isLeast_append_iff _ _ _ _ _).1 hleast
  · rintro ⟨following, hcuts, h⟩
    have hrow := hcuts.joined
    refine ⟨?_, ?_, h.unsplit⟩
    · rw [closed_cons, List.append_assoc, h.joined, hrow]
    · rintro (_ | ⟨first, front⟩) piece back hpieces
      · cases hpieces
        rw [closed_nil, List.length_nil, Nat.zero_add]
        refine ⟨⟨Nat.zero_le _, hrow ▸ prefix_drop_length d payload following⟩, ?_⟩
        rintro i ⟨-, hthere⟩
        exact Nat.le_of_not_lt fun hi => hcuts.first i hi hthere
      · cases hpieces
        rw [length_closed_cons, Nat.add_assoc, ← hrow]
        exact (isLeast_append_iff _ _ _ _ _).2 (h.leftmost front piece back rfl)

/-- **Every row can be split**, since a cut makes it shorter. -/
theorem exists_splits (hd : d ≠ []) (row : List UInt8) :
    ∃ pieces unread, Splits d row pieces unread := by
  induction hlength : row.length using Nat.strong_induction_on generalizing row with
  | _ length ih =>
    subst hlength
    by_cases hoccurs : d <:+: row
    · obtain ⟨payload, following, hcuts⟩ := exists_cuts hoccurs
      obtain ⟨pieces, unread, hsplits⟩ := ih _ (hcuts.length_lt hd) following rfl
      exact ⟨payload :: pieces, unread, splits_cons_iff.2 ⟨following, hcuts, hsplits⟩⟩
    · exact ⟨[], row, splits_nil hoccurs⟩

end Delimiter

/-! ## Reads of a decoder -/

namespace Decoder

variable {d : Decoder} {delimiter payload following unread : List UInt8}
  {pieces : List (List UInt8)}

theorem fail_of_none (he : d.error = none) (fault : Fault) :
    d.fail fault = { d with error := some fault } := by
  rw [fail, he]

/-- No delimiter is asked for. -/
theorem read_delimited_nil (he : d.error = none) (copy : Bool) :
    d.read (.bytes (.delimited []) copy) =
      (Read.missed (.bytes (.delimited []) copy), { d with error := some .emptyDelimiter }) := by
  have hpayload : d.payload (.delimited []) = (none, d.fail .emptyDelimiter) := by
    simp only [payload, delimited, he, List.isEmpty_nil, if_true]
  rw [read, hpayload, fail_of_none he, Read.missed]

/-- The payload in front of the first occurrence is read. -/
theorem read_of_cuts (he : d.error = none) (hd : delimiter ≠ [])
    (h : Delimiter.Cuts delimiter d.rest payload following) (copy : Bool) :
    d.read (.bytes (.delimited delimiter) copy) =
      (d.deliver (.bytes payload) payload copy, { d with rest := following }) := by
  have hpayload : d.payload (.delimited delimiter) = (some payload, { d with rest := following }) :=
    delimited_append he following hd h.ends h.joined.symm
  rw [read_bytes_of_payload hpayload]
  rfl

/-- There is no occurrence to be found. -/
theorem read_of_absent (he : d.error = none) (hd : delimiter ≠ [])
    (h : ¬delimiter <:+: d.rest) (copy : Bool) :
    d.read (.bytes (.delimited delimiter) copy) =
      (Read.missed (.bytes (.delimited delimiter) copy),
        { d with error := some .bufferTooShort }) := by
  have hpayload : d.payload (.delimited delimiter) = (none, d.fail .bufferTooShort) := by
    simp only [payload, delimited, he, List.isEmpty_iff, hd, if_false, Delimiter.find?_eq_none h]
  rw [read, hpayload, fail_of_none he, Read.missed]

/-- Reads of a decoder that has a fault. -/
theorem calls_replicate_of_error {fault : Fault} (he : d.error = some fault) (read : Read)
    (count : Nat) :
    d.calls (List.replicate count (.read read)) =
      ⟨List.replicate count ⟨read.missed, d.rest.length, some fault⟩, d, .ok ()⟩ := by
  induction count with
  | zero => rfl
  | succ count ih =>
    rw [List.replicate_succ, calls_read, read_of_error he, ih, he]
    rfl

/-- **Repeated reads follow the pieces of the row**, one piece each, and find nothing when
there is none left. -/
theorem calls_of_splits (he : d.error = none) (hd : delimiter ≠ [])
    (h : Delimiter.Splits delimiter d.rest pieces unread) (copy : Bool) (count : Nat) :
    let reading := d.calls (List.replicate count (.read (.bytes (.delimited delimiter) copy)))
    reading.sights.map Sight.reply =
        (pieces.take count).map (fun piece => d.deliver (.bytes piece) piece copy) ++
          List.replicate (count - pieces.length)
            (Read.missed (.bytes (.delimited delimiter) copy)) ∧
      reading.decoder =
        (if count ≤ pieces.length then
          { d with rest := Delimiter.closed delimiter (pieces.drop count) ++ unread }
        else { d with rest := unread, error := some .bufferTooShort }) ∧
      reading.outcome = .ok () := by
  induction count generalizing d pieces with
  | zero =>
    refine ⟨by rw [Nat.zero_sub]; rfl, ?_, rfl⟩
    rw [if_pos (Nat.zero_le _), List.drop_zero, h.joined]
    rfl
  | succ count ih =>
    rw [List.replicate_succ]
    simp only [calls_read]
    rcases pieces with _ | ⟨piece, pieces⟩
    · -- the reads that are left find the fault that is kept now
      have hrest : unread = d.rest := h.joined
      have hfault : ({ d with error := some .bufferTooShort } : Decoder).error =
          some .bufferTooShort := rfl
      rw [read_of_absent he hd (hrest ▸ h.unsplit), calls_replicate_of_error hfault,
        if_neg (by rw [List.length_nil]; omega), hrest]
      refine ⟨?_, rfl, rfl⟩
      rw [List.map_cons, List.map_replicate, List.take_nil, List.map_nil, List.nil_append,
        List.length_nil, Nat.sub_zero, List.replicate_succ]
    · obtain ⟨following, hcuts, hsplits⟩ := Delimiter.splits_cons_iff.1 h
      obtain ⟨hreplies, hdecoder, houtcome⟩ := ih (d := { d with rest := following }) he hsplits
      rw [read_of_cuts he hd hcuts, List.map_cons, hreplies, hdecoder, List.length_cons,
        List.take_succ_cons, List.drop_succ_cons, List.map_cons, Nat.add_sub_add_right]
      simp only [Nat.add_le_add_iff_right]
      exact ⟨rfl, trivial, houtcome⟩

end Decoder

/-- **The position of a cursor tells of a read what the unread bytes tell.** -/
theorem Cursor.Sound.pos_add {c : Cursor} (hc : c.Sound) (read : Read) :
    ∃ next, c.read read = .ok ((c.decoder.read read).1, next) ∧ next.buf = c.buf ∧
      next.decoder = (c.decoder.read read).2 ∧
      next.pos + next.decoder.rest.length = c.pos + c.decoder.rest.length := by
  obtain ⟨next, hread, hleads, hdecoder⟩ := hc.runs_read read
  refine ⟨next, hread, hleads.buf_eq, hdecoder, ?_⟩
  have hpos := hc.pos_le
  have hnext := hleads.pos_le
  rw [decoder, decoder, List.length_drop, List.length_drop, hleads.buf_eq]
  omega

/-- **A delimited read stops at the first occurrence of its delimiter, and repeated reads
split the input.** A decoder without a fault has three ways. With a delimiter that is empty
it keeps that as a fault. With one that occurs in what is unread it gives the bytes in front
of the first occurrence and leaves those behind it. With any other, be it longer than what is
unread, it keeps the fault of a short input. A fault moves nothing. One read after another
gives the pieces of the input in turn, and finds nothing from then on. The machine, which searches
in windows and counts positions, does the same. -/
theorem delimited_reads_split {d : Decoder} (he : d.error = none) (delimiter : List UInt8)
    (copy : Bool) :
    let read := Read.bytes (.delimited delimiter) copy
    (delimiter = [] → d.read read = (read.missed, { d with error := some .emptyDelimiter })) ∧
      (delimiter ≠ [] → delimiter <:+: d.rest →
        ∃ payload following, Delimiter.Cuts delimiter d.rest payload following ∧
          d.read read = (d.deliver (.bytes payload) payload copy, { d with rest := following })) ∧
      (delimiter ≠ [] → ¬delimiter <:+: d.rest →
        d.read read = (read.missed, { d with error := some .bufferTooShort })) ∧
      (delimiter ≠ [] →
        ∃ pieces unread, Delimiter.Splits delimiter d.rest pieces unread ∧
          ∀ count,
            ((d.calls (List.replicate count (.read read))).sights.map Sight.reply =
              (pieces.take count).map (fun piece => d.deliver (.bytes piece) piece copy) ++
                List.replicate (count - pieces.length) read.missed) ∧
            (d.calls (List.replicate count (.read read))).decoder =
              (if count ≤ pieces.length then
                { d with rest := Delimiter.closed delimiter (pieces.drop count) ++ unread }
              else { d with rest := unread, error := some .bufferTooShort })) ∧
      ∀ c : Cursor, c.Sound → c.decoder = d →
        ∃ next, c.read read = .ok ((d.read read).1, next) ∧ next.buf = c.buf ∧
          next.decoder = (d.read read).2 ∧
          next.pos + next.decoder.rest.length = c.pos + d.rest.length := by
  refine ⟨?_, fun hd hoccurs => ?_, fun hd hnowhere => ?_, fun hd => ?_, ?_⟩
  · rintro rfl
    exact Decoder.read_delimited_nil he copy
  · obtain ⟨payload, following, hcuts⟩ := Delimiter.exists_cuts hoccurs
    exact ⟨payload, following, hcuts, Decoder.read_of_cuts he hd hcuts copy⟩
  · exact Decoder.read_of_absent he hd hnowhere copy
  · obtain ⟨pieces, unread, hsplits⟩ := Delimiter.exists_splits hd d.rest
    refine ⟨pieces, unread, hsplits, fun count => ?_⟩
    obtain ⟨hreplies, hdecoder, -⟩ := Decoder.calls_of_splits he hd hsplits copy count
    exact ⟨hreplies, hdecoder⟩
  · rintro c hc rfl
    exact hc.pos_add _

/-- A delimiter that overlaps itself: the occurrence in the middle of three equal bytes
starts in front of the end of the first one and does not count. -/
theorem delimited_reads_split_overlapping :
    (Decoder.start .bigEndian [97, 97, 97, 98, 97, 97]).error = none ∧
      Delimiter.Splits [97, 97] [97, 97, 97, 98, 97, 97] [[], [97, 98]] [] := by
  obtain ⟨-, -, -, hsplit, -⟩ := delimited_reads_split
    (d := Decoder.start .bigEndian [97, 97, 97, 98, 97, 97]) rfl [97, 97] true
  obtain ⟨pieces, unread, hsplits, hreads⟩ := hsplit (by decide)
  obtain ⟨hreplies, hdecoder⟩ := hreads 3
  have hthree : ((Decoder.start .bigEndian [97, 97, 97, 98, 97, 97]).calls
      (List.replicate 3 (.read (.bytes (.delimited [97, 97]) true)))).sights.map Sight.reply =
      [⟨.bytes [], some true, none⟩, ⟨.bytes [97, 98], some true, none⟩,
        ⟨.bytes [], some false, none⟩] := by decide
  rw [hthree] at hreplies
  refine ⟨rfl, ?_⟩
  -- a piece is a copy and a read that finds nothing gives none, so there are two pieces
  rcases pieces with _ | ⟨first, _ | ⟨second, _ | ⟨third, more⟩⟩⟩
  · cases hreplies
  · cases hreplies
  · cases hreplies
    obtain rfl : [] = unread := congrArg Decoder.rest hdecoder
    exact hsplits
  · cases hreplies

end Wirepool
