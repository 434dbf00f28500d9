import Wirepool.Memory.Block

/-!
# Runs

Long stretches of one byte are common in memory, so its content is also given
as runs: a byte and how often it stands there in a row. Neighbouring runs are of
different bytes, and no run is empty.
-/

namespace Wirepool

namespace Runs

/-- Puts a run in front of others, joined with the first of them if that is of
the same byte. An empty run is left out. -/
def cons (value : UInt8) (count : Nat) (runs : List (UInt8 × Nat)) : List (UInt8 × Nat) :=
  if count = 0 then runs
  else
    match runs with
    | (next, more) :: others =>
      if next = value then (value, count + more) :: others else (value, count) :: runs
    | [] => [(value, count)]

/-- The runs of a row of bytes that is followed by the given runs. -/
def ofList (row : List UInt8) (behind : List (UInt8 × Nat)) : List (UInt8 × Nat) :=
  row.foldr (fun value runs => cons value 1 runs) behind

/-- **The bytes that runs stand for.** -/
def toList (runs : List (UInt8 × Nat)) : List UInt8 :=
  runs.flatMap fun run => List.replicate run.2 run.1

@[simp] theorem toList_cons (value : UInt8) (count : Nat) (runs : List (UInt8 × Nat)) :
    toList (cons value count runs) = List.replicate count value ++ toList runs := by
  unfold cons
  split
  · simp_all
  · split
    · split
      · simp_all [toList, ← List.append_assoc, List.replicate_append_replicate]
      · simp [toList]
    · simp [toList]

@[simp] theorem toList_ofList (row : List UInt8) (behind : List (UInt8 × Nat)) :
    toList (ofList row behind) = row ++ toList behind := by
  induction row with
  | nil => rfl
  | cons value row ih => simpa [ofList] using ih

end Runs

/-- **The runs of at most `count` bytes** from `offset` on, without spelling out
what was never touched. -/
def Block.runs (b : Block) (offset count : Nat) : List (UInt8 × Nat) :=
  let row := (b.front.drop offset).take count
  Runs.ofList row (Runs.cons 0 (min count (b.size - offset) - row.length) [])

/-- The runs of a stretch stand for what is read there. -/
theorem Block.toList_runs (b : Block) (offset count : Nat) :
    Runs.toList (b.runs offset count) = b.read offset count := by
  rw [Block.runs, Runs.toList_ofList, Runs.toList_cons, Block.read]
  simp [Runs.toList]

end Wirepool
