/-!
# Tables of named things

A table holds at most one thing under each name. Entering a thing replaces what
stood under its name before. That no name comes twice is part of a table, so
what all names together stand for can be added up.
-/

namespace Wirepool

/-- **Things by name.** -/
structure Table (α : Type) where
  entries : List (String × α) := []
  /-- No name comes twice. -/
  nodup : (entries.map Prod.fst).Nodup := by exact List.nodup_nil
  deriving DecidableEq

namespace Table

variable {α : Type}

instance : Inhabited (Table α) := ⟨{}⟩

/-- What stands under a name. -/
def get? (t : Table α) (name : String) : Option α := t.entries.lookup name

/-- Taking entries out leaves the names distinct. -/
theorem nodup_filter (t : Table α) (p : String × α → Bool) :
    ((t.entries.filter p).map Prod.fst).Nodup :=
  t.nodup.sublist (List.filter_sublist.map Prod.fst)

/-- The table without a name. -/
def erase (t : Table α) (name : String) : Table α :=
  ⟨t.entries.filter fun entry => entry.1 != name, t.nodup_filter _⟩

/-- A name that was taken out does not come again. -/
theorem notMem_erase (t : Table α) (name : String) :
    name ∉ (t.erase name).entries.map Prod.fst := by
  simp [erase]

/-- The table with a thing under a name. -/
def put (t : Table α) (name : String) (a : α) : Table α :=
  ⟨(name, a) :: (t.erase name).entries,
    List.nodup_cons.mpr ⟨t.notMem_erase name, (t.erase name).nodup⟩⟩

/-- The table without the things of some kind. -/
def remove (t : Table α) (p : α → Bool) : Table α :=
  ⟨t.entries.filter fun entry => !p entry.2, t.nodup_filter _⟩

/-- All things, the latest entered in front. -/
def values (t : Table α) : List α := t.entries.map Prod.snd

/-! ## Looking up -/

/-- What is entered is found. -/
@[simp] theorem get?_put_self (t : Table α) (name : String) (a : α) :
    (t.put name a).get? name = some a := by
  simp [get?, put]

/-- Rows without a name do not answer to it, and answer to the others as
before. -/
theorem lookup_filter_ne (entries : List (String × α)) (name other : String) :
    (entries.filter fun entry => entry.1 != name).lookup other =
      if other = name then none else entries.lookup other := by
  induction entries with
  | nil => simp
  | cons entry entries ih =>
    obtain ⟨key, a⟩ := entry
    by_cases hk : key = name
    · subst hk
      rw [List.filter_cons_of_neg (by simp), ih]
      by_cases ho : other = key
      · rw [if_pos ho, if_pos ho]
      · rw [if_neg ho, if_neg ho, List.lookup_cons, beq_false_of_ne ho]
    · rw [List.filter_cons_of_pos (by simp [hk]), List.lookup_cons, List.lookup_cons, ih]
      by_cases ho : other = key
      · subst ho
        simp [hk]
      · simp [beq_false_of_ne ho]

/-- What is taken out is not found, and all else is found as before. -/
theorem get?_erase (t : Table α) (name other : String) :
    (t.erase name).get? other = if other = name then none else t.get? other :=
  lookup_filter_ne t.entries name other

/-- Taking a thing out changes nothing under other names. -/
theorem get?_erase_of_ne (t : Table α) {name other : String} (h : other ≠ name) :
    (t.erase name).get? other = t.get? other := by
  rw [get?_erase, if_neg h]

/-- Entering a thing changes nothing under other names. -/
theorem get?_put_of_ne (t : Table α) {name other : String} (h : other ≠ name) (a : α) :
    (t.put name a).get? other = t.get? other := by
  rw [← get?_erase_of_ne t h, get?, get?, put, List.lookup_cons, beq_false_of_ne h]

end Table

end Wirepool
