/-!
# Tables

A table holds values under names and remembers the order in which the names
came. Putting a value under a name that is there already replaces the value and
leaves the name where it is.
-/

namespace CallTree.Data

/-- **A table of values under names**, in the order in which the names came. -/
abbrev Table (α : Type) := List (String × α)

namespace Table

variable {α : Type}

/-- The table without entries. -/
def empty : Table α := []

/-- The value under a name. -/
def get? (table : Table α) (name : String) : Option α :=
  (table.find? (·.1 = name)).map (·.2)

/-- Whether there is a value under a name. -/
def has (table : Table α) (name : String) : Bool :=
  table.any (·.1 = name)

/-- The table with a value put under a name. -/
def put (table : Table α) (name : String) (value : α) : Table α :=
  match table with
  | [] => [(name, value)]
  | (n, v) :: rest => if n = name then (n, value) :: rest else (n, v) :: put rest name value

/-- The table with the entries of another put in, one after the other. -/
def putAll (table other : Table α) : Table α :=
  other.foldl (fun t (n, v) => t.put n v) table

/-- The names, in order. -/
def names (table : Table α) : List String := table.map (·.1)

/-- The values, in the order of their names. -/
def values (table : Table α) : List α := table.map (·.2)

/-- What was put under a name is there. -/
theorem get?_put_self (table : Table α) (name : String) (value : α) :
    (table.put name value).get? name = some value := by
  induction table with
  | nil => simp [put, get?]
  | cons entry rest ih =>
    obtain ⟨n, v⟩ := entry
    by_cases h : n = name
    · simp [put, get?, h]
    · simpa [put, get?, h] using ih

/-- Putting a value under one name leaves the others alone. -/
theorem get?_put_of_ne (table : Table α) {name other : String} (value : α) (h : other ≠ name) :
    (table.put name value).get? other = table.get? other := by
  induction table with
  | nil => simp [put, get?, Ne.symm h]
  | cons entry rest ih =>
    obtain ⟨n, v⟩ := entry
    by_cases hn : n = name
    · subst hn
      simp [put, get?, Ne.symm h]
    · rw [put, if_neg hn]
      by_cases ho : n = other
      · simp [get?, ho]
      · simpa [get?, ho] using ih

end Table

end CallTree.Data
