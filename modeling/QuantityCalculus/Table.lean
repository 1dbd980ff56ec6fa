namespace QuantityCalculus

/-!
Tables from names to values, in order of first entry.

Bindings, constants, units, catalogs and functions are all kept by name.  A
name that is entered again keeps its place and gets the new value, a removed
name loses its place.  The look-up equations below are the view through which
the operations are used.
-/

/-- A table: pairs of a name and a value, at most the first of each name counts. -/
abbrev Table (α : Type) := List (String × α)

namespace Table

variable {α : Type}

/-- The value of a name. -/
def get? (key : String) : Table α -> Option α
  | [] => none
  | (name, value) :: rest => if name = key then some value else get? key rest

/-- A name has a value. -/
def has (key : String) (table : Table α) : Bool :=
  (table.get? key).isSome

/-- The table with a value for a name. -/
def set (key : String) (value : α) : Table α -> Table α
  | [] => [(key, value)]
  | (name, old) :: rest =>
      if name = key then (name, value) :: rest else (name, old) :: set key value rest

/-- The table without a name. -/
def remove (key : String) (table : Table α) : Table α :=
  table.filter fun entry => entry.1 != key

/-- The names, in order. -/
def keys (table : Table α) : List String :=
  table.map Prod.fst

/-- The table with all values of another table, which win. -/
def update (table : Table α) (newer : Table α) : Table α :=
  newer.foldl (fun table entry => table.set entry.1 entry.2) table

theorem get?_set (table : Table α) (key other : String) (value : α) :
    (table.set key value).get? other = if key = other then some value else table.get? other := by
  induction table with
  | nil => simp [set, get?]
  | cons entry rest ih =>
      rcases entry with ⟨name, old⟩
      by_cases same : name = key
      · subst same
        by_cases found : name = other <;> simp [set, get?, found]
      · by_cases found : name = other
        · subst found
          simp [set, get?, same, Ne.symm same]
        · simp [set, get?, same, found, ih]

theorem get?_remove (table : Table α) (key other : String) :
    (table.remove key).get? other = if key = other then none else table.get? other := by
  induction table with
  | nil => simp [remove, get?]
  | cons entry rest ih =>
      rcases entry with ⟨name, value⟩
      simp only [remove] at ih ⊢
      by_cases same : name = key
      · subst same
        by_cases found : name = other
        · subst found
          simpa using ih
        · simpa [get?, found] using ih
      · by_cases found : name = other
        · subst found
          simp [get?, same, Ne.symm same]
        · simp [get?, same, found, ih]

theorem get?_eq_none_iff (table : Table α) (key : String) :
    table.get? key = none <-> key ∉ table.keys := by
  induction table with
  | nil => simp [get?, keys]
  | cons entry rest ih =>
      rcases entry with ⟨name, value⟩
      simp only [keys] at ih ⊢
      by_cases same : name = key
      · simp [get?, same]
      · simp [get?, same, ih, Ne.symm same]

theorem mem_of_get? {table : Table α} {key : String} {value : α}
    (found : table.get? key = some value) : (key, value) ∈ table := by
  induction table with
  | nil => cases found
  | cons entry rest ih =>
      rcases entry with ⟨name, other⟩
      rw [get?] at found
      split at found
      · rename_i same
        cases found
        exact same ▸ List.mem_cons_self
      · exact List.mem_cons_of_mem _ (ih found)

theorem mem_keys_of_get? {table : Table α} {key : String} {value : α}
    (found : table.get? key = some value) : key ∈ table.keys :=
  List.mem_map.mpr ⟨(key, value), mem_of_get? found, rfl⟩

theorem exists_of_mem_keys {table : Table α} {key : String} (member : key ∈ table.keys) :
    ∃ value, table.get? key = some value := by
  cases found : table.get? key with
  | none => exact absurd member ((get?_eq_none_iff table key).mp found)
  | some value => exact ⟨value, rfl⟩

theorem mem_set {table : Table α} {key : String} {value : α} {entry : String × α}
    (member : entry ∈ table.set key value) : entry ∈ table ∨ entry = (key, value) := by
  induction table with
  | nil => exact Or.inr (List.mem_singleton.mp member)
  | cons head rest ih =>
      rcases head with ⟨name, old⟩
      rw [set] at member
      split at member
      · rename_i same
        subst same
        exact (List.mem_cons.mp member).elim Or.inr
          fun later => Or.inl (List.mem_cons_of_mem _ later)
      · rcases List.mem_cons.mp member with rfl | later
        · exact Or.inl List.mem_cons_self
        · exact (ih later).imp_left (List.mem_cons_of_mem _)

end Table
end QuantityCalculus
