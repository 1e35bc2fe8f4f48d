namespace BoundedCache

/-!
# Tables

A `Table` holds one value for each of its keys.  Its rows stand in the order in which their keys
were last inserted, but no operation of the cache depends on that order.
-/

/-- Rows of a key and a value with distinct keys. -/
structure Table (α : Type) where
  rows : List (String × α)
  nodup : (rows.map Prod.fst).Nodup

namespace Table

variable {α : Type}

/-- The table without rows. -/
def empty : Table α := ⟨[], List.nodup_nil⟩

/-- The keys of a table. -/
def keys (table : Table α) : List String := table.rows.map Prod.fst

/-- The number of keys. -/
def size (table : Table α) : Nat := table.rows.length

/-- Whether a table has no rows. -/
def isEmpty (table : Table α) : Bool := table.rows.isEmpty

/-- The value of a key. -/
def find? (table : Table α) (key : String) : Option α :=
  (table.rows.find? fun row => row.1 == key).map Prod.snd

/-- Whether a table has a row for a key. -/
def contains (table : Table α) (key : String) : Bool := (table.find? key).isSome

/-- The rows whose keys are accepted by `keep`. -/
def filterKeys (table : Table α) (keep : String → Bool) : Table α :=
  ⟨table.rows.filter fun row => keep row.1,
    (List.filter_sublist.map Prod.fst).nodup table.nodup⟩

/-- The table without the row of a key. -/
def erase (table : Table α) (key : String) : Table α := table.filterKeys (· != key)

theorem not_mem_keys_erase (table : Table α) (key : String) : key ∉ (table.erase key).keys := by
  simp [erase, filterKeys, keys]

/-- The table with a row for a key, which replaces an earlier one. -/
def insert (table : Table α) (key : String) (value : α) : Table α :=
  ⟨(table.erase key).rows ++ [(key, value)], by
    have := table.not_mem_keys_erase key
    simp only [List.map_append, List.map_cons, List.map_nil]
    refine List.nodup_append.2 ⟨(table.erase key).nodup, by simp, ?_⟩
    intro a ha b hb
    rw [List.mem_singleton] at hb
    rintro rfl
    exact this (hb ▸ ha)⟩

/-- The table with another value in the row of a key, if it has one. -/
def modify (table : Table α) (key : String) (f : α → α) : Table α :=
  ⟨table.rows.map fun row => if row.1 = key then (row.1, f row.2) else row, by
    have same : (table.rows.map fun row => if row.1 = key then (row.1, f row.2) else row).map
        Prod.fst = table.rows.map Prod.fst := by
      rw [List.map_map]
      refine List.map_congr_left fun row _ => ?_
      simp only [Function.comp_apply]
      split <;> rfl
    rw [same]
    exact table.nodup⟩

end Table

end BoundedCache
