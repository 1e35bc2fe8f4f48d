import BoundedCache.Table
import Mathlib.Data.List.Nodup
import Mathlib.Data.List.Perm.Basic

namespace BoundedCache.Table

/-!
# Tables — what a lookup finds

A table is known by its lookups.  `mem_rows_iff` ties `find?` to the rows, and each operation has
one lemma that says what `find?` gives afterwards:

* `find?_filterKeys`, `find?_erase` — removals;
* `find?_insert` — an insertion changes exactly the row of its key;
* `find?_modify` — a modification maps exactly that row.

`perm_cons_erase` and `perm_modify` say the same about the rows up to their order, which is what
sums over a table need.
-/

variable {α : Type}

/-! ### Rows and lookups -/

theorem nodup_rows (table : Table α) : table.rows.Nodup := table.nodup.of_map

/-- **Lookups read rows.** The keys are distinct, so a lookup finds a value iff there is a row
    for it. -/
theorem mem_rows_iff (table : Table α) (key : String) (value : α) :
    (key, value) ∈ table.rows ↔ table.find? key = some value := by
  obtain ⟨rows, hnodup⟩ := table
  simp only [find?]
  -- A lookup stops at the first row of the key; distinct keys make it the only one.
  induction rows with
  | nil => simp
  | cons row rest ih =>
    rw [List.map_cons, List.nodup_cons] at hnodup
    obtain ⟨hrow, hrest⟩ := hnodup
    by_cases hkey : row.1 = key
    · subst hkey
      have habsent : (row.1, value) ∉ rest := fun h => hrow (List.mem_map.2 ⟨_, h, rfl⟩)
      simp [habsent, Prod.ext_iff, eq_comm]
    · have hne : (key, value) ≠ row := fun h => hkey (h ▸ rfl)
      simp [hkey, hne, ih hrest]

theorem mem_keys_iff (table : Table α) (key : String) :
    key ∈ table.keys ↔ ∃ value, table.find? key = some value := by
  simp only [keys, List.mem_map, Prod.exists, ← mem_rows_iff]
  constructor
  · rintro ⟨_, value, hmem, rfl⟩
    exact ⟨value, hmem⟩
  · rintro ⟨value, hmem⟩
    exact ⟨key, value, hmem, rfl⟩

theorem find?_eq_none_iff (table : Table α) (key : String) :
    table.find? key = none ↔ key ∉ table.keys := by
  rw [mem_keys_iff, ← Option.isSome_iff_exists, Option.not_isSome_iff_eq_none]

/-! ### Lookups after an operation -/

@[simp] theorem find?_empty (key : String) : (empty : Table α).find? key = none := rfl

theorem find?_filterKeys (table : Table α) (keep : String → Bool) (key : String) :
    (table.filterKeys keep).find? key = if keep key then table.find? key else none := by
  ext value
  rw [← mem_rows_iff, filterKeys, List.mem_filter, mem_rows_iff]
  by_cases hkeep : keep key = true <;> simp [hkeep]

theorem find?_erase (table : Table α) (key other : String) :
    (table.erase key).find? other = if other = key then none else table.find? other := by
  rw [erase, find?_filterKeys]
  by_cases hkey : other = key <;> simp [hkey]

theorem find?_insert (table : Table α) (key : String) (value : α) (other : String) :
    (table.insert key value).find? other
      = if other = key then some value else table.find? other := by
  ext found
  rw [← mem_rows_iff, insert, List.mem_append, mem_rows_iff, find?_erase, List.mem_singleton]
  by_cases hkey : other = key
  · simp [hkey, eq_comm]
  · simp [hkey]

theorem find?_modify (table : Table α) (key : String) (f : α → α) (other : String) :
    (table.modify key f).find? other
      = if other = key then (table.find? other).map f else table.find? other := by
  ext found
  rw [← mem_rows_iff, modify, List.mem_map]
  constructor
  · rintro ⟨⟨name, value⟩, hmem, hrow⟩
    rw [mem_rows_iff] at hmem
    by_cases hname : name = key
    · rw [if_pos hname, Prod.mk.injEq] at hrow
      obtain ⟨rfl, rfl⟩ := hrow
      rw [if_pos hname, hmem, Option.map_some]
    · rw [if_neg hname, Prod.mk.injEq] at hrow
      obtain ⟨rfl, rfl⟩ := hrow
      simp [hname, hmem]
  · intro hfound
    by_cases hother : other = key
    · rw [if_pos hother, Option.map_eq_some_iff] at hfound
      obtain ⟨value, hvalue, rfl⟩ := hfound
      exact ⟨(other, value), (mem_rows_iff _ _ _).2 hvalue, by simp [hother]⟩
    · rw [if_neg hother] at hfound
      exact ⟨(other, found), (mem_rows_iff _ _ _).2 hfound, by simp [hother]⟩

/-- A table that knows one key only has one row or none. -/
theorem rows_eq_nil_or_singleton {table : Table α} {key : String}
    (honly : ∀ other ∈ table.keys, other = key) :
    table.rows = [] ∨ ∃ value, table.rows = [(key, value)] := by
  obtain ⟨rows, hnodup⟩ := table
  cases rows with
  | nil => exact .inl rfl
  | cons row rest =>
    obtain ⟨name, value⟩ := row
    obtain rfl : name = key := honly _ List.mem_cons_self
    cases rest with
    | nil => exact .inr ⟨value, rfl⟩
    | cons next rest =>
      have hnext : next.1 = name := honly _ (List.mem_cons_of_mem _ List.mem_cons_self)
      simp [hnext] at hnodup

/-! ### Rows after an operation, up to their order -/

/-- A table that agrees with another one but for the row of a key is that row and the others. -/
theorem perm_of_find? {table table' : Table α} {key : String} {value : α}
    (hfind : ∀ other, table'.find? other = if other = key then some value else table.find? other) :
    table'.rows.Perm ((key, value) :: (table.erase key).rows) := by
  have hfresh : (key, value) ∉ (table.erase key).rows := by
    rw [mem_rows_iff, find?_erase]
    simp
  have hnodup := List.nodup_cons.2 ⟨hfresh, (table.erase key).nodup_rows⟩
  -- Both sides have distinct rows, so it is enough that they have the same ones.
  rw [List.perm_ext_iff_of_nodup table'.nodup_rows hnodup]
  rintro ⟨name, found⟩
  rw [List.mem_cons, mem_rows_iff, mem_rows_iff, find?_erase, hfind]
  by_cases hname : name = key
  · simp [hname, eq_comm]
  · simp [hname]

/-- A table is the row of one of its keys and the rest. -/
theorem perm_cons_erase {table : Table α} {key : String} {value : α}
    (hvalue : table.find? key = some value) :
    table.rows.Perm ((key, value) :: (table.erase key).rows) := by
  refine perm_of_find? fun other => ?_
  by_cases hother : other = key
  · rw [if_pos hother, hother, hvalue]
  · rw [if_neg hother]

/-- A modified table is the mapped row and the rest. -/
theorem perm_modify {table : Table α} {key : String} {value : α}
    (hvalue : table.find? key = some value) (f : α → α) :
    (table.modify key f).rows.Perm ((key, f value) :: (table.erase key).rows) := by
  refine perm_of_find? fun other => ?_
  rw [find?_modify]
  by_cases hother : other = key
  · rw [if_pos hother, if_pos hother, hother, hvalue, Option.map_some]
  · rw [if_neg hother, if_neg hother]

/-- Without a row to replace, erasing changes nothing. -/
theorem erase_rows_of_find?_eq_none {table : Table α} {key : String}
    (hnone : table.find? key = none) : (table.erase key).rows = table.rows := by
  refine List.filter_eq_self.2 fun row hrow => bne_iff_ne.2 ?_
  rintro rfl
  exact (find?_eq_none_iff _ _).1 hnone (List.mem_map_of_mem hrow)

/-- The rows of one key are the one that a lookup finds. -/
theorem filter_key_eq (table : Table α) (key : String) :
    (table.rows.filter fun row => row.1 == key)
      = ((table.find? key).map fun value => (key, value)).toList := by
  cases hfind : table.find? key with
  | none =>
    refine List.filter_eq_nil_iff.2 fun row hrow hkey => ?_
    rw [find?_eq_none_iff] at hfind
    exact hfind (beq_iff_eq.1 hkey ▸ List.mem_map_of_mem hrow)
  | some value =>
    have hrest : ((table.erase key).rows.filter fun row => row.1 == key) = [] := by
      simp [erase, filterKeys, List.filter_filter]
    have hperm := (perm_cons_erase hfind).filter fun row => row.1 == key
    simp only [List.filter_cons, beq_self_eq_true, if_true, hrest] at hperm
    exact List.perm_singleton.1 hperm

/-! ### Rows lost and gained -/

theorem contains_iff (table : Table α) (key : String) :
    table.contains key = true ↔ key ∈ table.keys := by
  rw [contains, Option.isSome_iff_exists, mem_keys_iff]

/-- Between two tables, the sizes differ by the keys that are lost and those that are gained. -/
theorem length_lost_add_size (table table' : Table α) :
    (table.keys.filter fun key => !table'.contains key).length + table'.size
      = table.size + (table'.keys.filter fun key => !table.contains key).length := by
  -- The keys of both are the same, counted on either side.
  have hboth : (table.keys.filter table'.contains).Perm (table'.keys.filter table.contains) := by
    refine (List.perm_ext_iff_of_nodup (table.nodup.filter _) (table'.nodup.filter _)).2 ?_
    intro key
    simp only [List.mem_filter, contains_iff]
    exact and_comm
  have hbefore := List.length_eq_length_filter_add (l := table.keys) table'.contains
  have hafter := List.length_eq_length_filter_add (l := table'.keys) table.contains
  have hlength := hboth.length_eq
  simp only [keys, List.length_map] at *
  simp only [size]
  omega

/-! ### Equal tables -/

theorem eq_of_rows_eq {table table' : Table α} (hrows : table.rows = table'.rows) :
    table = table' := by
  obtain ⟨rows, hnodup⟩ := table
  obtain ⟨rows', hnodup'⟩ := table'
  obtain rfl : rows = rows' := hrows
  rfl

theorem erase_of_find?_eq_none {table : Table α} {key : String}
    (hnone : table.find? key = none) : table.erase key = table :=
  eq_of_rows_eq (erase_rows_of_find?_eq_none hnone)

/-- Only what is kept of the keys of a table matters. -/
theorem filterKeys_congr {table : Table α} {keep keep' : String → Bool}
    (hkeep : ∀ key ∈ table.keys, keep key = keep' key) :
    table.filterKeys keep = table.filterKeys keep' :=
  eq_of_rows_eq (List.filter_congr fun _ hrow => hkeep _ (List.mem_map_of_mem hrow))

/-- Erasing several keys, one after another, is filtering for the others. -/
theorem foldl_erase (keys : List String) (table : Table α) :
    keys.foldl erase table = table.filterKeys fun key => !keys.contains key := by
  induction keys generalizing table with
  | nil => exact eq_of_rows_eq (List.filter_eq_self.2 fun _ _ => rfl).symm
  | cons key keys ih =>
    rw [List.foldl_cons, ih]
    refine eq_of_rows_eq ?_
    simp only [erase, filterKeys, List.filter_filter]
    refine List.filter_congr fun row _ => ?_
    rw [List.contains_cons, Bool.not_or, Bool.and_comm]
    rfl

end BoundedCache.Table
