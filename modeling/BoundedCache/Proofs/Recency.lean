import BoundedCache.Recency
import Mathlib.Data.List.Dedup

namespace BoundedCache

/-!
# The order of use — ticks that are drawn later stand later

A key is filed under the next tick.  While that tick is greater than all ticks in use
(`Recency.Ahead`), filing is appending (`order_add`), so the order of the rows is the order of the
latest uses.  `dedup` of the used keys lists them in that order too, since it keeps the last one of
several occurrences (`dedup_concat`).
-/

/-! ### Lists of keys -/

theorem dedup_concat (keys : List String) (key : String) :
    (keys ++ [key]).dedup = (keys.dedup.filter fun other => other != key) ++ [key] := by
  induction keys with
  | nil => rfl
  | cons first keys ih =>
    by_cases hkey : first = key
    · subst hkey
      have hmem : first ∈ keys ++ [first] := by simp
      rw [List.cons_append, List.dedup_cons_of_mem hmem, ih]
      by_cases hfirst : first ∈ keys
      · rw [List.dedup_cons_of_mem hfirst]
      · simp [List.dedup_cons_of_notMem hfirst]
    · by_cases hfirst : first ∈ keys
      · have hmem : first ∈ keys ++ [key] := List.mem_append_left _ hfirst
        rw [List.cons_append, List.dedup_cons_of_mem hmem, ih, List.dedup_cons_of_mem hfirst]
      · have hmem : first ∉ keys ++ [key] := by simp [hfirst, hkey]
        rw [List.cons_append, List.dedup_cons_of_notMem hmem, ih,
          List.dedup_cons_of_notMem hfirst, List.filter_cons_of_pos (by simp [hkey])]
        rfl

/-- A part of a list without repetition is what a filter by its members leaves of the list. -/
theorem eq_filter_of_sublist {kept keys : List String} (hkept : kept.Sublist keys)
    (hnodup : keys.Nodup) : kept = keys.filter fun key => decide (key ∈ kept) := by
  have hself : kept = kept.filter fun key => decide (key ∈ kept) :=
    (List.filter_eq_self.2 fun key hkey => decide_eq_true hkey).symm
  have hsub : kept.Sublist (keys.filter fun key => decide (key ∈ kept)) := by
    have := hkept.filter fun key => decide (key ∈ kept)
    rwa [← hself] at this
  -- Both lists have the same keys without repetition, so they are equally long.
  refine hsub.eq_of_length ?_
  refine ((List.perm_ext_iff_of_nodup (hkept.nodup hnodup) (hnodup.filter _)).2
    fun key => ?_).length_eq
  rw [List.mem_filter, decide_eq_true_iff]
  exact ⟨fun hkey => ⟨hkept.subset hkey, hkey⟩, fun hkey => hkey.2⟩

/-! ### Ticks -/

theorem insertTick_eq_append {tick : Nat} {rows : List (Nat × String)} (key : String)
    (hlater : ∀ row ∈ rows, row.1 < tick) : insertTick tick key rows = rows ++ [(tick, key)] := by
  -- The tick passes every row on its way to the end.
  induction rows with
  | nil => rfl
  | cons row rest ih =>
    have hrow : row.1 < tick := hlater row List.mem_cons_self
    have hrest := ih fun other hother => hlater other (List.mem_cons_of_mem _ hother)
    rw [insertTick, if_neg (by omega), if_neg (by omega), hrest, List.cons_append]

namespace Recency

/-- The next tick is greater than every tick in use. -/
def Ahead (recency : Recency) : Prop := ∀ row ∈ recency.order, row.1 < recency.next

theorem order_add {recency : Recency} (hahead : recency.Ahead) (key : String) :
    (recency.add key).order = recency.order ++ [(recency.next, key)] :=
  insertTick_eq_append key hahead

theorem ahead_remove {recency : Recency} (hahead : recency.Ahead) (tick : Nat) :
    (recency.remove tick).Ahead := fun row hrow => hahead row (List.mem_filter.1 hrow).1

end Recency

end BoundedCache
