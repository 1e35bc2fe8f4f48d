import BoundedCache.Proofs.Run.Future
import BoundedCache.Proofs.Store.Removal

namespace BoundedCache.Store

/-!
# Sweeps and patterns in all stores that a cache can come to

In a store that a cache can come to, the records agree, so removals in bulk are exact there.  A hash
table may enumerate its rows in any order; `bulk_removals_exact` says that this order makes no
difference, what goes, and that a sweep counts an eviction for each entry that goes and a pattern
counts none.

That the counter has room for them is an invariant, `Reachable.evictions_lt`: every entry that is
there or was evicted once drew a tick.
-/

variable {store : Store}

/-- The evictions and the entries together stay behind the next tick. -/
theorem Reachable.evictions_lt (h : store.Reachable) :
    store.statistics.evictions + store.size < store.recency.next := by
  induction h with
  | new budget defaultTtl => exact Nat.zero_lt_one
  | @call store call h haffords ih =>
    obtain ⟨⟨queue, hqueue⟩, -, hnext⟩ := h.exists_regular
    have hdrawn := hqueue.next_call haffords
    have hle := evictions_apply_le store call.now call.operation (by omega)
    rw [Store.call] at hdrawn ⊢
    omega
  | @reorder store entries h hrows ih =>
    have hsize : entries.size = store.entries.size := hrows.length_eq
    show store.statistics.evictions + entries.size < store.recency.next
    rw [hsize]
    exact ih

/-- The counter of evictions has room for the entries that are there. -/
theorem Reachable.evictions_le (h : store.Reachable) :
    store.statistics.evictions + store.size ≤ Word.top := by
  obtain ⟨-, -, hnext⟩ := h.exists_regular
  have hlt := h.evictions_lt
  omega

/-- **Removals in bulk are exact**, in whatever order the table enumerates its rows.  A sweep takes
    the entries that have expired at its reading and counts them as evictions; a pattern takes those
    whose keys contain it in lower case, and counts none. -/
theorem bulk_removals_exact (h : store.Reachable) (now : Nat) (pattern : String) {rows : List Row}
    (hrows : rows.Perm store.entries.rows) :
    store.sweepIn now rows = store.sweep now
    ∧ store.Discards (fun row => row.2.expiresAt ≤ now) (store.sweep now)
    ∧ (store.sweep now).store.statistics.evictions
      = store.statistics.evictions + (store.sweep now).result
    ∧ store.invalidatePatternIn pattern rows = store.invalidatePattern pattern
    ∧ store.Discards (fun row =>
        Text.lowercase pattern.toList <:+: Text.lowercase row.1.toList)
      (store.invalidatePattern pattern)
    ∧ (store.invalidatePattern pattern).store.statistics.evictions
      = store.statistics.evictions := by
  obtain ⟨⟨queue, hregular⟩, -, hnext⟩ := h.exists_regular
  have hroom := h.evictions_lt
  have hdiscards {remove : Store → String → Store} (hremove : Removal remove)
      (kind : Row → Bool) : store.Discards kind (store.removeKind remove kind store.entries.rows) :=
    hremove.discards hregular.queues hregular.accounted hregular.held_le kind
  have hsweep : store.Discards (fun row => row.2.expiresAt ≤ now) (store.sweep now) :=
    hdiscards removal_expel fun row => row.2.isDue now
  have hkind : (fun row : Row => Text.contains (Text.lowercase pattern.toList)
        (Text.lowercase row.1.toList))
      = fun row => decide (Text.lowercase pattern.toList <:+: Text.lowercase row.1.toList) := by
    funext row
    rw [Bool.eq_iff_iff, Text.contains_eq_true_iff, decide_eq_true_iff]
  refine ⟨?_, hsweep, evictions_sweep store now (by omega) hsweep.result_add, ?_, ?_,
    foldl_eq (·.statistics.evictions) evictions_drop _ store⟩
  · rw [sweep_eq]
    exact removal_expel.removeKind_perm store _ hrows
  · rw [invalidatePattern_eq]
    exact removal_drop.removeKind_perm store _ hrows
  · rw [invalidatePattern_eq, ← hkind]
    exact hdiscards removal_drop _

/-- Two of three keys contain the pattern in lower case, and one of the three entries has expired;
    the rows are enumerated from the last one to the first. -/
theorem bulk_removals_backwards :
    let store := (Store.new 100 60).after
      [⟨0, .put "Ab" ⟨[]⟩ 1⟩, ⟨0, .put "c" ⟨[]⟩ 5⟩, ⟨0, .put "xaB" ⟨[]⟩ 0⟩, ⟨10, .get "c"⟩]
    let rows := store.entries.rows.reverse
    store.Reachable ∧ rows.Perm store.entries.rows
      ∧ store.sweepIn 1000 rows = store.sweep 1000
      ∧ (store.sweep 1000).store.statistics.evictions = 1
      ∧ store.invalidatePatternIn "AB" rows = store.invalidatePattern "AB"
      ∧ (store.invalidatePattern "AB").result = 2
      ∧ (store.invalidatePattern "AB").store.recency.keys = ["c"] := by
  intro store rows
  have hreachable : store.Reachable := reachable_after (.of_sum_le (by decide) (by decide))
  have hrows : rows.Perm store.entries.rows := List.reverse_perm _
  obtain ⟨hsweep, -, hevictions, hpattern, -⟩ := bulk_removals_exact hreachable 1000 "AB" hrows
  exact ⟨hreachable, hrows, hsweep, hevictions, hpattern, by decide +kernel, by decide +kernel⟩

end BoundedCache.Store
