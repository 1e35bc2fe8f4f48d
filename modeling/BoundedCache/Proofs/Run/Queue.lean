import BoundedCache.Proofs.Run.Basic
import BoundedCache.Proofs.Store.Advance

namespace BoundedCache

/-!
# The queue along a run

`Tracked start calls queue` ties the queue of the store at the end of a run to the history of the
run: the queue is in the order of the latest uses, every use has drawn a tick, and the evictions
that were counted do not outnumber the entries that were stored.  `exists_tracked` is the
invariant for all runs without overflow, and `Tracked.lineup_eq` says that the queue is what the
history tells.
-/

namespace Store

/-- The store after a run with its queue, seen from the history of the run. -/
structure Tracked (start : Store) (calls : List Call) (queue : List Row) : Prop where
  queues : (start.after calls).Queues queue
  ahead : (start.after calls).recency.Ahead
  next_eq : (start.after calls).recency.next = (start.usedKeys calls).length + 1
  keys_sublist : (queue.map Prod.fst).Sublist (start.usedKeys calls).dedup
  evictions_le : (start.after calls).statistics.evictions + (start.after calls).size
    ≤ (start.usedKeys calls).length

theorem tracked_nil (budget defaultTtl : Nat) : (Store.new budget defaultTtl).Tracked [] [] where
  queues := queues_new budget defaultTtl
  ahead := fun _ hrow => absurd hrow List.not_mem_nil
  next_eq := rfl
  keys_sublist := List.nil_sublist _
  evictions_le := Nat.le_refl _

/-! ### One more call -/

variable {start : Store} {calls : List Call} {queue : List Row}

theorem Queues.call {store : Store} (h : store.Queues queue) (hahead : store.recency.Ahead)
    (call : Call) :
    ∃ kept newest, store.Advance queue (call.operation.usedKey? (store.call call).result)
      (store.call call).store kept newest := h.apply hahead call.now call.operation

theorem Tracked.concat (h : start.Tracked calls queue)
    (hticks : (start.usedKeys calls).length < Word.top) (call : Call)
    (hticks' : (start.usedKeys (calls ++ [call])).length < Word.top) :
    ∃ queue', start.Tracked (calls ++ [call]) queue' := by
  obtain ⟨kept, newest, hadvance⟩ := h.queues.call h.ahead call
  have hused := start.usedKeys_concat calls call
  have hafter := start.after_concat calls call
  have hnext := h.next_eq
  rw [hused, List.length_append] at hticks'
  have hnext' : ((start.after calls).call call).store.recency.next
      = (start.after calls).recency.next
        + (call.operation.usedKey? ((start.after calls).call call).result).toList.length := by
    rw [hadvance.next_eq]
    cases hkey : call.operation.usedKey? ((start.after calls).call call).result with
    | none => rfl
    | some key =>
      rw [hkey, Option.toList_some, List.length_singleton] at hticks'
      rw [Option.isSome_some, if_pos rfl, Word.succWrap, Word.addWrap_eq_add (by omega)]
      rfl
  refine ⟨kept ++ newest, ?_, ?_, ?_, ?_, ?_⟩
  · rw [hafter]
    exact hadvance.queues
  · rw [hafter]
    exact hadvance.ahead h.queues h.ahead hnext'
  · rw [hafter, hnext', hused, List.length_append]
    omega
  · rw [hused]
    exact hadvance.keys_sublist h.keys_sublist
  · have hle := h.evictions_le
    have hstep := evictions_apply_le (start.after calls) call.now call.operation (by omega)
    rw [hafter, hused, List.length_append]
    exact Nat.le_trans hstep (Nat.add_le_add_right hle _)

/-- **Every run without overflow is tracked.** -/
theorem exists_tracked (budget defaultTtl : Nat) (calls : List Call)
    (hticks : ((Store.new budget defaultTtl).usedKeys calls).length < Word.top) :
    ∃ queue, (Store.new budget defaultTtl).Tracked calls queue := by
  -- Induction from the end of the run: the last call works on a store that is tracked already.
  induction calls using List.reverseRecOn with
  | nil => exact ⟨[], tracked_nil budget defaultTtl⟩
  | append_singleton calls call ih =>
    have hbefore : ((Store.new budget defaultTtl).usedKeys calls).length < Word.top := by
      rw [usedKeys_append, List.length_append] at hticks
      omega
    obtain ⟨queue, hqueue⟩ := ih hbefore
    exact hqueue.concat hbefore call hticks

/-! ### What the history tells -/

/-- **The queue is the lineup of the run**, as soon as it stands in the order of the latest uses. -/
theorem Queues.lineup_eq (h : (start.after calls).Queues queue)
    (hkeys : (queue.map Prod.fst).Sublist (start.usedKeys calls).dedup) :
    start.lineup calls = queue := by
  let look (key : String) : Option Row :=
    ((start.after calls).entries.find? key).map fun entry => (key, entry)
  have hlook : ∀ row ∈ queue, look row.1 = some row := by
    intro row hrow
    simp only [look, (h.mem_iff row.1 row.2).1 hrow, Option.map_some]
  have hstored : ∀ key, (look key).isSome → key ∈ queue.map Prod.fst := by
    intro key hkey
    rw [Option.isSome_map, Option.isSome_iff_exists] at hkey
    obtain ⟨entry, hentry⟩ := hkey
    exact List.mem_map.2 ⟨(key, entry), (h.mem_iff _ _).2 hentry, rfl⟩
  -- Used keys that are not stored drop out; what is left are the keys of the queue in its order.
  show (start.usedKeys calls).dedup.filterMap look = queue
  calc (start.usedKeys calls).dedup.filterMap look
      = ((start.usedKeys calls).dedup.filter fun key =>
          decide (key ∈ queue.map Prod.fst)).filterMap look := by
        rw [List.filterMap_filter]
        refine List.filterMap_congr fun key _ => ?_
        by_cases hkey : key ∈ queue.map Prod.fst
        · simp [hkey]
        · have hnone : look key = none :=
            Option.not_isSome_iff_eq_none.1 fun h => hkey (hstored key h)
          simp [hkey, hnone]
    _ = (queue.map Prod.fst).filterMap look := by
        rw [← eq_filter_of_sublist hkeys (List.nodup_dedup _)]
    _ = queue.filterMap some := by
        rw [List.filterMap_map]
        exact List.filterMap_congr hlook
    _ = queue := List.filterMap_some

theorem Tracked.lineup_eq (h : start.Tracked calls queue) : start.lineup calls = queue :=
  h.queues.lineup_eq h.keys_sublist

/-- One more call needs no further tick to be read off the history. -/
theorem Tracked.lineup_concat (h : start.Tracked calls queue) (call : Call)
    {kept newest : List Row}
    (hadvance : (start.after calls).Advance queue
      (call.operation.usedKey? ((start.after calls).call call).result)
      ((start.after calls).call call).store kept newest) :
    start.lineup (calls ++ [call]) = kept ++ newest := by
  refine Queues.lineup_eq ?_ ?_
  · rw [after_concat]
    exact hadvance.queues
  · rw [usedKeys_concat]
    exact hadvance.keys_sublist h.keys_sublist

end Store

end BoundedCache
