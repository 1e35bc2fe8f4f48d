import BoundedCache.Proofs.Run.Queue
import BoundedCache.Proofs.Store.Descent

namespace BoundedCache

/-!
# The order of use and the clock

The queue of a store stands in the order of ticks.  While the clock does not go back, it stands in
the order of the times of the latest uses too (`Chronological`): every operation stamps the row that
it uses with the present reading (`Advance.stamped`), and all other rows keep their times.  Several
uses at one reading get the same time and different ticks, so the times need not ascend strictly.
-/

/-- A queue in the order of times, none of them after `now`. -/
structure Chronological (queue : List Row) (now : Nat) : Prop where
  ordered : queue.Pairwise fun row later => row.2.lastAccessedAt ≤ later.2.lastAccessedAt
  past : ∀ row ∈ queue, row.2.lastAccessedAt ≤ now

theorem chronological_nil (now : Nat) : Chronological [] now :=
  ⟨.nil, fun _ hrow => absurd hrow List.not_mem_nil⟩

theorem Chronological.mono {queue : List Row} {now later : Nat} (h : Chronological queue now)
    (hle : now ≤ later) : Chronological queue later :=
  ⟨h.ordered, fun row hrow => Nat.le_trans (h.past row hrow) hle⟩

namespace Store

variable {store : Store} {queue : List Row}

/-! ### One more operation -/

/-- A row that is appended under the next tick is stamped with the present reading. -/
theorem Advance.stamped {now : Nat} {operation : Operation} {used : Option String}
    {kept newest : List Row} (hqueue : store.Queues queue) (hahead : store.recency.Ahead)
    (h : store.Advance queue used (store.apply now operation).store kept newest) {row : Row}
    (hrow : row ∈ newest) : row.2.lastAccessedAt = now := by
  have hfind := (h.queues.mem_iff row.1 row.2).1 (List.mem_append_right _ hrow)
  refine (descends_apply hfind).lastAccessedAt_eq.resolve_left fun hbefore => ?_
  -- A row from before stands under an earlier tick than the next one.
  have hearlier := hqueue.tick_lt_next hahead ((hqueue.mem_iff row.1 row.2).2 hbefore)
  have hticked : (row.2.tick, row.1) ∈ newest.map fun row => (row.2.tick, row.1) :=
    List.mem_map_of_mem hrow
  rw [h.newest_eq, List.mem_map] at hticked
  obtain ⟨key, -, hkey⟩ := hticked
  rw [Prod.mk.injEq] at hkey
  exact absurd hkey.1 (Nat.ne_of_gt hearlier)

theorem Chronological.advance {now : Nat} {operation : Operation} {used : Option String}
    {kept newest : List Row} (hchron : Chronological queue now) (hqueue : store.Queues queue)
    (hahead : store.recency.Ahead)
    (h : store.Advance queue used (store.apply now operation).store kept newest) :
    Chronological (kept ++ newest) now where
  ordered := by
    refine List.pairwise_append.2 ⟨hchron.ordered.sublist h.kept_sublist, ?_, ?_⟩
    · refine List.pairwise_of_forall_mem_list fun row hrow later hlater => ?_
      rw [h.stamped hqueue hahead hrow, h.stamped hqueue hahead hlater]
    · intro row hrow later hlater
      rw [h.stamped hqueue hahead hlater]
      exact hchron.past row (h.kept_sublist.subset hrow)
  past := by
    intro row hrow
    rcases List.mem_append.1 hrow with hkept | hnewest
    · exact hchron.past row (h.kept_sublist.subset hkept)
    · exact Nat.le_of_eq (h.stamped hqueue hahead hnewest)

/-! ### Runs -/

/-- **While the clock does not go back, the lineup stands in the order of times.** -/
theorem chronological_lineup (budget defaultTtl : Nat) {calls : List Call}
    (hclock : calls.Pairwise fun call later => call.now ≤ later.now)
    (hticks : ((Store.new budget defaultTtl).usedKeys calls).length < Word.top) {now : Nat}
    (hnow : ∀ call ∈ calls, call.now ≤ now) :
    Chronological ((Store.new budget defaultTtl).lineup calls) now := by
  induction calls using List.reverseRecOn generalizing now with
  | nil => exact chronological_nil now
  | append_singleton calls call ih =>
    rw [List.pairwise_append] at hclock
    obtain ⟨hcalls, -, hlast⟩ := hclock
    have hbefore : ((Store.new budget defaultTtl).usedKeys calls).length < Word.top := by
      rw [usedKeys_append, List.length_append] at hticks
      omega
    obtain ⟨queue, hqueue⟩ := exists_tracked budget defaultTtl calls hbefore
    obtain ⟨kept, newest, hadvance⟩ := hqueue.queues.call hqueue.ahead call
    have hchron := ih hcalls hbefore fun other hother =>
      hlast other hother call (List.mem_singleton_self _)
    rw [hqueue.lineup_eq] at hchron
    rw [hqueue.lineup_concat call hadvance]
    exact (Chronological.advance hchron hqueue.queues hqueue.ahead hadvance).mono
      (hnow call (List.mem_append_right _ (List.mem_singleton_self _)))

end Store

end BoundedCache
