import BoundedCache.Proofs.Store.Advance
import BoundedCache.Proofs.Store.Contents
import BoundedCache.Proofs.Store.Counters

namespace BoundedCache

/-!
# Removals in bulk

A sweep and the invalidation of a pattern have one shape, `Store.removeKind`: the keys of the rows
of a kind are collected in the order in which the table enumerates its rows, and then they are
removed one after another.

* `Removal` — what both ways to remove a key have in common, `drop` and `expel`;
* `Removal.removeKind_perm` — removals commute, so any order of the rows gives the same step;
* `Removal.discards` — the rows of the kind are gone and all others are as they were
  (`Store.Discards`).
-/

theorem Word.subWrap_right_comm (a b c : Nat) :
    subWrap (subWrap a b) c = subWrap (subWrap a c) b := by
  simp only [subWrap, modulus]
  omega

theorem Table.erase_comm {α : Type} (table : Table α) (key other : String) :
    (table.erase key).erase other = (table.erase other).erase key :=
  eq_of_rows_eq (List.filter_comm _ _ _)

theorem Recency.remove_comm (recency : Recency) (tick other : Nat) :
    (recency.remove tick).remove other = (recency.remove other).remove tick :=
  congrArg (Recency.mk · recency.next) (List.filter_comm _ _ _)

namespace Store

variable {store : Store} {queue : List Row} {remove : Store → String → Store} {kind : Row → Bool}

/-- Removes the keys of the rows of a kind, as they are found in `rows`; the result is the number of
    keys that were found. -/
def removeKind (store : Store) (remove : Store → String → Store) (kind : Row → Bool)
    (rows : List Row) : Step Nat :=
  let keys := (rows.filter kind).map Prod.fst
  { result := keys.length, store := keys.foldl remove store }

/-- A sweep, for any order in which the rows are enumerated. -/
def sweepIn (store : Store) (now : Nat) (rows : List Row) : Step Nat :=
  store.removeKind expel (fun row => row.2.isDue now) rows

/-- The invalidation of a pattern, for any order in which the rows are enumerated. -/
def invalidatePatternIn (store : Store) (pattern : String) (rows : List Row) : Step Nat :=
  store.removeKind drop (fun row =>
    Text.contains (Text.lowercase pattern.toList) (Text.lowercase row.1.toList)) rows

theorem sweep_eq (store : Store) (now : Nat) :
    store.sweep now = store.sweepIn now store.entries.rows := rfl

theorem invalidatePattern_eq (store : Store) (pattern : String) :
    store.invalidatePattern pattern = store.invalidatePatternIn pattern store.entries.rows := by
  simp only [invalidatePattern, keysMatching, Table.keys, List.filter_map]
  rfl

/-! ### Removals -/

/-- A way to remove the row of a key. -/
structure Removal (remove : Store → String → Store) : Prop where
  entries_eq : ∀ store key, (remove store key).entries = store.entries.erase key
  right_comm : ∀ store key other,
    remove (remove store key) other = remove (remove store other) key
  queues : ∀ {store : Store} {queue : List Row}, store.Queues queue → ∀ key,
    (remove store key).Queues (queue.filter fun row => row.1 != key)
  frees : ∀ store key, Frees store (remove store key)
  next_eq : ∀ store key, (remove store key).recency.next = store.recency.next
  settings_eq : ∀ store key, (remove store key).settings = store.settings
  record_eq : ∀ store key, (remove store key).record = store.record

theorem without_right_comm (store : Store) (key other : String) (entry found : Entry) :
    (store.without key entry).without other found
      = (store.without other found).without key entry := by
  simp only [without, Table.erase_comm store.entries key other,
    Recency.remove_comm store.recency entry.tick found.tick,
    Word.subWrap_right_comm store.usedBytes entry.size found.size]
  rfl

/-- What takes the row of a key away, if it is there, and then notes something that no removal looks
    at, can be done in any order. -/
theorem right_comm_of_without (finish : Store → Store)
    (hnone : ∀ {store : Store} {key}, store.entries.find? key = none → remove store key = store)
    (hsome : ∀ {store : Store} {key entry}, store.entries.find? key = some entry →
      remove store key = finish (store.without key entry))
    (hfinish : ∀ store key entry, (finish store).without key entry
      = finish (store.without key entry))
    (hentries : ∀ store, (finish store).entries = store.entries)
    (store : Store) (key other : String) :
    remove (remove store key) other = remove (remove store other) key := by
  by_cases hkey : other = key
  · rw [hkey]
  -- The removal of one key is not seen at the other.
  have hfind {first second : String} (hne : second ≠ first) {entry : Entry}
      (hfirst : store.entries.find? first = some entry) :
      (remove store first).entries.find? second = store.entries.find? second := by
    rw [hsome hfirst, hentries]
    show (store.entries.erase first).find? second = _
    rw [Table.find?_erase, if_neg hne]
  cases hthis : store.entries.find? key with
  | none =>
    rw [hnone hthis]
    cases hother : store.entries.find? other with
    | none => rw [hnone hother, hnone hthis]
    | some found => rw [hnone ((hfind (Ne.symm hkey) hother).trans hthis)]
  | some entry =>
    cases hother : store.entries.find? other with
    | none => rw [hnone hother, hnone ((hfind hkey hthis).trans hother)]
    | some found =>
      rw [hsome ((hfind hkey hthis).trans hother), hsome hthis,
        hsome ((hfind (Ne.symm hkey) hother).trans hthis), hsome hother, hfinish, hfinish,
        without_right_comm]

theorem removal_drop : Removal drop where
  entries_eq store key := by
    cases hfind : store.entries.find? key with
    | none => rw [drop_of_find?_eq_none hfind, Table.erase_of_find?_eq_none hfind]
    | some entry => rw [drop_of_find? hfind]; rfl
  right_comm := right_comm_of_without id drop_of_find?_eq_none drop_of_find? (fun _ _ _ => rfl)
    fun _ => rfl
  queues h key := h.drop key
  frees := frees_drop
  next_eq := next_drop
  settings_eq := settings_drop
  record_eq := record_drop

theorem removal_expel : Removal expel where
  entries_eq store key := by
    cases hfind : store.entries.find? key with
    | none => rw [expel_of_find?_eq_none hfind, Table.erase_of_find?_eq_none hfind]
    | some entry => rw [expel_of_find? hfind]; rfl
  right_comm := right_comm_of_without countEviction expel_of_find?_eq_none expel_of_find?
    (fun _ _ _ => rfl) fun _ => rfl
  queues h key := h.expel key
  frees := frees_expel
  next_eq := next_expel
  settings_eq := settings_expel
  record_eq := record_expel

namespace Removal

/-- **Any order of the rows gives the same step.** -/
theorem removeKind_perm (h : Removal remove) (store : Store) (kind : Row → Bool)
    {rows rows' : List Row} (hrows : rows.Perm rows') :
    store.removeKind remove kind rows = store.removeKind remove kind rows' := by
  have hkeys := (hrows.filter kind).map Prod.fst
  have hstore := hkeys.foldl_eq' (f := remove) (fun key _ other _ store =>
    h.right_comm store key other) store
  rw [removeKind, removeKind, hkeys.length_eq, hstore]

theorem entries_foldl (h : Removal remove) (keys : List String) (store : Store) :
    (keys.foldl remove store).entries = store.entries.filterKeys fun key => !keys.contains key := by
  rw [← Table.foldl_erase]
  induction keys generalizing store with
  | nil => rfl
  | cons key keys ih => rw [List.foldl_cons, ih, h.entries_eq, List.foldl_cons]

/-- The rows of the kind go, and the others stay as they are. -/
theorem rows_removeKind (h : Removal remove) (store : Store) (kind : Row → Bool) :
    (store.removeKind remove kind store.entries.rows).store.entries.rows
      = store.entries.rows.filter fun row => !kind row := by
  have hentries := h.entries_foldl ((store.entries.rows.filter kind).map Prod.fst) store
  rw [removeKind, hentries]
  refine List.filter_congr fun row hrow => congrArg _ ?_
  exact contains_keys_of_kind store.entries.nodup kind hrow

end Removal

/-! ### What is left -/

/-- **The rows of a kind are gone**, and nothing else has changed but perhaps the counter of
    evictions. -/
structure Discards (store : Store) (kind : Row → Bool) (step : Step Nat) : Prop where
  rows_eq : step.store.entries.rows = store.entries.rows.filter fun row => !kind row
  /-- The order of use is the same without the keys that are gone. -/
  order_eq : step.store.recency.order
    = store.recency.order.filter fun ticked => step.store.entries.contains ticked.2
  next_eq : step.store.recency.next = store.recency.next
  /-- The result is the number of rows that are gone. -/
  result_add : step.result + step.store.size = store.size
  /-- The byte count drops by their sizes. -/
  bytes_add : step.store.usedBytes + totalSize (store.entries.rows.filter kind) = store.usedBytes
  settings_eq : step.store.settings = store.settings
  record_eq : step.store.record = store.record
  events_eq : step.events = []

theorem totalSize_filter_add (kind : Row → Bool) (rows : List Row) :
    totalSize (rows.filter fun row => !kind row) + totalSize (rows.filter kind)
      = totalSize rows := by
  rw [Nat.add_comm, ← totalSize_append]
  exact totalSize_perm (List.filter_append_perm kind rows)

/-- **Removals in bulk are exact.** -/
theorem Removal.discards (h : Removal remove) (hqueue : store.Queues queue)
    (haccounted : store.Accounted) (hheld : store.heldBytes ≤ Word.top) (kind : Row → Bool) :
    store.Discards kind (store.removeKind remove kind store.entries.rows) := by
  let keys := (store.entries.rows.filter kind).map Prod.fst
  let left := keys.foldl remove store
  have hentries : left.entries = store.entries.filterKeys fun key => !keys.contains key :=
    h.entries_foldl keys store
  have hrows : left.entries.rows = store.entries.rows.filter fun row => !kind row :=
    h.rows_removeKind store kind
  have hleft : left.Accounted := (frees_foldl h.frees keys store).accounted hheld haccounted
  refine ⟨hrows, ?_, foldl_eq (·.recency.next) h.next_eq keys store, ?_, ?_,
    foldl_eq settings h.settings_eq keys store, foldl_eq record h.record_eq keys store, rfl⟩
  · have hlater := (hqueue.foldl h.queues keys).order_eq
    -- A key of the queue is left iff it was not collected.
    have hcontains : ∀ row ∈ queue, (!keys.contains row.1) = left.entries.contains row.1 := by
      intro row hrow
      rw [hentries, Table.contains, Table.find?_filterKeys, (hqueue.mem_iff row.1 row.2).1 hrow]
      cases keys.contains row.1 <;> rfl
    rw [List.filter_congr hcontains] at hlater
    show left.recency.order = _
    rw [hlater, hqueue.order_eq, List.filter_map]
    rfl
  · show keys.length + left.entries.rows.length = store.entries.rows.length
    rw [hrows, List.length_map]
    exact (List.length_eq_length_filter_add kind).symm
  · have hsize := totalSize_filter_add kind store.entries.rows
    show left.usedBytes + _ = _
    rw [hleft.used_eq, heldBytes, hrows, hsize, haccounted.used_eq, heldBytes]

/-- A sweep counts what it takes away. -/
theorem evictions_sweep (store : Store) (now : Nat)
    (htop : store.statistics.evictions + store.size ≤ Word.top)
    (hresult : (store.sweep now).result + (store.sweep now).store.size = store.size) :
    (store.sweep now).store.statistics.evictions
      = store.statistics.evictions + (store.sweep now).result := by
  have hevicts : store.Evicts (store.sweep now).store := evicts_foldl _ store
  have hgone : store.size - (store.sweep now).store.size = (store.sweep now).result := by omega
  rw [← hgone]
  exact hevicts.counted (by omega)

end Store

end BoundedCache
