import BoundedCache.Proofs.Run.Queue
import BoundedCache.Proofs.Session.Trace

namespace BoundedCache

/-!
# The four records of a store agree

A store keeps the same facts in four places: the table, the tick index, the byte count and the noted
extent.  `Store.Sound` says that they agree, and `Session.sound_afterAll` that they do so after
whatever happens to a session, at whatever clock readings, as long as no word overflows.

`Store.isConsistent` is the check that the cache makes of itself.  It compares the byte count and
two lengths only, so it follows from soundness (`Sound.isConsistent`) but does not imply it.
-/

namespace Store

/-- **The representation invariant.** -/
structure Sound (store : Store) : Prop where
  /-- The index is the set of pairs of a tick and a key that the entries give. -/
  mem_order_iff : ∀ tick key, (tick, key) ∈ store.recency.order
    ↔ ∃ entry, store.entries.find? key = some entry ∧ entry.tick = tick
  /-- No key is indexed twice. -/
  nodup_keys : store.recency.keys.Nodup
  /-- The index is in ascending order of ticks, and no tick is there twice. -/
  ascending : store.recency.order.Pairwise fun row later => row.1 < later.1
  /-- The next tick is greater than every tick in use. -/
  tick_lt_next : ∀ key entry, store.entries.find? key = some entry →
    entry.tick < store.recency.next
  /-- The byte count is the exact sum. -/
  used_eq : store.usedBytes = store.heldBytes
  /-- Every entry counts for the bytes of its payload's text. -/
  size_eq : ∀ key entry, store.entries.find? key = some entry → entry.size = entry.value.size
  /-- The noted extent is the number of entries. -/
  extent_eq : store.statistics.size = store.size

variable {store : Store} {queue : List Row}

theorem Queues.sound (h : store.Queues queue) (hahead : store.recency.Ahead)
    (haccounted : store.Accounted) : store.Sound where
  mem_order_iff := by
    intro tick key
    rw [h.order_eq, List.mem_map]
    constructor
    · rintro ⟨row, hrow, heq⟩
      rw [Prod.mk.injEq] at heq
      obtain ⟨rfl, rfl⟩ := heq
      exact ⟨row.2, (h.mem_iff _ _).1 hrow, rfl⟩
    · rintro ⟨entry, hfind, rfl⟩
      exact ⟨(key, entry), (h.mem_iff _ _).2 hfind, rfl⟩
  nodup_keys := h.keys_eq ▸ h.nodup_keys
  ascending := by
    rw [h.order_eq]
    exact List.pairwise_map.2 h.ascending
  tick_lt_next := fun key entry hfind => h.tick_lt_next hahead ((h.mem_iff key entry).2 hfind)
  used_eq := haccounted.used_eq
  size_eq := haccounted.size_eq
  extent_eq := haccounted.extent_eq

/-! ### The check -/

theorem foldl_addWrap {rows : List Row} {total : Nat} (hfits : total + totalSize rows ≤ Word.top) :
    rows.foldl (fun n row => Word.addWrap n row.2.size) total = total + totalSize rows := by
  induction rows generalizing total with
  | nil => rfl
  | cons row rows ih =>
    rw [totalSize_cons] at hfits
    rw [List.foldl_cons, Word.addWrap_eq_add (by omega), ih (by omega), totalSize_cons]
    omega

/-- The index is as long as the table. -/
theorem Sound.size_eq_size (h : store.Sound) : store.recency.size = store.size := by
  have hperm : store.recency.keys.Perm store.entries.keys := by
    refine (List.perm_ext_iff_of_nodup h.nodup_keys store.entries.nodup).2 fun key => ?_
    rw [← Table.keys, Table.mem_keys_iff, Recency.keys, List.mem_map]
    constructor
    · rintro ⟨row, hrow, rfl⟩
      obtain ⟨entry, hfind, -⟩ := (h.mem_order_iff row.1 row.2).1 hrow
      exact ⟨entry, hfind⟩
    · rintro ⟨entry, hfind⟩
      exact ⟨(entry.tick, key), (h.mem_order_iff _ _).2 ⟨entry, hfind, rfl⟩, rfl⟩
  have hlength := hperm.length_eq
  rwa [Recency.keys, Table.keys, List.length_map, List.length_map] at hlength

/-- **A sound store passes its own check.** -/
theorem Sound.isConsistent (h : store.Sound) (hheld : store.heldBytes ≤ Word.top) :
    store.isConsistent = true := by
  have hsum : store.entries.rows.foldl (fun n row => Word.addWrap n row.2.size) 0
      = store.usedBytes := by
    rw [foldl_addWrap (by rw [Nat.zero_add]; exact hheld), Nat.zero_add, h.used_eq]
    rfl
  rw [Store.isConsistent, hsum, h.size_eq_size, beq_self_eq_true, beq_self_eq_true, Bool.and_self]

/-! ### Runs -/

theorem sound_after {budget defaultTtl : Nat} {calls : List Call}
    (h : (Store.new budget defaultTtl).NoOverflow calls) :
    ((Store.new budget defaultTtl).after calls).Sound := by
  obtain ⟨queue, hqueue⟩ := exists_tracked budget defaultTtl calls h.ticks
  have haccounted := accounted_after (accounted_new budget defaultTtl) calls h.bytes
  exact hqueue.queues.sound hqueue.ahead haccounted

end Store

/-! ### Sessions -/

namespace Session

/-- A session whose cache is fresh. -/
def withFresh (session : Session) (budget defaultTtl : Nat) : Session :=
  { session with store := .new budget defaultTtl }

/-- **Whatever happens to a session with a fresh cache, the records of its store agree**: through
    any handles, requests and sweepers, in any order and at any clock readings. -/
theorem sound_afterAll (session : Session) (budget defaultTtl : Nat) (incidents : List Incident)
    (hfits : (Store.new budget defaultTtl).NoOverflow
      ((session.withFresh budget defaultTtl).trace incidents)) :
    ((session.withFresh budget defaultTtl).afterAll incidents).store.Sound
      ∧ ((session.withFresh budget defaultTtl).afterAll incidents).store.isConsistent = true := by
  have hsound := Store.sound_after hfits
  have hheld := hfits.bytes _ (List.prefix_refl _)
  rw [store_afterAll]
  exact ⟨hsound, hsound.isConsistent hheld⟩

/-- A session in which the clock goes back, room is made, a client resets the counters and a sweeper
    ticks. -/
theorem sound_afterAll_backwards :
    let session : Session := { store := .standard, clock := 0, sweepers := [.spawn 0 10] }
    let incidents : List Incident :=
      [⟨1000, .action "" (.operate 0 (.put "a" ⟨[]⟩ 5))⟩,
        ⟨900, .action "" (.operate 0 (.getWithTtl "a"))⟩,
        ⟨950, .action "" (.operate 0 (.put "b" ⟨[]⟩ 5))⟩,
        ⟨10, .action "" (.send 0 { method := "POST", path := "/stats/reset" })⟩,
        ⟨7000, .tick 0⟩]
    (Store.new 3 60).NoOverflow ((session.withFresh 3 60).trace incidents)
      ∧ ((session.withFresh 3 60).afterAll incidents).store.Sound
      ∧ ((session.withFresh 3 60).afterAll incidents).store.isConsistent = true := by
  intro session incidents
  have hfits : (Store.new 3 60).NoOverflow ((session.withFresh 3 60).trace incidents) :=
    .of_sum_le (by decide) (by decide)
  exact ⟨hfits, sound_afterAll session 3 60 incidents hfits⟩

end Session

end BoundedCache
