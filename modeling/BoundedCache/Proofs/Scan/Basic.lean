import BoundedCache.Proofs.Store.Accounting
import Mathlib.Logic.Function.Iterate

namespace BoundedCache

/-!
# A cache without an order of use

`ScanStore` is the cache as its rules describe it, with nothing kept for speed: there is no order
of use and no running byte count.  Whenever an entry has to go, all entries are scanned for the one
with the least pair of the time and the tick of its latest use (`leastRecent?`), the bytes in use
are added up anew, and entries are dropped in bulk by filtering the table.

Its operations answer with the same replies and events as those of a `Store`, so the two can be
compared call by call.
-/

/-! ### The least recently used row -/

/-- Whether a row was used before another one: earlier, or at the same time under a smaller
    tick. -/
def IsOlder (row other : Row) : Prop :=
  row.2.lastAccessedAt < other.2.lastAccessedAt
    ∨ row.2.lastAccessedAt = other.2.lastAccessedAt ∧ row.2.tick < other.2.tick

instance (row other : Row) : Decidable (IsOlder row other) :=
  inferInstanceAs (Decidable (_ ∨ _))

/-- The oldest of some rows. -/
def leastRecent? : List Row → Option Row
  | [] => none
  | row :: rest =>
    match leastRecent? rest with
    | some other => if IsOlder other row then some other else some row
    | none => some row

theorem IsOlder.asymm {row other : Row} (h : IsOlder row other) : ¬ IsOlder other row := by
  unfold IsOlder at *
  omega

theorem leastRecent?_eq_none_iff (rows : List Row) : leastRecent? rows = none ↔ rows = [] := by
  cases rows with
  | nil => exact iff_of_true rfl rfl
  | cons row rest =>
    refine iff_of_false ?_ (List.cons_ne_nil _ _)
    unfold leastRecent?
    split
    · split <;> exact Option.some_ne_none _
    · exact Option.some_ne_none _

theorem mem_of_leastRecent? {rows : List Row} {row : Row} (h : leastRecent? rows = some row) :
    row ∈ rows := by
  induction rows with
  | nil => exact absurd h.symm (Option.some_ne_none _)
  | cons first rest ih =>
    unfold leastRecent? at h
    cases hrest : leastRecent? rest with
    | none =>
      rw [hrest, Option.some.injEq] at h
      exact h ▸ List.mem_cons_self
    | some other =>
      simp only [hrest] at h
      split at h
      · rw [hrest] at ih
        exact List.mem_cons_of_mem _ (ih h)
      · rw [Option.some.injEq] at h
        exact h ▸ List.mem_cons_self

/-- **The scan finds the oldest row** wherever it stands. -/
theorem leastRecent?_eq_some {rows : List Row} {row : Row} (hmem : row ∈ rows)
    (holdest : ∀ other ∈ rows, other ≠ row → IsOlder row other) :
    leastRecent? rows = some row := by
  induction rows with
  | nil => exact absurd hmem List.not_mem_nil
  | cons first rest ih =>
    unfold leastRecent?
    cases hrest : leastRecent? rest with
    | none =>
      rw [leastRecent?_eq_none_iff] at hrest
      rw [hrest, List.mem_singleton] at hmem
      rw [hmem]
    | some other =>
      have hother : other ∈ rest := mem_of_leastRecent? hrest
      by_cases hfirst : first = row
      · -- The oldest row stands first, so what the scan of the rest finds is younger or the same.
        subst hfirst
        by_cases hsame : other = first
        · simp only [hsame, ite_self]
        · have hyounger := holdest other (List.mem_cons_of_mem _ hother) hsame
          simp only [hyounger.asymm, if_false]
      · have hrow : row ∈ rest := (List.mem_cons.1 hmem).resolve_left (Ne.symm hfirst)
        have hfound := ih hrow fun other hother => holdest other (List.mem_cons_of_mem _ hother)
        rw [hrest, Option.some.injEq] at hfound
        subst hfound
        simp only [holdest first List.mem_cons_self hfirst, if_true]

/-! ### The cache -/

/-- A cache that finds the least recently used entry by a scan. -/
structure ScanStore where
  entries : Table Entry
  /-- The tick of the next insertion or successful read. -/
  next : Nat
  /-- The counters and the high-water mark; the extent is not noted. -/
  statistics : Statistics
  budget : Nat
  defaultTtl : Nat

/-- What an operation of such a cache gives. -/
structure ScanStep (α : Type) where
  result : α
  store : ScanStore
  events : List Event := []

/-- The same step with its result in another form. -/
def ScanStep.map {α β : Type} (f : α → β) (step : ScanStep α) : ScanStep β :=
  { result := f step.result, store := step.store, events := step.events }

namespace ScanStore

/-- An empty cache. -/
def new (budget defaultTtl : Nat) : ScanStore :=
  { entries := .empty, next := 1, statistics := {}, budget, defaultTtl }

/-- The bytes that the entries count for, added up. -/
def usedBytes (store : ScanStore) : Nat := totalSize store.entries.rows

/-- The statistics with the present extent of the cache. -/
def snapshot (store : ScanStore) : Statistics :=
  { store.statistics with
    size := store.entries.size, sizeBytes := store.usedBytes, maxSizeBytes := store.budget }

/-- The cache without the row of a key. -/
def erase (store : ScanStore) (key : String) : ScanStore :=
  { store with entries := store.entries.erase key }

/-- The cache with one more eviction counted. -/
def countEviction (store : ScanStore) : ScanStore :=
  { store with statistics := store.statistics.recordEviction }

/-! ### Reads -/

/-- Reads a key: an entry that has expired goes, as an eviction and a miss. -/
def read (store : ScanStore) (now : Nat) (key : String) :
    ScanStep (Option (Json.Payload × Nat)) :=
  match store.entries.find? key with
  | none => { result := none, store := { store with statistics := store.statistics.recordMiss } }
  | some entry =>
    if entry.expiresAt < now then
      { result := none
        store := { store.erase key with
          statistics := store.statistics.recordEviction.recordMiss } }
    else
      { result := some (entry.value, entry.expiresAt - now)
        store := { store with
          entries := store.entries.modify key (·.touch now store.next)
          next := Word.succWrap store.next
          statistics := store.statistics.recordHit } }

/-! ### Making room -/

/-- Evicts the oldest entry, again and again, until `incoming` further bytes fit or none is left;
    at most `rounds` times. -/
def evictRounds (incoming : Nat) : (rounds : Nat) → (store : ScanStore) → ScanStep Nat
  | 0, store => { result := 0, store }
  | rounds + 1, store =>
    if Word.addSat store.usedBytes incoming ≤ store.budget then { result := 0, store }
    else
      match leastRecent? store.entries.rows with
      | none => { result := 0, store }
      | some row =>
        let more := evictRounds incoming rounds (store.erase row.1).countEviction
        { more with
          result := more.result + 1, events := .evicted row.1 row.2.size :: more.events }

/-- Makes room for `incoming` bytes; a round for every entry is enough. -/
def evictUntilFits (store : ScanStore) (incoming : Nat) : ScanStep Nat :=
  evictRounds incoming store.entries.size store

/-- Stores a payload: an earlier payload of the key is released, room is made, and the new entry
    is inserted even if it does not fit. -/
def put (store : ScanStore) (now : Nat) (key : String) (value : Json.Payload) (ttl : Int) :
    ScanStep Unit :=
  let lifetime := if ttl ≤ 0 then store.defaultTtl else ttl.toNat
  let warnings :=
    if store.budget < value.size then [.oversized key value.size store.budget] else []
  let room := (store.erase key).evictUntilFits value.size
  let entries := room.store.entries.insert key (.new value value.size now lifetime room.store.next)
  { result := ()
    store := { room.store with
      entries
      next := Word.succWrap room.store.next
      statistics := { room.store.statistics with
        maxSizeObserved := max room.store.statistics.maxSizeObserved entries.size } }
    events := warnings ++ room.events }

/-- Sets the byte budget and makes the entries fit it. -/
def setBudget (store : ScanStore) (budget : Nat) : ScanStep Nat :=
  { store with budget }.evictUntilFits 0

/-- Sets each limit that is given. -/
def reconfigure (store : ScanStore) (budget defaultTtl : Option Nat) : ScanStep Limits :=
  let resized : ScanStep Nat := match budget with
    | some budget => store.setBudget budget
    | none => { result := 0, store }
  let store := { resized.store with defaultTtl := defaultTtl.getD resized.store.defaultTtl }
  { result := ⟨store.budget, store.defaultTtl, store.usedBytes, resized.result⟩
    store
    events := resized.events }

/-! ### Dropping entries -/

/-- Drops the entry of a key. -/
def invalidate (store : ScanStore) (key : String) : ScanStep Bool :=
  { result := store.entries.contains key, store := store.erase key }

/-- Drops the entries whose keys contain a pattern, where case does not matter. -/
def invalidatePattern (store : ScanStore) (pattern : String) : ScanStep Nat :=
  let isMatch (key : String) : Bool :=
    Text.contains (Text.lowercase pattern.toList) (Text.lowercase key.toList)
  { result := (store.entries.keys.filter isMatch).length
    store := { store with entries := store.entries.filterKeys fun key => !isMatch key } }

/-- Drops all entries. -/
def clear (store : ScanStore) : ScanStep Unit :=
  { result := (), store := { store with entries := .empty } }

/-- Takes away the entries that are due, each of them an eviction. -/
def sweep (store : ScanStore) (now : Nat) : ScanStep Nat :=
  let isDue (key : String) : Bool := (store.entries.find? key).any (·.isDue now)
  let count := (store.entries.keys.filter isDue).length
  { result := count
    store := { store with
      entries := store.entries.filterKeys fun key => !isDue key
      statistics := Statistics.recordEviction^[count] store.statistics } }

/-! ### Operations -/

/-- Sets the counters to 0. -/
def resetStatistics (store : ScanStore) : ScanStep Statistics :=
  let store := { store with statistics := store.statistics.resetCounters }
  { result := store.snapshot, store }

/-- Carries out an operation at a clock reading. -/
def apply (store : ScanStore) (now : Nat) : Operation → ScanStep Reply
  | .get key => (store.read now key).map fun found => .payload (found.map Prod.fst)
  | .getWithTtl key => (store.read now key).map .payloadWithTtl
  | .put key value ttl => (store.put now key value ttl).map fun _ => .done
  | .invalidate key => (store.invalidate key).map .flag
  | .invalidatePattern pattern => (store.invalidatePattern pattern).map .count
  | .clear => store.clear.map fun _ => .done
  | .setBudget bytes => (store.setBudget bytes).map .count
  | .setBudgetMegabytes megabytes =>
    (store.setBudget (Word.mulSat megabytes Store.megabyte)).map .count
  | .setDefaultTtl seconds => { result := .done, store := { store with defaultTtl := seconds } }
  | .reconfigure budget defaultTtl => (store.reconfigure budget defaultTtl).map .limits
  | .sweep => (store.sweep now).map .count
  | .statistics => { result := .statistics store.snapshot, store }
  | .resetStatistics => store.resetStatistics.map .statistics
  | .isEmpty => { result := .flag store.entries.isEmpty, store }
  | .hitCount key =>
    { result := .hitCount ((store.entries.find? key).map Entry.hitCount), store }

end ScanStore

end BoundedCache
