import BoundedCache.Store.Eviction
import BoundedCache.Text.Lowercase

namespace BoundedCache

/-!
# Operating on a store

The operations of the cache, each as a function on a store, and all of them together as the type
`Operation` with `Store.apply`.  Operations that depend on the time take a clock reading `now`.
-/

/-- The limits in force after they were changed. -/
structure Limits where
  budget : Nat
  defaultTtl : Nat
  /-- The bytes that are still in use. -/
  usedBytes : Nat
  /-- The entries that had to go. -/
  evicted : Nat
  deriving DecidableEq, Repr

namespace Store

/-! ### Reading and writing -/

/-- The payload of a key with the milliseconds that it has left.  A successful read marks the key as
    used; an entry that has expired goes, as an eviction and a miss. -/
def read (store : Store) (now : Nat) (key : String) : Step (Option (Json.Payload × Nat)) :=
  match store.entries.find? key with
  | none => { result := none, store := { store with statistics := store.statistics.recordMiss } }
  | some entry =>
    if entry.isExpired now then
      let store := store.drop key
      { result := none
        store := { store with statistics := store.statistics.recordEviction.recordMiss } }
    else
      let (tick, recency) := store.recency.touch key (some entry.tick)
      { result := some (entry.value, entry.remaining now)
        store := { store with
          recency
          entries := store.entries.modify key (·.touch now tick)
          statistics := store.statistics.recordHit } }

/-- The seconds that a payload is to live which is stored with the time to live `ttl`. -/
def effectiveTtl (store : Store) (ttl : Int) : Nat :=
  if ttl ≤ 0 then store.defaultTtl else ttl.toNat

/-- Stores a payload that counts for `size` bytes.  An earlier payload of the key is released first
    and is no eviction; then room is made, but a payload larger than the budget is stored all the
    same. -/
def putSized (store : Store) (now : Nat) (key : String) (value : Json.Payload) (size : Nat)
    (ttl : Int) : Step Unit :=
  let lifetime := store.effectiveTtl ttl
  let released := store.drop key
  let warnings := if released.budget < size then [Event.oversized key size released.budget] else []
  let room := released.evictUntilFits size
  let (tick, recency) := room.store.recency.touch key none
  let entries := room.store.entries.insert key (.new value size now lifetime tick)
  { result := ()
    store := { room.store with
      recency, entries
      usedBytes := Word.addWrap room.store.usedBytes size
      statistics := room.store.statistics.recordInsert entries.size }
    events := warnings ++ room.events }

/-- Stores a payload, which counts for the bytes of its compact text. -/
def put (store : Store) (now : Nat) (key : String) (value : Json.Payload) (ttl : Int) : Step Unit :=
  store.putSized now key value value.size ttl

/-! ### Dropping entries -/

/-- Drops the entry of a key; the result says whether there was one. -/
def invalidate (store : Store) (key : String) : Step Bool :=
  { result := store.entries.contains key, store := store.drop key }

/-- Drops the entries of several keys. -/
def dropAll (store : Store) (keys : List String) : Store := keys.foldl drop store

/-- The stored keys that contain a pattern, where case does not matter. -/
def keysMatching (store : Store) (pattern : String) : List String :=
  let part := Text.lowercase pattern.toList
  store.entries.keys.filter fun key => Text.contains part (Text.lowercase key.toList)

/-- Drops the entries whose keys contain a pattern; the result is their number. -/
def invalidatePattern (store : Store) (pattern : String) : Step Nat :=
  let keys := store.keysMatching pattern
  { result := keys.length, store := store.dropAll keys }

/-- Drops all entries; counters and ticks go on from where they are. -/
def clear (store : Store) : Step Unit :=
  { result := ()
    store := { store with
      entries := .empty
      recency := store.recency.clear
      usedBytes := 0
      statistics := store.statistics.setSize 0 } }

/-- The stored keys whose entries are due at a reading. -/
def keysDue (store : Store) (now : Nat) : List String :=
  (store.entries.rows.filter fun row => row.2.isDue now).map Prod.fst

/-- Takes away the entries that are due, each of them an eviction; the result is their number. -/
def sweep (store : Store) (now : Nat) : Step Nat :=
  let keys := store.keysDue now
  { result := keys.length, store := keys.foldl expel store }

/-! ### Limits and statistics -/

/-- Sets the byte budget and makes the entries fit it; the result is the number of evictions. -/
def setBudget (store : Store) (budget : Nat) : Step Nat := { store with budget }.evictUntilFits 0

/-- Sets the byte budget in megabytes. -/
def setBudgetMegabytes (store : Store) (megabytes : Nat) : Step Nat :=
  store.setBudget (Word.mulSat megabytes megabyte)

/-- Sets the time to live of entries that will be stored without one. -/
def setDefaultTtl (store : Store) (defaultTtl : Nat) : Step Unit :=
  { result := (), store := { store with defaultTtl } }

/-- Sets each limit that is given. -/
def reconfigure (store : Store) (budget defaultTtl : Option Nat) : Step Limits :=
  let resized : Step Nat := match budget with
    | some budget => store.setBudget budget
    | none => { result := 0, store }
  let store := { resized.store with defaultTtl := defaultTtl.getD resized.store.defaultTtl }
  { result := ⟨store.budget, store.defaultTtl, store.usedBytes, resized.result⟩
    store
    events := resized.events }

/-- Sets the counters to 0; the result is the snapshot after that. -/
def resetStatistics (store : Store) : Step Statistics :=
  let store := { store with statistics := store.statistics.resetCounters }
  { result := store.snapshot, store }

end Store

/-! ### Operations as data -/

/-- An operation of the cache. -/
inductive Operation
  | get (key : String)
  | getWithTtl (key : String)
  | put (key : String) (value : Json.Payload) (ttl : Int)
  | invalidate (key : String)
  | invalidatePattern (pattern : String)
  | clear
  | setBudget (bytes : Nat)
  | setBudgetMegabytes (megabytes : Nat)
  | setDefaultTtl (seconds : Nat)
  | reconfigure (budget defaultTtl : Option Nat)
  | sweep
  | statistics
  | resetStatistics
  | isEmpty
  | hitCount (key : String)

/-- The result of an operation. -/
inductive Reply
  | done
  | payload (value : Option Json.Payload)
  | payloadWithTtl (value : Option (Json.Payload × Nat))
  | flag (b : Bool)
  | count (n : Nat)
  | limits (limits : Limits)
  | statistics (snapshot : Statistics)
  | hitCount (n : Option Nat)

/-- The same step with its result in another form. -/
def Step.map {α β : Type} (f : α → β) (step : Step α) : Step β :=
  { result := f step.result, store := step.store, events := step.events }

/-- Carries out an operation at a clock reading. -/
def Store.apply (store : Store) (now : Nat) : Operation → Step Reply
  | .get key => (store.read now key).map fun found => .payload (found.map Prod.fst)
  | .getWithTtl key => (store.read now key).map .payloadWithTtl
  | .put key value ttl => (store.put now key value ttl).map fun _ => .done
  | .invalidate key => (store.invalidate key).map .flag
  | .invalidatePattern pattern => (store.invalidatePattern pattern).map .count
  | .clear => store.clear.map fun _ => .done
  | .setBudget bytes => (store.setBudget bytes).map .count
  | .setBudgetMegabytes megabytes => (store.setBudgetMegabytes megabytes).map .count
  | .setDefaultTtl seconds => (store.setDefaultTtl seconds).map fun _ => .done
  | .reconfigure budget defaultTtl => (store.reconfigure budget defaultTtl).map .limits
  | .sweep => (store.sweep now).map .count
  | .statistics => { result := .statistics store.snapshot, store }
  | .resetStatistics => store.resetStatistics.map .statistics
  | .isEmpty => { result := .flag store.isEmpty, store }
  | .hitCount key => { result := .hitCount (store.hitCount? key), store }

end BoundedCache
