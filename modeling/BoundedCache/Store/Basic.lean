import BoundedCache.Entry
import BoundedCache.Event
import BoundedCache.Recency
import BoundedCache.Statistics
import BoundedCache.Table

namespace BoundedCache

/-!
# The store

A `Store` is a cache at one moment: the entries, the order in which their keys were used, the bytes
that they count for, the two limits and the statistics.  It has no clock; whoever operates on it
hands in a clock reading.

An operation gives a `Step`: a result, the store afterwards and the events on the way.
-/

/-- A cache at one moment. -/
structure Store where
  entries : Table Entry
  /-- Every key of `entries` under the tick of its entry. -/
  recency : Recency
  statistics : Statistics
  /-- The bytes that the entries count for together. -/
  usedBytes : Nat
  /-- The bytes that the entries should count for at most. -/
  budget : Nat
  /-- The seconds that an entry lives if it is stored without a time to live. -/
  defaultTtl : Nat

/-- What an operation gives. -/
structure Step (α : Type) where
  result : α
  store : Store
  events : List Event := []

namespace Store

/-- The bytes of a megabyte. -/
def megabyte : Nat := 1048576

/-- The byte budget of a cache that is set up without one. -/
def standardBudget : Nat := 50 * megabyte

/-- The time to live, in seconds, of a cache that is set up without one. -/
def standardTtl : Nat := 300

/-- An empty cache. -/
def new (budget defaultTtl : Nat) : Store :=
  { entries := .empty, recency := .empty, statistics := {}, usedBytes := 0, budget, defaultTtl }

/-- An empty cache with the standard limits. -/
def standard : Store := new standardBudget standardTtl

/-- The number of entries. -/
def size (store : Store) : Nat := store.entries.size

/-- Whether there are no entries. -/
def isEmpty (store : Store) : Bool := store.entries.isEmpty

/-- The successful reads of a key since it was last stored, if it is stored. -/
def hitCount? (store : Store) (key : String) : Option Nat :=
  (store.entries.find? key).map Entry.hitCount

/-- The statistics with the present extent of the cache. -/
def snapshot (store : Store) : Statistics :=
  { store.statistics with
    size := store.size, sizeBytes := store.usedBytes, maxSizeBytes := store.budget }

/-- Whether the byte count is the sum over the entries, and every entry is in the order of use. -/
def isConsistent (store : Store) : Bool :=
  (store.entries.rows.foldl (fun n row => Word.addWrap n row.2.size) 0 == store.usedBytes)
    && store.recency.size == store.size

/-! ### Removing entries -/

/-- Takes an entry out of the table, the order of use and the byte count. -/
def remove? (store : Store) (key : String) : Option (Entry × Store) :=
  (store.entries.find? key).map fun entry =>
    let entries := store.entries.erase key
    (entry,
      { store with
        entries
        recency := store.recency.remove entry.tick
        usedBytes := Word.subWrap store.usedBytes entry.size
        statistics := store.statistics.setSize entries.size })

/-- The store without the entry of a key, if there is one. -/
def drop (store : Store) (key : String) : Store :=
  match store.remove? key with
  | some (_, store) => store
  | none => store

/-- The store without the entry of a key, which counts as an eviction if there is one. -/
def expel (store : Store) (key : String) : Store :=
  match store.remove? key with
  | some (_, store) => { store with statistics := store.statistics.recordEviction }
  | none => store

end Store

end BoundedCache
