import BoundedCache.Decimal.Binary64
import BoundedCache.Json.Text
import BoundedCache.Word

namespace BoundedCache

/-!
# Statistics

`Statistics` counts the reads and the evictions of a cache and shows how full it is.  A hit is a
read that finds a payload, a miss one that does not; an eviction is an entry that went because of
the byte budget or because it had expired.
-/

/-- A snapshot of the counters and of the extent of a cache. -/
structure Statistics where
  hits : Nat := 0
  misses : Nat := 0
  evictions : Nat := 0
  /-- The number of entries. -/
  size : Nat := 0
  /-- The largest number of entries after any insertion. -/
  maxSizeObserved : Nat := 0
  /-- The bytes that the entries count for. -/
  sizeBytes : Nat := 0
  /-- The byte budget. -/
  maxSizeBytes : Nat := 0
  deriving DecidableEq, Repr

namespace Statistics

/-- Counts a read that found a payload. -/
def recordHit (s : Statistics) : Statistics := { s with hits := Word.succWrap s.hits }

/-- Counts a read that found none. -/
def recordMiss (s : Statistics) : Statistics := { s with misses := Word.succWrap s.misses }

/-- Counts an eviction. -/
def recordEviction (s : Statistics) : Statistics :=
  { s with evictions := Word.succWrap s.evictions }

/-- Notes the number of entries. -/
def setSize (s : Statistics) (count : Nat) : Statistics := { s with size := count }

/-- Notes the number of entries after an insertion, which may be the largest so far. -/
def recordInsert (s : Statistics) (count : Nat) : Statistics :=
  { s with size := count, maxSizeObserved := max s.maxSizeObserved count }

/-- Sets the three counters to 0. -/
def resetCounters (s : Statistics) : Statistics := { s with hits := 0, misses := 0, evictions := 0 }

/-- The part of the reads that were hits, 0 before the first read.  Both counts are rounded to
    magnitudes before they are divided. -/
def hitRate (s : Statistics) : Binary64 :=
  let total := Word.addWrap s.hits s.misses
  if total = 0 then Binary64.zero
  else
    let rate := do
      let hits ← Binary64.ofNat? s.hits
      let total ← Binary64.ofNat? total
      hits.div? total
    rate.getD Binary64.zero

/-- A counter as a JSON value. -/
def counter (n : Nat) : Json.Value := .number (.integer n)

/-- The hit rate as a JSON value. -/
def hitRateValue (s : Statistics) : Json.Value := .number (.float false s.hitRate)

/-- The members of a snapshot. -/
def members (s : Statistics) : List (String × Json.Value) :=
  [("hits", counter s.hits), ("misses", counter s.misses), ("evictions", counter s.evictions),
    ("size", counter s.size), ("max_size_observed", counter s.maxSizeObserved),
    ("size_bytes", counter s.sizeBytes), ("max_size_bytes", counter s.maxSizeBytes)]

/-- A snapshot as a JSON value. -/
def toValue (s : Statistics) : Json.Value := .object s.members

end Statistics

end BoundedCache
