namespace BoundedCache

/-!
# Events

What the cache and its sweeper report while they work.  `Event.level`, `Event.message` and
`Event.fields` are the parts of a report, in the order in which they are written.
-/

/-- How important a report is. -/
inductive Level
  | debug
  | info
  | warn
  deriving DecidableEq, Repr

/-- The value of a field of a report. -/
inductive Detail
  | count (n : Nat)
  | text (s : String)
  deriving DecidableEq, Repr

/-- Something worth a report. -/
inductive Event
  /-- A payload is larger than the whole byte budget. -/
  | oversized (key : String) (size budget : Nat)
  /-- An entry had to go to make room. -/
  | evicted (key : String) (size : Nat)
  /-- A client dropped all keys with a certain part. -/
  | patternInvalidated (pattern : String) (removed : Nat)
  /-- A client dropped everything. -/
  | cleared
  /-- A client changed the limits. -/
  | reconfigured (budget defaultTtl dropped : Nat)
  /-- A sweeper begins to work. -/
  | sweepStarted (interval : Nat)
  /-- A sweep took expired entries away. -/
  | sweepRemoved (removed remaining : Nat)
  /-- A sweep found nothing to take away. -/
  | sweepIdle (remaining : Nat)
  /-- A sweeper found its cache gone and ends. -/
  | sweepOrphaned
  /-- A sweeper was cancelled and ends. -/
  | sweepCancelled
  /-- A sweeper has ended. -/
  | sweepStopped
  deriving DecidableEq, Repr

namespace Event

/-- The importance of a report. -/
def level : Event → Level
  | oversized .. => .warn
  | evicted .. => .debug
  | patternInvalidated .. => .info
  | cleared => .info
  | reconfigured .. => .info
  | sweepStarted _ => .info
  | sweepRemoved .. => .info
  | sweepIdle _ => .debug
  | sweepOrphaned => .debug
  | sweepCancelled => .debug
  | sweepStopped => .info

/-- The wording of a report. -/
def message : Event → String
  | oversized .. => "Payload larger than the cache budget; storing it alone"
  | evicted .. => "Evicted least recently used entry"
  | patternInvalidated .. => "Invalidated cache entries by pattern"
  | cleared => "Cache cleared"
  | reconfigured .. => "Cache configuration updated"
  | sweepStarted _ => "Starting TTL sweep task"
  | sweepRemoved .. => "TTL sweep removed expired entries"
  | sweepIdle _ => "TTL sweep found no expired entries"
  | sweepOrphaned => "Cache dropped, stopping TTL sweep task"
  | sweepCancelled => "TTL sweep task cancelled"
  | sweepStopped => "TTL sweep task stopped"

/-- The details of a report. -/
def fields : Event → List (String × Detail)
  | oversized key size budget =>
    [("key", .text key), ("size_bytes", .count size), ("max_size_bytes", .count budget)]
  | evicted key size => [("key", .text key), ("size_bytes", .count size)]
  | patternInvalidated pattern removed => [("pattern", .text pattern), ("removed", .count removed)]
  | cleared => []
  | reconfigured budget defaultTtl dropped =>
    [("max_size_bytes", .count budget), ("default_ttl", .count defaultTtl),
      ("evicted", .count dropped)]
  | sweepStarted interval => [("interval_ms", .count interval)]
  | sweepRemoved removed remaining =>
    [("removed", .count removed), ("remaining", .count remaining)]
  | sweepIdle remaining => [("remaining", .count remaining)]
  | sweepOrphaned => []
  | sweepCancelled => []
  | sweepStopped => []

end Event

end BoundedCache
