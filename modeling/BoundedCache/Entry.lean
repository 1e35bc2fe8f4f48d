import BoundedCache.Json.Size
import BoundedCache.Word

namespace BoundedCache

/-!
# Entries

An `Entry` is what the cache keeps for one key.  It can be read up to and including the instant of
its expiry (`isExpired`); the sweep takes it away at that instant already (`isDue`).
-/

/-- A stored payload with what is known about it. -/
structure Entry where
  value : Json.Payload
  /-- The last reading at which the entry can be read. -/
  expiresAt : Nat
  /-- The reading of the latest successful read, or of the insertion. -/
  lastAccessedAt : Nat
  /-- The tick of the latest successful read, or of the insertion. -/
  tick : Nat
  /-- The successful reads so far. -/
  hitCount : Nat
  /-- The bytes that the entry counts for. -/
  size : Nat
  deriving Repr

namespace Entry

/-- The reading at which a payload that is stored for `ttl` seconds expires. -/
def expiry (now ttl : Nat) : Nat := Word.addSat now (Word.mulSat ttl 1000)

/-- An entry that is inserted at `now` for `ttl` seconds. -/
def new (value : Json.Payload) (size now ttl tick : Nat) : Entry :=
  { value, size, tick, expiresAt := expiry now ttl, lastAccessedAt := now, hitCount := 0 }

/-- Whether a read at `now` must not see the entry any more. -/
def isExpired (entry : Entry) (now : Nat) : Bool := decide (entry.expiresAt < now)

/-- Whether a sweep at `now` takes the entry away. -/
def isDue (entry : Entry) (now : Nat) : Bool := decide (entry.expiresAt ≤ now)

/-- The entry after a successful read. -/
def touch (entry : Entry) (now tick : Nat) : Entry :=
  { entry with lastAccessedAt := now, tick, hitCount := Word.succWrap entry.hitCount }

/-- The milliseconds until the entry expires, 0 once it has. -/
def remaining (entry : Entry) (now : Nat) : Nat := entry.expiresAt - now

end Entry

end BoundedCache
