import BoundedCache.Store.Operation

namespace BoundedCache.Http

/-!
# Answers to clients

The JSON values that the service answers with, each with its members in a fixed order.
-/

/-- A count as a JSON value. -/
def countValue (n : Nat) : Json.Value := .number (.integer n)

/-- The answer to a read that found a payload. -/
def foundAnswer (key : String) (value : Json.Payload) (remaining : Nat) : Json.Value :=
  .object [("key", .text key), ("value", value.toValue), ("ttl_remaining_ms", countValue remaining)]

/-- The answer to a write. -/
def storedAnswer (key : String) : Json.Value :=
  .object [("message", .text ("Key '" ++ key ++ "' set successfully")), ("key", .text key)]

/-- The answer to a request to drop a key. -/
def droppedAnswer (key : String) (removed : Bool) : Json.Value :=
  let outcome := if removed then "' deleted successfully" else "' was not cached"
  .object [("message", .text ("Key '" ++ key ++ outcome)), ("key", .text key),
    ("removed", .boolean removed)]

/-- The answer to a request to drop the keys with a pattern. -/
def patternAnswer (pattern : String) (removed : Nat) : Json.Value :=
  .object [("pattern", .text pattern), ("removed", countValue removed)]

/-- The answer to a request to drop everything. -/
def clearedAnswer : Json.Value := .object [("message", .text "Cache cleared")]

/-- The answer to a request for the statistics. -/
def statisticsAnswer (snapshot : Statistics) : Json.Value :=
  .object (snapshot.members ++ [("hit_rate", snapshot.hitRateValue)])

/-- The answer to a change of the limits. -/
def limitsAnswer (limits : Limits) : Json.Value :=
  .object [("max_size_bytes", countValue limits.budget),
    ("default_ttl", countValue limits.defaultTtl), ("size_bytes", countValue limits.usedBytes),
    ("evicted", countValue limits.evicted)]

/-- The answer to a request for the health of the service, with the time of day. -/
def healthAnswer (timestamp : String) : Json.Value :=
  .object [("status", .text "healthy"), ("timestamp", .text timestamp)]

end BoundedCache.Http
