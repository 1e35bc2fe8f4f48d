namespace BoundedCache.Http

/-!
# Endpoints

The paths of the service and the methods that they are used with.  A path names an endpoint by its
raw characters, before anything is decoded.  The key of `read` and `drop` is the one last segment of
the path, which must not be empty.
-/

/-- A path of the service. -/
inductive Endpoint
  | set
  | read (segment : String)
  | drop (segment : String)
  | invalidate
  | clear
  | statistics
  | resetStatistics
  | limits
  | health
  deriving DecidableEq, Repr

namespace Endpoint

/-- The segment that follows a stem, if it is the last one and not empty. -/
def segmentAfter? (stem path : List Char) : Option String :=
  if stem.isPrefixOf path then
    let segment := path.drop stem.length
    if segment ≠ [] ∧ '/' ∉ segment then some (String.ofList segment) else none
  else none

/-- The endpoint of a path. -/
def ofPath? (path : String) : Option Endpoint :=
  if path = "/set" then some set
  else if path = "/invalidate" then some invalidate
  else if path = "/clear" then some clear
  else if path = "/stats" then some statistics
  else if path = "/stats/reset" then some resetStatistics
  else if path = "/config" then some limits
  else if path = "/health" then some health
  else
    match segmentAfter? "/get/".toList path.toList with
    | some segment => some (read segment)
    | none => (segmentAfter? "/del/".toList path.toList).map drop

/-- The methods that an endpoint is used with. -/
def methods : Endpoint → List String
  | set => ["PUT"]
  | read _ => ["GET", "HEAD"]
  | drop _ => ["DELETE"]
  | invalidate => ["POST"]
  | clear => ["POST"]
  | statistics => ["GET", "HEAD"]
  | resetStatistics => ["POST"]
  | limits => ["PUT"]
  | health => ["GET", "HEAD"]

/-- The methods of an endpoint as the value of a header. -/
def allow (endpoint : Endpoint) : String := ",".intercalate endpoint.methods

end Endpoint

end BoundedCache.Http
