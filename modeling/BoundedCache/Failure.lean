import BoundedCache.Json.Text

namespace BoundedCache

/-!
# Failures of the service

The cache itself never fails; a `Failure` belongs to the layers around it.  It has a wording, and an
answer to a client carries it with a status.
-/

/-- A failure with the text that explains it. -/
inductive Failure
  | notFound (key : String)
  | invalidRequest (reason : String)
  | configuration (reason : String)
  | internal (reason : String)
  deriving DecidableEq, Repr

namespace Failure

/-- The wording of a failure. -/
def message : Failure → String
  | notFound key => "Key not found: " ++ key
  | invalidRequest reason => "Invalid request: " ++ reason
  | configuration reason => "Invalid configuration: " ++ reason
  | internal reason => "Internal error: " ++ reason

/-- The HTTP status of a failure. -/
def status : Failure → Nat
  | notFound _ => 404
  | invalidRequest _ => 400
  | configuration _ => 500
  | internal _ => 500

/-- The JSON value that a client gets. -/
def toValue (failure : Failure) : Json.Value := .object [("error", .text failure.message)]

end Failure

end BoundedCache
