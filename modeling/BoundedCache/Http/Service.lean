import BoundedCache.Failure
import BoundedCache.Http.Answer
import BoundedCache.Http.Endpoint
import BoundedCache.Http.MediaType
import BoundedCache.Http.Message
import BoundedCache.Http.Order
import BoundedCache.Text.Percent

namespace BoundedCache.Http

/-!
# The HTTP service

`respond` answers one request on a store.  A request passes these stations and is answered by the
first one that objects:

1. `OPTIONS` is answered for every path, whether it is an endpoint or not;
2. a path that is no endpoint is not found, and an endpoint allows only its methods;
3. a key in a path must be UTF-8 once it is percent-decoded;
4. an order must be announced as JSON, be no longer than `longestBody`, and be readable;
5. a key, a pattern or a limit must be possible (`keyProblem?` and the `problem?` of the orders).

Only then an operation of the cache is carried out, and only one.
-/

/-- The bytes that a body may have. -/
def longestBody : Nat := 2 * Store.megabyte

/-! ### Steps that answer -/

/-- A response that leaves the store alone. -/
def unchanged (store : Store) (response : Response) : Step Response := { result := response, store }

/-- A response to a request that cannot be carried out. -/
def failure (store : Store) (failure : Failure) : Step Response :=
  unchanged store (.ofValue failure.status failure.toValue)

/-- A response to an order or a key with a problem. -/
def invalid (store : Store) (problem : OrderProblem) : Step Response :=
  failure store (.invalidRequest problem.message)

/-- A successful response with the answer to an operation's result. -/
def success {α : Type} (step : Step α) (answer : α → Json.Value) : Step Response :=
  step.map fun result => .ofValue 200 (answer result)

/-! ### Handlers -/

/-- Stores a payload. -/
def handleSet (store : Store) (now : Nat) (order : SetOrder) : Step Response :=
  match order.problem? with
  | some problem => invalid store problem
  | none =>
    success (store.put now order.key order.value order.ttlSeconds) fun _ => storedAnswer order.key

/-- Reads a payload. -/
def handleRead (store : Store) (now : Nat) (key : String) : Step Response :=
  match keyProblem? key with
  | some problem => invalid store problem
  | none =>
    (store.read now key).map fun
      | some (value, remaining) => .ofValue 200 (foundAnswer key value remaining)
      | none =>
        let failure := Failure.notFound key
        .ofValue failure.status failure.toValue

/-- Drops a key. -/
def handleDrop (store : Store) (key : String) : Step Response :=
  match keyProblem? key with
  | some problem => invalid store problem
  | none => success (store.invalidate key) (droppedAnswer key)

/-- Drops the keys with a pattern. -/
def handleInvalidate (store : Store) (order : InvalidateOrder) : Step Response :=
  match order.problem? with
  | some problem => invalid store problem
  | none =>
    let step := store.invalidatePattern order.pattern
    let event := Event.patternInvalidated order.pattern step.result
    success { step with events := step.events ++ [event] } (patternAnswer order.pattern)

/-- Drops everything. -/
def handleClear (store : Store) : Step Response :=
  let step := store.clear
  success { step with events := step.events ++ [.cleared] } fun _ => clearedAnswer

/-- Changes the limits. -/
def handleLimits (store : Store) (order : LimitsOrder) : Step Response :=
  match order.problem? with
  | some problem => invalid store problem
  | none =>
    let step := store.reconfigure order.budget order.defaultTtl
    let event := Event.reconfigured step.result.budget step.result.defaultTtl step.result.evicted
    success { step with events := step.events ++ [event] } limitsAnswer

/-! ### Dispatch -/

/-- Hands the key of a path to a handler. -/
def withKey (store : Store) (segment : String) (handle : String → Step Response) : Step Response :=
  match decodeUtf8? (percentDecode (encodeUtf8 segment)) with
  | some key => handle key
  | none => unchanged store (.refusal 400)

/-- Hands the order in a body to a handler.  What follows the order in the body is ignored. -/
def withOrder {α : Type} (store : Store) (request : Request) (reader : Json.Reader α)
    (handle : α → Step Response) : Step Response :=
  if !(request.header? contentType).any isJsonMediaType then unchanged store (.refusal 415)
  else if longestBody < request.body.length then unchanged store (.refusal 413)
  else
    match Json.readFirst reader request.body with
    | .ok order => handle order
    | .error .mismatched => unchanged store (.refusal 422)
    | .error _ => unchanged store (.refusal 400)

/-- Answers a request to an endpoint whose method is allowed. -/
def handle (store : Store) (now : Nat) (timestamp : String) (request : Request) :
    Endpoint → Step Response
  | .set => withOrder store request SetOrder.reader (handleSet store now)
  | .read segment => withKey store segment (handleRead store now)
  | .drop segment => withKey store segment (handleDrop store)
  | .invalidate => withOrder store request InvalidateOrder.reader (handleInvalidate store)
  | .clear => handleClear store
  | .statistics => success { result := store.snapshot, store } statisticsAnswer
  | .resetStatistics => success store.resetStatistics statisticsAnswer
  | .limits => withOrder store request LimitsOrder.reader (handleLimits store)
  | .health => unchanged store (.ofValue 200 (healthAnswer timestamp))

/-- A response without its body. -/
def Response.withoutBody (response : Response) : Response := { response with body := .empty }

/-- The header that lists the methods of an endpoint. -/
def allowHeader (endpoint : Endpoint) : String × String := ("allow", endpoint.allow)

/-- Answers a request that is not `OPTIONS`. -/
def dispatch (store : Store) (now : Nat) (timestamp : String) (request : Request) : Step Response :=
  match Endpoint.ofPath? request.path with
  | none => unchanged store { status := 404 }
  | some endpoint =>
    if request.method ∉ endpoint.methods then
      unchanged store { status := 405, headers := [allowHeader endpoint] }
    else
      let step := handle store now timestamp request endpoint
      if request.method = "HEAD" then step.map Response.withoutBody else step

/-- Answers `OPTIONS` for a path. -/
def options (path : String) : Response :=
  { status := 200
    headers := [("access-control-allow-methods", "*"), ("access-control-allow-headers", "*")]
      ++ (Endpoint.ofPath? path).toList.map allowHeader }

/-- The headers of every response: scripts of all origins may read it. -/
def commonHeaders : List (String × String) :=
  [("access-control-allow-origin", "*"),
    ("vary", "origin, access-control-request-method, access-control-request-headers")]

/-- Answers one request. -/
def respond (store : Store) (now : Nat) (timestamp : String) (request : Request) : Step Response :=
  let step :=
    if request.method = "OPTIONS" then unchanged store (options request.path)
    else dispatch store now timestamp request
  step.map fun response => { response with headers := response.headers ++ commonHeaders }

end BoundedCache.Http
