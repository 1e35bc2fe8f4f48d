import BoundedCache.Http.Service

namespace BoundedCache.Http

/-!
# The operation behind a request

`operation? request` is the one operation of the cache that a request stands for, decoded from its
method, path, headers and body, or `none` if the request is refused or asks for nothing.  It does
not depend on the cache.  `store_respond` says that answering the request changes the store
exactly as that operation does.
-/

/-- The order in the body of a request, if it is announced, short enough and readable. -/
def decodeOrder? {α : Type} (request : Request) (reader : Json.Reader α) : Option α :=
  if !(request.header? contentType).any isJsonMediaType then none
  else if longestBody < request.body.length then none
  else (Json.readFirst reader request.body).toOption

/-- The key in a segment of a path, if it can be decoded and used. -/
def decodeKey? (segment : String) : Option String :=
  (decodeUtf8? (percentDecode (encodeUtf8 segment))).filter fun key => (keyProblem? key).isNone

/-- The operation of a request to an endpoint whose method is allowed.  An order to store a payload
    that tells no time to live stands for a put with 0. -/
def Endpoint.operation? (request : Request) : Endpoint → Option Operation
  | set => ((decodeOrder? request SetOrder.reader).filter (·.problem?.isNone)).map fun order =>
      .put order.key order.value (order.ttl.getD 0)
  | read segment => (decodeKey? segment).map .getWithTtl
  | drop segment => (decodeKey? segment).map .invalidate
  | invalidate => ((decodeOrder? request InvalidateOrder.reader).filter (·.problem?.isNone)).map
      fun order => .invalidatePattern order.pattern
  | clear => some .clear
  | statistics => some .statistics
  | resetStatistics => some .resetStatistics
  | limits => ((decodeOrder? request LimitsOrder.reader).filter (·.problem?.isNone)).map
      fun order => .reconfigure order.budget order.defaultTtl
  | health => none

/-- The operation of a request. -/
def operation? (request : Request) : Option Operation :=
  if request.method = "OPTIONS" then none
  else ((Endpoint.ofPath? request.path).filter (request.method ∈ ·.methods)).bind
    (·.operation? request)

/-- The store after an operation, if there is one. -/
def storeAfter (store : Store) (now : Nat) : Option Operation → Store
  | some operation => (store.apply now operation).store
  | none => store

/-! ### Decoding -/

variable (store : Store) (now : Nat) (request : Request)

/-- A handler gets the order of a request, and without an order the store stays as it is. -/
theorem store_withOrder {α : Type} (reader : Json.Reader α) (handle : α → Step Response) :
    (withOrder store request reader handle).store
      = ((decodeOrder? request reader).map fun order => (handle order).store).getD store := by
  unfold withOrder decodeOrder?
  split
  · rfl
  · split
    · rfl
    · cases hread : Json.readFirst reader request.body with
      | ok order => rfl
      | error fault => cases fault <;> rfl

theorem store_withKey (segment : String) (handle : String → Step Response) :
    (withKey store segment handle).store
      = ((decodeUtf8? (percentDecode (encodeUtf8 segment))).map fun key =>
          (handle key).store).getD store := by
  unfold withKey
  cases decodeUtf8? (percentDecode (encodeUtf8 segment)) <;> rfl

/-! ### Handlers -/

theorem store_handleSet (order : SetOrder) :
    (handleSet store now order).store = if order.problem?.isNone
      then (store.put now order.key order.value (order.ttl.getD 0)).store else store := by
  unfold handleSet
  cases order.problem? <;> rfl

theorem store_handleRead (key : String) :
    (handleRead store now key).store
      = if (keyProblem? key).isNone then (store.read now key).store else store := by
  unfold handleRead
  cases keyProblem? key <;> rfl

theorem store_handleDrop (key : String) :
    (handleDrop store key).store
      = if (keyProblem? key).isNone then (store.invalidate key).store else store := by
  unfold handleDrop
  cases keyProblem? key <;> rfl

theorem store_handleInvalidate (order : InvalidateOrder) :
    (handleInvalidate store order).store = if order.problem?.isNone
      then (store.invalidatePattern order.pattern).store else store := by
  unfold handleInvalidate
  cases order.problem? <;> rfl

theorem store_handleLimits (order : LimitsOrder) :
    (handleLimits store order).store = if order.problem?.isNone
      then (store.reconfigure order.budget order.defaultTtl).store else store := by
  unfold handleLimits
  cases order.problem? <;> rfl

/-! ### Requests -/

/-- Filtering a decoded value is the handler's own check. -/
theorem storeAfter_filter_map {α : Type} (decoded : Option α) (isFine : α → Bool)
    (operation : α → Operation) :
    storeAfter store now ((decoded.filter isFine).map operation)
      = (decoded.map fun x => if isFine x then (store.apply now (operation x)).store
          else store).getD store := by
  cases decoded with
  | none => rfl
  | some x =>
    rw [Option.filter_some, Option.map_some, Option.getD_some]
    split <;> rfl

theorem store_handle (timestamp : String) (endpoint : Endpoint) :
    (handle store now timestamp request endpoint).store
      = storeAfter store now (endpoint.operation? request) := by
  cases endpoint with
  | set =>
    simp only [handle, store_withOrder, store_handleSet, Endpoint.operation?, storeAfter_filter_map]
    rfl
  | read segment =>
    simp only [handle, store_withKey, store_handleRead, Endpoint.operation?, decodeKey?,
      storeAfter_filter_map]
    rfl
  | drop segment =>
    simp only [handle, store_withKey, store_handleDrop, Endpoint.operation?, decodeKey?,
      storeAfter_filter_map]
    rfl
  | invalidate =>
    simp only [handle, store_withOrder, store_handleInvalidate, Endpoint.operation?,
      storeAfter_filter_map]
    rfl
  | clear => rfl
  | statistics => rfl
  | resetStatistics => rfl
  | limits =>
    simp only [handle, store_withOrder, store_handleLimits, Endpoint.operation?,
      storeAfter_filter_map]
    rfl
  | health => rfl

theorem store_dispatch (timestamp : String) :
    (dispatch store now timestamp request).store = storeAfter store now
      (((Endpoint.ofPath? request.path).filter (request.method ∈ ·.methods)).bind
        (·.operation? request)) := by
  unfold dispatch
  cases Endpoint.ofPath? request.path with
  | none => rfl
  | some endpoint =>
    by_cases hmethod : request.method ∈ endpoint.methods
    · simp only [hmethod, not_true_eq_false, if_false, Option.filter_some, decide_true, if_true,
        Option.bind_some]
      rw [← store_handle store now request timestamp endpoint]
      split <;> rfl
    · simp only [hmethod, not_false_eq_true, if_true, Option.filter_some, decide_false,
        Bool.false_eq_true, if_false, Option.bind_none]
      rfl

/-- **A request is its operation.** -/
theorem store_respond (timestamp : String) :
    (respond store now timestamp request).store = storeAfter store now (operation? request) := by
  unfold respond operation?
  show (if request.method = "OPTIONS" then unchanged store (options request.path)
    else dispatch store now timestamp request).store = _
  by_cases hoptions : request.method = "OPTIONS"
  · rw [if_pos hoptions, if_pos hoptions]
    rfl
  · rw [if_neg hoptions, if_neg hoptions]
    exact store_dispatch store now request timestamp

end BoundedCache.Http
