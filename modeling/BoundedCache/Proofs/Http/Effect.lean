import BoundedCache.Proofs.Http.Operation
import Mathlib.Logic.Basic

namespace BoundedCache.Http

/-!
# Requests are all or nothing

A request that is refused changes nothing, and every other one is one operation of the cache, whose
result alone determines the response.

* `handle_refuses` — without an operation there is a refusal, the same for all stores;
* `answers_handle` — with one, the response answers its result (`Answers`);
* `Refused.operation?_eq_none`, `refused_of_operation?_eq_none` — a request without an operation
  only looks, or there is one of the known reasons to refuse it;
* `respond_all_or_nothing` — so the status of a response tells whether the store may have changed.
-/

/-! ### Kinds of requests -/

/-- A request to read a key that can be used. -/
def ReadsKey (request : Request) (key : String) : Prop :=
  request.method ∈ ["GET", "HEAD"]
    ∧ ∃ segment, Endpoint.ofPath? request.path = some (.read segment)
      ∧ decodeKey? segment = some key

/-- A request that asks about the service and not for an operation on the entries. -/
def OnlyLooks (request : Request) : Prop :=
  request.method = "OPTIONS"
    ∨ request.method ∈ ["GET", "HEAD"] ∧ (request.path = "/stats" ∨ request.path = "/health")

/-- The operations that requests carry out. -/
def IsServed : Operation → Prop
  | .put _ _ _ => True
  | .getWithTtl _ => True
  | .invalidate _ => True
  | .invalidatePattern _ => True
  | .clear => True
  | .resetStatistics => True
  | .reconfigure _ _ => True
  | _ => False

/-- Why a request is refused. -/
inductive Refused (request : Request) : Prop
  /-- Its path is unknown. -/
  | path (hpath : Endpoint.ofPath? request.path = none)
  /-- Its path is not used with its method. -/
  | method {endpoint : Endpoint} (hpath : Endpoint.ofPath? request.path = some endpoint)
      (hmethod : request.method ∉ endpoint.methods)
  /-- The key in its path cannot be decoded, is empty or too long. -/
  | key {endpoint : Endpoint} {segment : String}
      (hpath : Endpoint.ofPath? request.path = some endpoint)
      (hendpoint : endpoint = .read segment ∨ endpoint = .drop segment)
      (hkey : ∀ key, decodeUtf8? (percentDecode (encodeUtf8 segment)) = some key →
        key = "" ∨ longestKey < key.utf8ByteSize)
  /-- Its body is not announced as JSON, or it is too long. -/
  | body {endpoint : Endpoint} (hpath : Endpoint.ofPath? request.path = some endpoint)
      (hendpoint : endpoint ∈ [Endpoint.set, .invalidate, .limits])
      (hbody : (request.header? contentType).any isJsonMediaType = false
        ∨ longestBody < request.body.length)
  /-- Its body is no order to store a payload, or the key is empty or too long. -/
  | set (hpath : Endpoint.ofPath? request.path = some .set)
      (horder : ∀ order, Json.readFirst SetOrder.reader request.body = .ok order →
        order.key = "" ∨ longestKey < order.key.utf8ByteSize)
  /-- Its body is no order to drop keys, or the pattern is empty. -/
  | invalidate (hpath : Endpoint.ofPath? request.path = some .invalidate)
      (horder : ∀ order, Json.readFirst InvalidateOrder.reader request.body = .ok order →
        order.pattern = "")
  /-- Its body is no order to change the limits, or one of the limits is 0. -/
  | limits (hpath : Endpoint.ofPath? request.path = some .limits)
      (horder : ∀ order, Json.readFirst LimitsOrder.reader request.body = .ok order →
        order.budget = some 0 ∨ order.defaultTtl = some 0)

/-! ### Answers -/

/-- The response that answers the result of an operation. -/
inductive Answers : Operation → Reply → Response → Prop
  | stored (key : String) (value : Json.Payload) (ttl : Int) (reply : Reply) :
      Answers (.put key value ttl) reply (.ofValue 200 (storedAnswer key))
  | found (key : String) (value : Json.Payload) (remaining : Nat) :
      Answers (.getWithTtl key) (.payloadWithTtl (some (value, remaining)))
        (.ofValue 200 (foundAnswer key value remaining))
  | notFound (key : String) :
      Answers (.getWithTtl key) (.payloadWithTtl none)
        (.ofValue 404 (Failure.notFound key).toValue)
  | dropped (key : String) (removed : Bool) :
      Answers (.invalidate key) (.flag removed) (.ofValue 200 (droppedAnswer key removed))
  | pattern (pattern : String) (removed : Nat) :
      Answers (.invalidatePattern pattern) (.count removed)
        (.ofValue 200 (patternAnswer pattern removed))
  | cleared (reply : Reply) : Answers .clear reply (.ofValue 200 clearedAnswer)
  | statistics (snapshot : Statistics) :
      Answers .statistics (.statistics snapshot) (.ofValue 200 (statisticsAnswer snapshot))
  | reset (snapshot : Statistics) :
      Answers .resetStatistics (.statistics snapshot) (.ofValue 200 (statisticsAnswer snapshot))
  | limits (budget defaultTtl : Option Nat) (limits : Limits) :
      Answers (.reconfigure budget defaultTtl) (.limits limits)
        (.ofValue 200 (limitsAnswer limits))

/-- A response as it is sent for a request: without its body for `HEAD`, and with the headers that
    every response has. -/
def sent (request : Request) (response : Response) : Response :=
  let response := if request.method = "HEAD" then response.withoutBody else response
  { response with headers := response.headers ++ commonHeaders }

theorem status_sent (request : Request) (response : Response) :
    (sent request response).status = response.status := by
  unfold sent
  split <;> rfl

variable {request : Request} {operation : Operation} {reply : Reply} {response : Response}

/-- Only a read that finds nothing is not answered with 200. -/
theorem Answers.status_eq (h : Answers operation reply response) :
    response.status = 200 ∨ response.status = 404 ∧ ∃ key, operation = .getWithTtl key := by
  cases h with
  | notFound key => exact .inr ⟨rfl, key, rfl⟩
  | _ => exact .inl rfl

/-! ### Decoding -/

section

variable {α : Type} {reader : Json.Reader α} {order : α}

/-- An order is decoded where the body is announced as JSON, short enough and readable. -/
theorem decodeOrder?_eq_some_iff : decodeOrder? request reader = some order ↔
    ¬ ((request.header? contentType).any isJsonMediaType = false
        ∨ longestBody < request.body.length)
      ∧ Json.readFirst reader request.body = .ok order := by
  unfold decodeOrder?
  cases hmedia : (request.header? contentType).any isJsonMediaType with
  | false => simp
  | true =>
    by_cases hlength : longestBody < request.body.length
    · simp [hlength]
    · cases hread : Json.readFirst reader request.body <;> simp [hlength, Except.toOption]

theorem withOrder_of_decodeOrder? (hdecode : decodeOrder? request reader = some order)
    (store : Store) (handle : α → Step Response) :
    withOrder store request reader handle = handle order := by
  obtain ⟨hbody, hread⟩ := decodeOrder?_eq_some_iff.1 hdecode
  obtain ⟨hmedia, hlength⟩ := not_or.1 hbody
  unfold withOrder
  rw [if_neg (by simpa using hmedia), if_neg hlength, hread]

theorem exists_refusal_of_decodeOrder? (hdecode : decodeOrder? request reader = none) :
    ∃ status ≠ 200, ∀ (store : Store) (handle : α → Step Response),
      withOrder store request reader handle = unchanged store (.refusal status) := by
  unfold decodeOrder? at hdecode
  unfold withOrder
  by_cases hmedia : (!(request.header? contentType).any isJsonMediaType) = true
  · simp only [if_pos hmedia]
    exact ⟨415, by decide, fun _ _ => rfl⟩
  · simp only [if_neg hmedia] at hdecode ⊢
    by_cases hlength : longestBody < request.body.length
    · simp only [if_pos hlength]
      exact ⟨413, by decide, fun _ _ => rfl⟩
    · simp only [if_neg hlength] at hdecode ⊢
      cases hread : Json.readFirst reader request.body with
      | ok order =>
        rw [hread] at hdecode
        exact absurd hdecode (Option.some_ne_none _)
      | error fault =>
        cases fault with
        | mismatched => exact ⟨422, by decide, fun _ _ => rfl⟩
        | _ => exact ⟨400, by decide, fun _ _ => rfl⟩

end

/-! ### Refusals -/

/-- The same response for all stores, which stay as they are; it is no success. -/
def Refuses (serve : Store → Step Response) : Prop :=
  ∃ response, response.status ≠ 200 ∧ ∀ store, serve store = unchanged store response

theorem refuses_invalid (problem : OrderProblem) : Refuses (invalid · problem) :=
  ⟨.ofValue 400 (Failure.invalidRequest problem.message).toValue,
    Nat.ne_of_beq_eq_false rfl, fun _ => rfl⟩

/-- A handler that objects to what it has decoded refuses. -/
theorem refuses_of_filter {α : Type} {decoded : Option α} {problem? : α → Option OrderProblem}
    {serve : Store → Step Response} {handle : Store → α → Step Response}
    (hhandle : ∀ x problem, problem? x = some problem →
      ∀ store, handle store x = invalid store problem)
    (hserve : ∀ x, decoded = some x → ∀ store, serve store = handle store x)
    (hrefuse : decoded = none → Refuses serve)
    (hnone : decoded.filter (fun x => (problem? x).isNone) = none) : Refuses serve := by
  cases hdecoded : decoded with
  | none => exact hrefuse hdecoded
  | some x =>
    rw [hdecoded, Option.filter_some] at hnone
    cases hproblem : problem? x with
    | none => simp [hproblem] at hnone
    | some problem =>
      obtain ⟨response, hstatus, hresponse⟩ := refuses_invalid problem
      refine ⟨response, hstatus, fun store => ?_⟩
      exact (hserve x hdecoded store).trans
        ((hhandle x problem hproblem store).trans (hresponse store))

/-- An order that is not carried out is refused. -/
theorem withOrder_refuses {α : Type} {reader : Json.Reader α} {problem? : α → Option OrderProblem}
    {handle : Store → α → Step Response}
    (hhandle : ∀ order problem, problem? order = some problem →
      ∀ store, handle store order = invalid store problem)
    (hnone : ((decodeOrder? request reader).filter fun order => (problem? order).isNone) = none) :
    Refuses fun store => withOrder store request reader (handle store) := by
  refine refuses_of_filter hhandle (fun order horder store => ?_) (fun hdecode => ?_) hnone
  · exact withOrder_of_decodeOrder? horder store _
  · obtain ⟨status, hstatus, hrefusal⟩ := exists_refusal_of_decodeOrder? hdecode
    exact ⟨.refusal status, hstatus, fun store => hrefusal store _⟩

/-- A key that is not used is refused. -/
theorem withKey_refuses {segment : String} {handle : Store → String → Step Response}
    (hhandle : ∀ key problem, keyProblem? key = some problem →
      ∀ store, handle store key = invalid store problem)
    (hnone : decodeKey? segment = none) :
    Refuses fun store => withKey store segment (handle store) := by
  refine refuses_of_filter hhandle (fun key hkey store => ?_) (fun hdecode => ?_) hnone
  · simp only [withKey, hkey]
  · refine ⟨.refusal 400, by decide, fun store => ?_⟩
    simp only [withKey, hdecode]

/-- **Without an operation, a request is refused**, unless it asks for the health. -/
theorem handle_refuses (now : Nat) (timestamp : String) {endpoint : Endpoint}
    (hnone : endpoint.operation? request = none) (hhealth : endpoint ≠ .health) :
    Refuses fun store => handle store now timestamp request endpoint := by
  cases endpoint with
  | set =>
    refine withOrder_refuses (fun order problem hproblem store => ?_)
      (Option.map_eq_none_iff.1 hnone)
    simp only [handleSet, hproblem]
  | read segment =>
    refine withKey_refuses (fun key problem hproblem store => ?_) (Option.map_eq_none_iff.1 hnone)
    simp only [handleRead, hproblem]
  | drop segment =>
    refine withKey_refuses (fun key problem hproblem store => ?_) (Option.map_eq_none_iff.1 hnone)
    simp only [handleDrop, hproblem]
  | invalidate =>
    refine withOrder_refuses (fun order problem hproblem store => ?_)
      (Option.map_eq_none_iff.1 hnone)
    simp only [handleInvalidate, hproblem]
  | clear => exact absurd hnone (Option.some_ne_none _)
  | statistics => exact absurd hnone (Option.some_ne_none _)
  | resetStatistics => exact absurd hnone (Option.some_ne_none _)
  | limits =>
    refine withOrder_refuses (fun order problem hproblem store => ?_)
      (Option.map_eq_none_iff.1 hnone)
    simp only [handleLimits, hproblem]
  | health => exact absurd rfl hhealth

/-! ### Answers to operations -/

theorem exists_of_filter_map {α : Type} {decoded : Option α} {isFine : α → Bool}
    {make : α → Operation} (hsome : (decoded.filter isFine).map make = some operation) :
    ∃ x, decoded = some x ∧ isFine x = true ∧ operation = make x := by
  obtain ⟨x, hx, rfl⟩ := Option.map_eq_some_iff.1 hsome
  obtain ⟨hdecoded, hfine⟩ := Option.filter_eq_some_iff.1 hx
  exact ⟨x, hdecoded, hfine, rfl⟩

theorem answers_handle (store : Store) (now : Nat) (timestamp : String) {endpoint : Endpoint}
    (hsome : endpoint.operation? request = some operation) :
    Answers operation (store.apply now operation).result
      (handle store now timestamp request endpoint).result := by
  cases endpoint with
  | set =>
    obtain ⟨order, hdecode, hfine, rfl⟩ := exists_of_filter_map hsome
    have hhandle : handle store now timestamp request .set = handleSet store now order :=
      withOrder_of_decodeOrder? hdecode store _
    rw [hhandle]
    simp only [handleSet, Option.isNone_iff_eq_none.1 hfine]
    exact .stored ..
  | read segment =>
    obtain ⟨key, hdecode, hfine, rfl⟩ := exists_of_filter_map hsome
    have hhandle : handle store now timestamp request (.read segment)
        = handleRead store now key := by simp only [handle, withKey, hdecode]
    rw [hhandle]
    simp only [handleRead, Option.isNone_iff_eq_none.1 hfine, Store.apply, Step.map]
    cases (store.read now key).result with
    | none => exact .notFound key
    | some found => exact .found key found.1 found.2
  | drop segment =>
    obtain ⟨key, hdecode, hfine, rfl⟩ := exists_of_filter_map hsome
    have hhandle : handle store now timestamp request (.drop segment) = handleDrop store key := by
      simp only [handle, withKey, hdecode]
    rw [hhandle]
    simp only [handleDrop, Option.isNone_iff_eq_none.1 hfine]
    exact .dropped ..
  | invalidate =>
    obtain ⟨order, hdecode, hfine, rfl⟩ := exists_of_filter_map hsome
    have hhandle : handle store now timestamp request .invalidate = handleInvalidate store order :=
      withOrder_of_decodeOrder? hdecode store _
    rw [hhandle]
    simp only [handleInvalidate, Option.isNone_iff_eq_none.1 hfine]
    exact .pattern ..
  | clear =>
    obtain rfl : Operation.clear = operation := Option.some.inj hsome
    exact .cleared _
  | statistics =>
    obtain rfl : Operation.statistics = operation := Option.some.inj hsome
    exact .statistics _
  | resetStatistics =>
    obtain rfl : Operation.resetStatistics = operation := Option.some.inj hsome
    exact .reset _
  | limits =>
    obtain ⟨order, hdecode, hfine, rfl⟩ := exists_of_filter_map hsome
    have hhandle : handle store now timestamp request .limits = handleLimits store order :=
      withOrder_of_decodeOrder? hdecode store _
    rw [hhandle]
    simp only [handleLimits, Option.isNone_iff_eq_none.1 hfine]
    exact .limits ..
  | health => exact absurd hsome.symm (Option.some_ne_none _)

/-! ### Requests and their endpoints -/

theorem operation?_eq_some_iff : operation? request = some operation ↔
    request.method ≠ "OPTIONS" ∧ ∃ endpoint, Endpoint.ofPath? request.path = some endpoint
      ∧ request.method ∈ endpoint.methods ∧ endpoint.operation? request = some operation := by
  unfold operation?
  by_cases hoptions : request.method = "OPTIONS"
  · simp [hoptions]
  · simp only [hoptions, if_false, Option.bind_eq_some_iff, Option.filter_eq_some_iff,
      decide_eq_true_eq, ne_eq, not_false_eq_true, true_and, and_assoc]

/-- The two endpoints that only tell something have one path each. -/
theorem path_of_ofPath? {path : String} {endpoint : Endpoint}
    (hpath : Endpoint.ofPath? path = some endpoint) :
    (endpoint = .statistics → path = "/stats") ∧ (endpoint = .health → path = "/health") := by
  unfold Endpoint.ofPath? at hpath
  grind [Option.map_eq_some_iff]

/-- The operation of an endpoint whose method is allowed. -/
theorem operation?_of_endpoint {endpoint : Endpoint} (hoptions : request.method ≠ "OPTIONS")
    (hpath : Endpoint.ofPath? request.path = some endpoint)
    (hmethod : request.method ∈ endpoint.methods) :
    operation? request = endpoint.operation? request := by
  simp only [operation?, hoptions, if_false, hpath, Option.filter_some, hmethod, decide_true,
    if_true, Option.bind_some]

theorem operation?_eq_getWithTtl_iff {key : String} :
    operation? request = some (.getWithTtl key) ↔ ReadsKey request key := by
  rw [operation?_eq_some_iff]
  constructor
  · rintro ⟨-, endpoint, hpath, hmethod, hoperation⟩
    cases endpoint with
    | read segment =>
      obtain ⟨found, hdecode, hkey⟩ := Option.map_eq_some_iff.1 hoperation
      obtain rfl : found = key := Operation.getWithTtl.inj hkey
      exact ⟨hmethod, segment, hpath, hdecode⟩
    | _ => simp [Endpoint.operation?] at hoperation
  · rintro ⟨hmethod, segment, hpath, hdecode⟩
    refine ⟨?_, .read segment, hpath, hmethod, by rw [Endpoint.operation?, hdecode]; rfl⟩
    rintro hoptions
    rw [hoptions] at hmethod
    exact absurd hmethod (by decide)

/-- A request for the statistics only looks. -/
theorem onlyLooks_of_statistics (h : operation? request = some .statistics) :
    OnlyLooks request := by
  obtain ⟨-, endpoint, hpath, hmethod, hoperation⟩ := operation?_eq_some_iff.1 h
  cases endpoint with
  | statistics => exact .inr ⟨hmethod, .inl ((path_of_ofPath? hpath).1 rfl)⟩
  | _ => simp [Endpoint.operation?] at hoperation

theorem store_of_onlyLooks (h : OnlyLooks request) (store : Store) (now : Nat)
    (timestamp : String) : (respond store now timestamp request).store = store := by
  rw [store_respond]
  rcases h with hoptions | ⟨hmethod, hpath | hpath⟩
  · rw [operation?, if_pos hoptions]
    rfl
  all_goals
    have hoptions : request.method ≠ "OPTIONS" := by
      rintro heq
      rw [heq] at hmethod
      exact absurd hmethod (by decide)
  · have hendpoint : Endpoint.ofPath? request.path = some .statistics := by rw [hpath]; rfl
    rw [operation?_of_endpoint hoptions hendpoint hmethod]
    rfl
  · have hendpoint : Endpoint.ofPath? request.path = some .health := by rw [hpath]; rfl
    rw [operation?_of_endpoint hoptions hendpoint hmethod]
    rfl

/-! ### Responses -/

theorem result_respond (store : Store) (now : Nat) (timestamp : String) {endpoint : Endpoint}
    (hoptions : request.method ≠ "OPTIONS")
    (hpath : Endpoint.ofPath? request.path = some endpoint)
    (hmethod : request.method ∈ endpoint.methods) :
    (respond store now timestamp request).result
      = sent request (handle store now timestamp request endpoint).result := by
  simp only [respond, dispatch, hoptions, if_false, hpath, hmethod, not_true_eq_false, sent]
  split <;> rfl

/-- **With an operation, the response answers its result.** -/
theorem exists_answer (store : Store) (now : Nat) (timestamp : String)
    (hsome : operation? request = some operation) :
    ∃ response, Answers operation (store.apply now operation).result response
      ∧ (respond store now timestamp request).result = sent request response := by
  obtain ⟨hoptions, endpoint, hpath, hmethod, hoperation⟩ := operation?_eq_some_iff.1 hsome
  exact ⟨_, answers_handle store now timestamp hoperation,
    result_respond store now timestamp hoptions hpath hmethod⟩

/-- **Without an operation, a request is refused**, unless it only looks. -/
theorem status_ne_of_operation?_eq_none (store : Store) (now : Nat) (timestamp : String)
    (hnone : operation? request = none) (hlooks : ¬ OnlyLooks request) :
    (respond store now timestamp request).result.status ≠ 200 := by
  have hoptions : request.method ≠ "OPTIONS" := fun h => hlooks (.inl h)
  cases hpath : Endpoint.ofPath? request.path with
  | none =>
    simp only [respond, dispatch, hoptions, if_false, hpath]
    exact (by decide : 404 ≠ 200)
  | some endpoint =>
    by_cases hmethod : request.method ∈ endpoint.methods
    · rw [operation?_of_endpoint hoptions hpath hmethod] at hnone
      have hhealth : endpoint ≠ .health := by
        rintro rfl
        exact hlooks (.inr ⟨hmethod, .inr ((path_of_ofPath? hpath).2 rfl)⟩)
      obtain ⟨response, hstatus, hrefusal⟩ := handle_refuses now timestamp hnone hhealth
      have hhandle : handle store now timestamp request endpoint = unchanged store response :=
        hrefusal store
      rw [result_respond store now timestamp hoptions hpath hmethod, status_sent, hhandle]
      exact hstatus
    · simp only [respond, dispatch, hoptions, if_false, hpath, hmethod, not_false_eq_true, if_true]
      exact (by decide : 405 ≠ 200)

/-! ### Reasons for a refusal -/

theorem keyProblem?_isNone_iff (key : String) :
    (keyProblem? key).isNone = true ↔ ¬ (key = "" ∨ longestKey < key.utf8ByteSize) := by
  unfold keyProblem?
  rw [← String.isEmpty_iff]
  by_cases hempty : key.isEmpty = true
  · simp [hempty]
  · by_cases hlong : longestKey < key.utf8ByteSize <;> simp [hempty, hlong]

theorem InvalidateOrder.problem?_isNone_iff (order : InvalidateOrder) :
    order.problem?.isNone = true ↔ ¬ order.pattern = "" := by
  unfold InvalidateOrder.problem?
  rw [← String.isEmpty_iff]
  by_cases hempty : order.pattern.isEmpty = true <;> simp [hempty]

theorem LimitsOrder.problem?_isNone_iff (order : LimitsOrder) :
    order.problem?.isNone = true ↔ ¬ (order.budget = some 0 ∨ order.defaultTtl = some 0) := by
  unfold LimitsOrder.problem?
  by_cases hbudget : order.budget = some 0
  · simp [hbudget]
  · by_cases httl : order.defaultTtl = some 0 <;> simp [hbudget, httl]

/-- An order that is not carried out is in an unusable body, or it is objected to. -/
theorem body_or_objection {α : Type} {reader : Json.Reader α} {isFine : α → Bool}
    (hnone : (decodeOrder? request reader).filter isFine = none) :
    ((request.header? contentType).any isJsonMediaType = false
        ∨ longestBody < request.body.length)
      ∨ ∀ order, Json.readFirst reader request.body = .ok order → ¬ isFine order = true := by
  refine or_iff_not_imp_left.2 fun hbody order hread => ?_
  exact Option.filter_eq_none_iff.1 hnone order (decodeOrder?_eq_some_iff.2 ⟨hbody, hread⟩)

/-- A key that is not used cannot be decoded, or it is objected to. -/
theorem key_objection {segment : String} (hnone : decodeKey? segment = none) {key : String}
    (hkey : decodeUtf8? (percentDecode (encodeUtf8 segment)) = some key) :
    key = "" ∨ longestKey < key.utf8ByteSize :=
  not_imp_comm.1 (keyProblem?_isNone_iff key).2 (Option.filter_eq_none_iff.1 hnone key hkey)

/-- **Every reason to refuse a request leaves it without an operation.** -/
theorem Refused.operation?_eq_none (h : Refused request) : operation? request = none := by
  rw [Option.eq_none_iff_forall_ne_some]
  intro operation hsome
  obtain ⟨-, endpoint, hendpoint, hmethod, hoperation⟩ := operation?_eq_some_iff.1 hsome
  cases h with
  | path hpath => exact Option.some_ne_none _ (hendpoint.symm.trans hpath)
  | method hpath hnot =>
    obtain rfl := Option.some.inj (hpath.symm.trans hendpoint)
    exact hnot hmethod
  | @key _ segment hpath hkind hkey =>
    obtain rfl := Option.some.inj (hpath.symm.trans hendpoint)
    rcases hkind with rfl | rfl
    all_goals
      obtain ⟨key, hdecode, hfine, -⟩ := exists_of_filter_map hoperation
      exact (keyProblem?_isNone_iff key).1 hfine (hkey key hdecode)
  | body hpath hkind hbody =>
    obtain rfl := Option.some.inj (hpath.symm.trans hendpoint)
    simp only [List.mem_cons, List.not_mem_nil, or_false] at hkind
    rcases hkind with rfl | rfl | rfl
    all_goals
      obtain ⟨order, hdecode, -, -⟩ := exists_of_filter_map hoperation
      exact (decodeOrder?_eq_some_iff.1 hdecode).1 hbody
  | set hpath horder =>
    obtain rfl := Option.some.inj (hpath.symm.trans hendpoint)
    obtain ⟨order, hdecode, hfine, -⟩ := exists_of_filter_map hoperation
    exact (keyProblem?_isNone_iff order.key).1 hfine
      (horder order (decodeOrder?_eq_some_iff.1 hdecode).2)
  | invalidate hpath horder =>
    obtain rfl := Option.some.inj (hpath.symm.trans hendpoint)
    obtain ⟨order, hdecode, hfine, -⟩ := exists_of_filter_map hoperation
    exact order.problem?_isNone_iff.1 hfine (horder order (decodeOrder?_eq_some_iff.1 hdecode).2)
  | limits hpath horder =>
    obtain rfl := Option.some.inj (hpath.symm.trans hendpoint)
    obtain ⟨order, hdecode, hfine, -⟩ := exists_of_filter_map hoperation
    exact order.problem?_isNone_iff.1 hfine (horder order (decodeOrder?_eq_some_iff.1 hdecode).2)

/-- **There is no other reason** to leave a request without an operation, unless it only looks. -/
theorem refused_of_operation?_eq_none (hnone : operation? request = none)
    (hlooks : ¬ OnlyLooks request) : Refused request := by
  have hoptions : request.method ≠ "OPTIONS" := fun h => hlooks (.inl h)
  cases hpath : Endpoint.ofPath? request.path with
  | none => exact .path hpath
  | some endpoint =>
    by_cases hmethod : request.method ∈ endpoint.methods
    · rw [operation?_of_endpoint hoptions hpath hmethod] at hnone
      cases endpoint with
      | set =>
        rcases body_or_objection (Option.map_eq_none_iff.1 hnone) with hbody | hobjection
        · exact .body hpath (by decide) hbody
        · exact .set hpath fun order horder =>
            not_imp_comm.1 (keyProblem?_isNone_iff order.key).2 (hobjection order horder)
      | read segment =>
        exact .key hpath (.inl rfl) fun key => key_objection (Option.map_eq_none_iff.1 hnone)
      | drop segment =>
        exact .key hpath (.inr rfl) fun key => key_objection (Option.map_eq_none_iff.1 hnone)
      | invalidate =>
        rcases body_or_objection (Option.map_eq_none_iff.1 hnone) with hbody | hobjection
        · exact .body hpath (by decide) hbody
        · exact .invalidate hpath fun order horder =>
            not_imp_comm.1 order.problem?_isNone_iff.2 (hobjection order horder)
      | clear => exact absurd hnone (Option.some_ne_none _)
      | statistics => exact absurd hnone (Option.some_ne_none _)
      | resetStatistics => exact absurd hnone (Option.some_ne_none _)
      | limits =>
        rcases body_or_objection (Option.map_eq_none_iff.1 hnone) with hbody | hobjection
        · exact .body hpath (by decide) hbody
        · exact .limits hpath fun order horder =>
            not_imp_comm.1 order.problem?_isNone_iff.2 (hobjection order horder)
      | health => exact absurd (.inr ⟨hmethod, .inr ((path_of_ofPath? hpath).2 rfl)⟩) hlooks
    · exact .method hpath hmethod

/-! ### The effect of a request -/

/-- A response that tells of an operation: a success, or a readable key that is not found. -/
def IsEffective (request : Request) (response : Response) : Prop :=
  response.status = 200 ∨ response.status = 404 ∧ ∃ key, ReadsKey request key

/-- Without an operation there is no effect. -/
theorem not_isEffective (store : Store) (now : Nat) (timestamp : String)
    (hnone : operation? request = none) (hlooks : ¬ OnlyLooks request) :
    ¬ IsEffective request (respond store now timestamp request).result := by
  rintro (hsuccess | ⟨-, key, hreads⟩)
  · exact status_ne_of_operation?_eq_none store now timestamp hnone hlooks hsuccess
  · rw [operation?_eq_getWithTtl_iff.2 hreads] at hnone
    exact Option.some_ne_none _ hnone

/-- Every operation tells of itself. -/
theorem isEffective_of_operation? (store : Store) (now : Nat) (timestamp : String)
    (hsome : operation? request = some operation) :
    IsEffective request (respond store now timestamp request).result := by
  obtain ⟨response, hanswers, hresult⟩ := exists_answer store now timestamp hsome
  rw [hresult, IsEffective, status_sent]
  rcases hanswers.status_eq with hstatus | ⟨hstatus, key, rfl⟩
  · exact .inl hstatus
  · exact .inr ⟨hstatus, key, operation?_eq_getWithTtl_iff.1 hsome⟩

theorem isServed_of_answers (h : Answers operation reply response)
    (hstatistics : operation ≠ .statistics) : IsServed operation := by
  cases h with
  | statistics snapshot => exact absurd rfl hstatistics
  | _ => trivial

/-- **A request is all or nothing.**  A response that is neither a success nor tells that a readable
    key is not found leaves the store as it was; so do requests that only look, and all that are
    refused for one of the known reasons.  Every other request is one operation with the decoded
    arguments, and the response is the answer to its result.  Nothing else is refused: where there
    is an operation, or no reason for a refusal, the response tells of the operation. -/
theorem respond_all_or_nothing (store : Store) (now : Nat) (timestamp : String)
    (request : Request) :
    let step := respond store now timestamp request
    (¬ IsEffective request step.result → step.store = store)
    ∧ (OnlyLooks request → step.store = store)
    ∧ (Refused request → step.store = store
      ∧ (¬ OnlyLooks request → ¬ IsEffective request step.result))
    ∧ (IsEffective request step.result → ¬ OnlyLooks request → ∃ operation response,
      operation? request = some operation ∧ IsServed operation
        ∧ step.store = (store.apply now operation).store
        ∧ Answers operation (store.apply now operation).result response
        ∧ step.result = sent request response)
    ∧ (∀ operation, operation? request = some operation → IsEffective request step.result)
    ∧ (¬ OnlyLooks request → ¬ Refused request → IsEffective request step.result) := by
  intro step
  have hstore : step.store = storeAfter store now (operation? request) :=
    store_respond store now request timestamp
  have htells : ∀ operation, operation? request = some operation
      → IsEffective request step.result := fun operation hoperation =>
    isEffective_of_operation? store now timestamp hoperation
  refine ⟨fun heffect => ?_, fun hlooks => ?_, fun hrefused => ?_, fun heffect hlooks => ?_, htells,
    fun hlooks hrefused => ?_⟩
  · cases hoperation : operation? request with
    | none => rw [hstore, hoperation]; rfl
    | some operation =>
      exact absurd (htells operation hoperation) heffect
  · exact store_of_onlyLooks hlooks store now timestamp
  · have hnone := hrefused.operation?_eq_none
    rw [hstore, hnone]
    exact ⟨rfl, not_isEffective store now timestamp hnone⟩
  · cases hoperation : operation? request with
    | none => exact absurd heffect (not_isEffective store now timestamp hoperation hlooks)
    | some operation =>
      obtain ⟨response, hanswers, hresult⟩ := exists_answer store now timestamp hoperation
      have hserved := isServed_of_answers hanswers fun hstatistics =>
        hlooks (onlyLooks_of_statistics (hstatistics ▸ hoperation))
      exact ⟨operation, response, rfl, hserved, by rw [hstore, hoperation]; rfl, hanswers, hresult⟩
  · cases hoperation : operation? request with
    | none => exact absurd (refused_of_operation?_eq_none hoperation hlooks) hrefused
    | some operation => exact htells operation hoperation

/-- Of two limits one is possible and one is not: neither is set.  A key with a slash is not found,
    which counts as a read, and a glance at the statistics does not. -/
theorem respond_all_or_nothing_half :
    let limits : Request :=
      { method := "PUT", path := "/config", headers := [("Content-Type", "application/json")]
        body := encodeUtf8 "\x7b\"max_size_bytes\":5,\"default_ttl\":0\x7d" }
    let read : Request := { method := "HEAD", path := "/get/a%2Fb" }
    let glance : Request := { method := "GET", path := "/stats" }
    let store := (Store.standard.apply 0 (.put "a" ⟨[]⟩ 5)).store
    (Refused limits ∧ (respond store 9 "" limits).store = store)
      ∧ (OnlyLooks glance ∧ (respond store 9 "" glance).store = store)
      ∧ (operation? read = some (.getWithTtl "a/b") ∧ ¬ Refused read
        ∧ (respond store 9 "" read).result.status = 404)
      ∧ IsEffective read (respond store 9 "" read).result ∧ ¬ OnlyLooks read
      ∧ ∃ operation response, operation? read = some operation ∧ IsServed operation
        ∧ (respond store 9 "" read).store = (store.apply 9 operation).store
        ∧ Answers operation (store.apply 9 operation).result response
        ∧ (respond store 9 "" read).result = sent read response := by
  intro limits read glance store
  have hrefused : Refused limits := by
    refine .limits rfl fun order horder => .inr ?_
    have hread : (Json.readFirst LimitsOrder.reader limits.body).toOption
        = some ⟨some 5, some 0⟩ := by decide +kernel
    rw [horder] at hread
    exact congrArg LimitsOrder.defaultTtl (Option.some.inj hread)
  have hglance : OnlyLooks glance := .inr ⟨by decide, .inl rfl⟩
  have hlooks : ¬ OnlyLooks read := by
    unfold OnlyLooks
    decide
  have hreads : ReadsKey read "a/b" := ⟨by decide, "a%2Fb", by decide, by decide +kernel⟩
  have hoperation : operation? read = some (.getWithTtl "a/b") :=
    operation?_eq_getWithTtl_iff.2 hreads
  have hserved : ¬ Refused read := fun hrefused =>
    Option.some_ne_none _ (hoperation.symm.trans hrefused.operation?_eq_none)
  obtain ⟨-, -, -, heffects, htells, -⟩ := respond_all_or_nothing store 9 "" read
  have heffect := htells (.getWithTtl "a/b") hoperation
  refine ⟨⟨hrefused, ?_⟩, ⟨hglance, ?_⟩, ⟨hoperation, hserved, by decide +kernel⟩, heffect, hlooks,
    heffects heffect hlooks⟩
  · exact ((respond_all_or_nothing store 9 "" limits).2.2.1 hrefused).1
  · exact (respond_all_or_nothing store 9 "" glance).2.1 hglance

end BoundedCache.Http
