import BoundedCache.Config
import BoundedCache.Proofs.Http.RoundTrip
import BoundedCache.Proofs.Run.Reads
import BoundedCache.Proofs.Session.Trace

namespace BoundedCache

/-!
# The limits of a service

A store takes any budget and any time to live, 0 among them.  A service does not let it come to
that: it starts with a configuration without a problem (`Config.maxSizeBytes_eq`), and no request
that it accepts sets a limit to 0 (`Http.setsNoZero_of_operation?`).  So the limits stay positive
whatever is requested, and nothing is stored that has ended already
(`Session.serves_within_limits`).
-/

/-! ### What a service starts with -/

namespace Config

variable {config : Config}

/-- The budget of a configuration without a problem is the exact product. -/
theorem maxSizeBytes_eq (h : config.problem? = none) :
    config.maxSizeBytes = config.maxSizeMb * 1048576 ∧ 0 < config.maxSizeBytes
      ∧ 0 < config.defaultTtl := by
  unfold problem? at h
  split at h
  · exact absurd h (by simp)
  · split at h
    · exact absurd h (by simp)
    · split at h
      · exact absurd h (by simp)
      · next hspace hfits httl =>
        have hexact : config.maxSizeBytes = config.maxSizeMb * Store.megabyte :=
          Word.mulSat_eq_mul (by omega)
        rw [Store.megabyte] at hexact
        omega

end Config

/-! ### What requests set -/

/-- Whether an operation sets no limit to 0. -/
def Operation.SetsNoZero (operation : Operation) : Prop :=
  operation.newBudget? ≠ some 0 ∧ operation.newDefaultTtl? ≠ some 0

theorem Http.LimitsOrder.setsNoZero {order : LimitsOrder} (h : order.problem? = none) :
    (Operation.reconfigure order.budget order.defaultTtl).SetsNoZero := by
  unfold problem? at h
  split at h
  · exact absurd h (by simp)
  · split at h
    · exact absurd h (by simp)
    · next hbudget httl => exact ⟨hbudget, httl⟩

/-- Most operations set no limit at all. -/
theorem Operation.SetsNoZero.of_none {operation : Operation}
    (hbudget : operation.newBudget? = none) (hdefaultTtl : operation.newDefaultTtl? = none) :
    operation.SetsNoZero := by
  rw [SetsNoZero, hbudget, hdefaultTtl]
  exact ⟨(Option.some_ne_none 0).symm, (Option.some_ne_none 0).symm⟩

/-- **No request sets a limit to 0.** -/
theorem Http.setsNoZero_of_operation? {request : Request} {operation : Operation}
    (h : operation? request = some operation) : operation.SetsNoZero := by
  unfold operation? at h
  split at h
  · exact absurd h (by simp)
  · obtain ⟨endpoint, -, h⟩ := Option.bind_eq_some_iff.1 h
    -- Only an order for limits sets any; it is checked before.
    cases endpoint with
    | limits =>
      obtain ⟨order, horder, rfl⟩ := Option.map_eq_some_iff.1 h
      have hproblem := (Option.filter_eq_some_iff.1 horder).2
      exact LimitsOrder.setsNoZero (Option.isNone_iff_eq_none.1 hproblem)
    | set =>
      obtain ⟨_, -, rfl⟩ := Option.map_eq_some_iff.1 h
      exact .of_none rfl rfl
    | read segment =>
      obtain ⟨_, -, rfl⟩ := Option.map_eq_some_iff.1 h
      exact .of_none rfl rfl
    | drop segment =>
      obtain ⟨_, -, rfl⟩ := Option.map_eq_some_iff.1 h
      exact .of_none rfl rfl
    | invalidate =>
      obtain ⟨_, -, rfl⟩ := Option.map_eq_some_iff.1 h
      exact .of_none rfl rfl
    | clear | statistics | resetStatistics =>
      obtain rfl := Option.some.inj h
      exact .of_none rfl rfl
    | health => exact absurd h (by simp [Endpoint.operation?])

/-! ### What a service does -/

/-- Whether a happening is none of those that act on the cache without a request. -/
def Happening.IsServed : Happening → Prop
  | .action _ (.operate _ _) => False
  | _ => True

namespace Session

theorem setsNoZero_of_mem_operationsOf {session : Session} {happening : Happening}
    (hserved : happening.IsServed) {operation : Operation}
    (hoperation : operation ∈ session.operationsOf happening) : operation.SetsNoZero := by
  have hsweeps {sweepers : List Nat} (h : operation ∈ session.sweepsOf sweepers) :
      operation.SetsNoZero := by
    obtain ⟨_, -, rfl⟩ := List.mem_map.1 h
    exact .of_none rfl rfl
  cases happening with
  | tick sweeper => exact hsweeps hoperation
  | action timestamp action =>
    cases action with
    | operate handle operation => exact hserved.elim
    | send handle request =>
      rw [operationsOf] at hoperation
      split at hoperation
      · exact Http.setsNoZero_of_operation? (Option.mem_toList.1 hoperation)
      · exact absurd hoperation List.not_mem_nil
    | elapse millis => exact hsweeps hoperation
    | _ => exact absurd hoperation List.not_mem_nil

/-- The calls of a service set no limit to 0, and have the readings of its incidents. -/
theorem of_mem_trace {session : Session} {incidents : List Incident}
    (hserved : ∀ incident ∈ incidents, incident.happening.IsServed) {call : Call}
    (hcall : call ∈ session.trace incidents) :
    call.operation.SetsNoZero ∧ ∃ incident ∈ incidents, call.now = incident.now := by
  induction incidents generalizing session with
  | nil => exact absurd hcall List.not_mem_nil
  | cons incident incidents ih =>
    obtain ⟨hhere, hlater⟩ := List.forall_mem_cons.1 hserved
    rcases List.mem_append.1 hcall with hcall | hcall
    · obtain ⟨operation, hoperation, rfl⟩ := List.mem_map.1 hcall
      exact ⟨setsNoZero_of_mem_operationsOf hhere hoperation, incident, List.mem_cons_self, rfl⟩
    · obtain ⟨hnoZero, other, hother, hnow⟩ := ih hlater hcall
      exact ⟨hnoZero, other, List.mem_cons_of_mem _ hother, hnow⟩

end Session

/-! ### Limits and entries -/

/-- What is never set to 0 does not become 0. -/
theorem lastSet_pos {initial : Nat} {set? : Operation → Option Nat} {calls : List Call}
    (hinitial : 0 < initial) (hset : ∀ call ∈ calls, set? call.operation ≠ some 0) :
    0 < lastSet initial set? calls := by
  induction calls using List.reverseRecOn with
  | nil => exact hinitial
  | append_singleton calls call ih =>
    have hcalls := ih fun other hother => hset other (List.mem_append_left _ hother)
    have hcall := hset call (List.mem_append_right _ (List.mem_singleton_self _))
    rw [lastSet_concat]
    cases hlast : set? call.operation with
    | none => exact hcalls
    | some n =>
      rw [hlast] at hcall
      exact Nat.pos_of_ne_zero fun hzero => hcall (congrArg some hzero)

/-- An entry that can be read for a second from a reading on, or to the end of all readings. -/
structure Entry.LivesFrom (entry : Entry) (putAt : Nat) : Prop where
  expiry_ge : min (putAt + 1000) Word.top ≤ entry.expiresAt
  live : entry.isExpired putAt = false
  not_due : putAt < Word.top → entry.isDue putAt = false

theorem Entry.livesFrom_of_expiry {entry : Entry} {putAt seconds : Nat} (hseconds : 0 < seconds)
    (hputAt : putAt ≤ Word.top) (hexpiry : entry.expiresAt = expiry putAt seconds) :
    entry.LivesFrom putAt := by
  have hge : min (putAt + 1000) Word.top ≤ entry.expiresAt := by
    have htop : 1000 ≤ Word.top := by decide
    rw [hexpiry, expiry, Word.addSat, Word.mulSat]
    omega
  refine ⟨hge, decide_eq_false ?_, fun hlt => decide_eq_false ?_⟩
  · omega
  · omega

namespace Store

/-- The seconds that a put grants are none too few as long as the default is not. -/
theorem effectiveTtl_pos {store : Store} (hdefaultTtl : 0 < store.defaultTtl) (ttl : Int) :
    0 < store.effectiveTtl ttl := by
  unfold effectiveTtl
  split
  · exact hdefaultTtl
  · omega

/-- **What is put lives for a second at least** as long as the default is not 0. -/
theorem exists_livesFrom_of_put {store : Store} (hdefaultTtl : 0 < store.defaultTtl) {now : Nat}
    (hnow : now ≤ Word.top) (key : String) (value : Json.Payload) (ttl : Int) :
    ∃ entry, (store.apply now (.put key value ttl)).store.entries.find? key = some entry
      ∧ entry.LivesFrom now := by
  obtain ⟨entry, hfind, -, hexpiry⟩ := lease?_eq_some_iff.1 (lease?_put store now key value ttl)
  exact ⟨entry, hfind, Entry.livesFrom_of_expiry (effectiveTtl_pos hdefaultTtl ttl) hnow hexpiry⟩

end Store

namespace Session

/-- A session whose cache is that of a configuration. -/
def withConfig (session : Session) (config : Config) : Session :=
  { session with store := config.store }

/-- **A service never comes to a degenerate limit.**  A configuration without a problem has a budget
    that is the exact product and positive.  However a service with it is used, by requests and by
    sweepers, at any clock readings: both limits are at least 1; every entry was made by the latest
    put of its key, and at the reading of that put it had a second left, or all the time there is;
    and so it is with every entry that a next request stores, whatever time to live it asks for. -/
theorem serves_within_limits {config : Config} (hconfig : config.problem? = none)
    (session : Session) {incidents : List Incident}
    (hserved : ∀ incident ∈ incidents, incident.happening.IsServed)
    (hnow : ∀ incident ∈ incidents, incident.now ≤ Word.top) :
    let store := ((session.withConfig config).afterAll incidents).store
    (config.maxSizeBytes = config.maxSizeMb * 1048576 ∧ 1 ≤ config.maxSizeBytes)
      ∧ 1 ≤ store.budget ∧ 1 ≤ store.defaultTtl
      ∧ (∀ key entry, store.entries.find? key = some entry →
        ∃ earlier putAt ttl later, (session.withConfig config).trace incidents
            = earlier ++ ⟨putAt, .put key entry.value ttl⟩ :: later
          ∧ (∀ call ∈ later, call.operation.putKey? ≠ some key) ∧ entry.LivesFrom putAt)
      ∧ ∀ now timestamp request key value ttl, now ≤ Word.top →
        Http.operation? request = some (.put key value ttl) →
        ∃ entry, (Http.respond store now timestamp request).store.entries.find? key = some entry
          ∧ entry.LivesFrom now := by
  intro store
  obtain ⟨hexact, hbudget, hdefaultTtl⟩ := config.maxSizeBytes_eq hconfig
  have hstore : store = (Store.new config.maxSizeBytes config.defaultTtl).after
      ((session.withConfig config).trace incidents) := store_afterAll _ incidents
  have htrace (call : Call) (hcall : call ∈ (session.withConfig config).trace incidents) :
      call.operation.SetsNoZero ∧ ∃ incident ∈ incidents, call.now = incident.now :=
    of_mem_trace hserved hcall
  have hpositive {calls : List Call}
      (hcalls : ∀ call ∈ calls, call ∈ (session.withConfig config).trace incidents) :
      0 < ((Store.new config.maxSizeBytes config.defaultTtl).after calls).defaultTtl := by
    rw [Store.defaultTtl_after]
    exact lastSet_pos hdefaultTtl fun call hcall => (htrace call (hcalls call hcall)).1.2
  have hnext : 0 < store.defaultTtl := hstore ▸ hpositive fun _ hcall => hcall
  refine ⟨⟨hexact, hbudget⟩, ?_, hnext, ?_, ?_⟩
  · rw [hstore, Store.budget_after]
    exact lastSet_pos hbudget fun call hcall => (htrace call hcall).1.1
  · intro key entry hfind
    have hlease : store.lease? key = some (entry.value, entry.expiresAt) :=
      Store.lease?_eq_some_iff.2 ⟨entry, hfind, rfl, rfl⟩
    rw [hstore, Store.lease?_after_iff] at hlease
    obtain ⟨earlier, putAt, ttl, later, hcalls, hexpiry, hlater, -⟩ := hlease
    rw [← Store.expiry_after] at hexpiry
    have hput : ⟨putAt, .put key entry.value ttl⟩ ∈ (session.withConfig config).trace incidents :=
      hcalls ▸ List.mem_append_right _ List.mem_cons_self
    obtain ⟨-, incident, hincident, rfl⟩ := htrace _ hput
    refine ⟨earlier, incident.now, ttl, later, hcalls, fun call hcall => (hlater call hcall).1, ?_⟩
    refine Entry.livesFrom_of_expiry (Store.effectiveTtl_pos (hpositive fun call hcall => ?_) ttl)
      (hnow incident hincident) hexpiry
    exact hcalls ▸ List.mem_append_left _ hcall
  · intro now timestamp request key value ttl hnow hrequest
    rw [Http.store_respond, hrequest]
    exact Store.exists_livesFrom_of_put hnext hnow key value ttl

/-- A service is asked to store an entry with a negative time to live and to set the default to 0,
    while the clock jumps to its last reading and back. -/
theorem serves_within_limits_negative :
    let config : Config := { maxSizeMb := 2, defaultTtl := 1 }
    let session : Session := { store := .standard, clock := 0, sweepers := [.spawn 0 1000] }
    let order : Http.SetOrder := { key := "a", value := ⟨[]⟩, ttl := some (-9) }
    let json := [("Content-Type", "application/json")]
    let put : Http.Request :=
      { method := "PUT", path := "/set", headers := json
        body := encodeUtf8 (Json.Value.object (order.members false)).render }
    let limits : Http.Request :=
      { method := "PUT", path := "/config", headers := json
        body := encodeUtf8 "\x7b\"default_ttl\":0\x7d" }
    let incidents : List Incident :=
      [⟨7, .action "" (.send 0 put)⟩, ⟨8, .action "" (.send 0 limits)⟩,
        ⟨7, .action "" (.elapse 3000)⟩, ⟨Word.top, .tick 0⟩, ⟨9, .action "" (.send 0 put)⟩]
    let store := ((session.withConfig config).afterAll incidents).store
    config.problem? = none ∧ config.maxSizeBytes = 2097152 ∧ 1 ≤ store.budget
      ∧ 1 ≤ store.defaultTtl
      ∧ ∃ entry, (Http.respond store 9 "" put).store.entries.find? "a" = some entry
        ∧ entry.LivesFrom 9 := by
  intro config session order json put limits incidents store
  have hconfig : config.problem? = none := by decide
  have hserved : ∀ incident ∈ incidents, incident.happening.IsServed := by
    simp [incidents, Happening.IsServed]
  have hnow : ∀ incident ∈ incidents, incident.now ≤ Word.top := by decide
  have hwritable : order.IsWritable := by
    refine ⟨.object .nil (fun member hmember => nomatch hmember), fun ttl httl => ?_⟩
    obtain rfl := Option.some.inj httl
    decide
  have hfits : put.body.length ≤ Http.longestBody := by
    rw [show put.body = _ from Json.encodeUtf8_render _]
    decide
  have hstores : Http.Stores order put :=
    ⟨rfl, rfl, by decide, ⟨false, _, .refl _, rfl⟩, hfits⟩
  have hput := Http.operation?_of_stores hstores hwritable (by decide) (by decide)
  obtain ⟨⟨hexact, -⟩, hbudget, hdefaultTtl, -, hrequests⟩ :=
    serves_within_limits hconfig session hserved hnow
  exact ⟨hconfig, hexact.trans (by decide), hbudget, hdefaultTtl,
    hrequests 9 "" put "a" ⟨[]⟩ _ (by decide) hput⟩

end Session

end BoundedCache
