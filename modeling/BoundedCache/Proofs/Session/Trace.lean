import BoundedCache.Proofs.Http.Operation
import BoundedCache.Proofs.Run.Basic
import BoundedCache.Session

namespace BoundedCache

/-!
# Sessions as runs

Whatever happens to a session, its store sees a run: `session.trace incidents` are the calls that
handles, requests and ticks of sweepers make on it, and `store_afterAll` says that the store at the
end is the store after these calls.  Every incident comes with the reading of the cache's clock at
that moment, so the clock may stand still, jump or go back between any two of them, also between
ticks of one sweeper.
-/

/-- What can happen to a session. -/
inductive Happening
  /-- A user does something. -/
  | action (timestamp : String) (action : Action)
  /-- A sweeper ticks. -/
  | tick (sweeper : Nat)

/-- Something that happens at a clock reading. -/
structure Incident where
  now : Nat
  happening : Happening

namespace Session

/-- What a happening makes of a session. -/
def happen (session : Session) : Happening → Session
  | .action timestamp action => (session.perform timestamp action).session
  | .tick sweeper => (session.tick sweeper).1

/-- What an incident makes of a session. -/
def occur (session : Session) (incident : Incident) : Session :=
  { session with clock := incident.now }.happen incident.happening

/-- The session after some incidents. -/
def afterAll (session : Session) : List Incident → Session
  | [] => session
  | incident :: incidents => (session.occur incident).afterAll incidents

/-! ### The operations of a happening -/

/-- Whether a tick of a sweeper sweeps. -/
def sweeps (session : Session) (sweeper : Nat) : Bool :=
  session.hasHandle && session.sweepers[sweeper]?.any Sweeper.isRunning

/-- The sweeps of several ticks. -/
def sweepsOf (session : Session) (sweepers : List Nat) : List Operation :=
  (sweepers.filter session.sweeps).map fun _ => .sweep

/-- The operations that a happening carries out on the store, one after the other. -/
def operationsOf (session : Session) : Happening → List Operation
  | .action _ (.operate handle operation) => if session.isAlive handle then [operation] else []
  | .action _ (.send handle request) =>
    if session.isAlive handle then (Http.operation? request).toList else []
  | .action _ (.elapse millis) => session.sweepsOf
      ((session.schedule session.taskTime (session.taskTime + millis)).map Prod.snd)
  | .action _ _ => []
  | .tick sweeper => session.sweepsOf [sweeper]

/-- The calls of an incident. -/
def callsOf (session : Session) (incident : Incident) : List Call :=
  (session.operationsOf incident.happening).map fun operation => ⟨incident.now, operation⟩

/-- The calls of some incidents. -/
def trace (session : Session) : List Incident → List Call
  | [] => []
  | incident :: incidents => session.callsOf incident ++ (session.occur incident).trace incidents

/-! ### Ticks -/

/-- A tick sweeps the store, or leaves it alone. -/
theorem store_tick (session : Session) (sweeper : Nat) :
    (session.tick sweeper).1.store = if session.sweeps sweeper
      then (session.store.apply session.clock .sweep).store else session.store := by
  unfold tick sweeps
  cases session.sweepers[sweeper]? with
  | none => simp
  | some found =>
    cases hrunning : found.isRunning with
    | false => simp [hrunning]
    | true =>
      cases hhandle : session.hasHandle with
      | false => simp [hrunning]
      | true =>
        simp only [Option.any_some, hrunning, Bool.not_true, Bool.false_eq_true, if_false, if_true,
          Bool.and_self]
        rfl

theorem clock_tick (session : Session) (sweeper : Nat) :
    (session.tick sweeper).1.clock = session.clock := by
  unfold tick
  split
  · split
    · rfl
    · split <;> rfl
  · rfl

/-- A tick does not change which sweepers would sweep: one that ends ends for lack of handles. -/
theorem sweeps_tick (session : Session) (sweeper : Nat) :
    (session.tick sweeper).1.sweeps = session.sweeps := by
  funext other
  unfold tick sweeps
  split
  · split
    · rfl
    · cases hhandle : session.hasHandle with
      | true =>
        show (session.hasHandle && _) = _
        rw [hhandle]
        rfl
      | false =>
        show (session.hasHandle && _) = _
        rw [hhandle]
        rfl
  · rfl

theorem store_tickAll (session : Session) (log : List Event) (sweepers : List Nat) :
    (session.tickAll log sweepers).1.store = session.store.after
      ((session.sweepsOf sweepers).map fun operation => ⟨session.clock, operation⟩) := by
  induction sweepers generalizing session log with
  | nil => rfl
  | cons sweeper sweepers ih =>
    have hrest := ih (session.tick sweeper).1 ((session.tick sweeper).2.reverse ++ log)
    rw [clock_tick, sweepsOf, sweeps_tick, store_tick] at hrest
    rw [sweepsOf, List.filter_cons]
    refine hrest.trans ?_
    cases session.sweeps sweeper <;> rfl

/-! ### Actions -/

/-- **A happening changes the store by its operations.** -/
theorem store_happen (session : Session) (happening : Happening) :
    (session.happen happening).store = session.store.after
      ((session.operationsOf happening).map fun operation => ⟨session.clock, operation⟩) := by
  cases happening with
  | tick sweeper =>
    show (session.tick sweeper).1.store = _
    rw [store_tick, operationsOf, sweepsOf, List.filter_singleton]
    cases session.sweeps sweeper <;> rfl
  | action timestamp action =>
    cases action with
    | operate handle operation =>
      simp only [happen, perform, operationsOf]
      split <;> rfl
    | send handle request =>
      simp only [happen, perform, operationsOf]
      split
      · refine (Http.store_respond session.store session.clock request timestamp).trans ?_
        cases Http.operation? request <;> rfl
      · rfl
    | elapse millis => exact store_tickAll session [] _
    | clone handle =>
      simp only [happen, perform, operationsOf]
      split <;> rfl
    | spawnSweeper handle interval =>
      simp only [happen, perform, operationsOf]
      split <;> rfl
    | shutdown sweeper =>
      simp only [happen, perform, operationsOf, cancelSweeper]
      split <;> rfl
    | releaseSweeper sweeper =>
      simp only [happen, perform, operationsOf, cancelSweeper]
      split <;> rfl
    | advance span => rfl
    | release handle => rfl
    | isFinished sweeper => rfl

/-- **The store of a session is the store after its trace.** -/
theorem store_afterAll (session : Session) (incidents : List Incident) :
    (session.afterAll incidents).store = session.store.after (session.trace incidents) := by
  induction incidents generalizing session with
  | nil => rfl
  | cons incident incidents ih =>
    rw [afterAll, ih, trace, Store.after_append]
    exact congrArg (Store.after · _)
      (store_happen { session with clock := incident.now } incident.happening)

end Session

end BoundedCache
