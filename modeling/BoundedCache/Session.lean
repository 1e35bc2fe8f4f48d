import BoundedCache.Clock
import BoundedCache.Http.Service
import BoundedCache.Sweeper

namespace BoundedCache

/-!
# Sessions

A `Session` is a shared cache in use: the store, its clock, the handles through which it is used,
and the sweepers that work on it.  Every `Action` of a user is one step, and a step is never
interrupted by another one.  The cache lives as long as one of its handles does.
-/

/-- A cache that is in use. -/
structure Session where
  store : Store
  /-- The reading of the cache's clock. -/
  clock : Nat
  /-- The task time, which the sweepers go by. -/
  taskTime : Nat := 0
  /-- Whether each of the handles is alive. -/
  handles : List Bool := [true]
  sweepers : List Sweeper := []

/-- What a user does. -/
inductive Action
  /-- Carries out an operation of the cache. -/
  | operate (handle : Nat) (operation : Operation)
  /-- Sends a request to the service. -/
  | send (handle : Nat) (request : Http.Request)
  /-- Sets the clock forward. -/
  | advance (span : Span)
  /-- Makes one more handle from a handle. -/
  | clone (handle : Nat)
  /-- Lets go of a handle. -/
  | release (handle : Nat)
  /-- Spawns a sweeper with an interval in milliseconds. -/
  | spawnSweeper (handle : Nat) (interval : Nat)
  /-- Lets task time pass. -/
  | elapse (millis : Nat)
  /-- Asks whether a sweeper has ended. -/
  | isFinished (sweeper : Nat)
  /-- Cancels a sweeper and waits for its end. -/
  | shutdown (sweeper : Nat)
  /-- Cancels a sweeper. -/
  | releaseSweeper (sweeper : Nat)

/-- What an action gives back. -/
inductive Feedback
  | none
  | reply (reply : Reply)
  | http (response : Http.Response)
  | reading (millis : Nat)
  | handle (number : Nat)
  | flag (b : Bool)

/-- What an action leads to. -/
structure Turn where
  response : Feedback
  session : Session
  events : List Event := []

namespace Session

/-- Whether a handle is alive. -/
def isAlive (session : Session) (handle : Nat) : Bool := session.handles[handle]?.getD false

/-- Whether any handle is alive. -/
def hasHandle (session : Session) : Bool := session.handles.any id

/-- What has become of a step on the store. -/
def turn {α : Type} (session : Session) (step : Step α) (response : α → Feedback) : Turn :=
  { response := response step.result
    session := { session with store := step.store }
    events := step.events }

/-! ### Task time -/

/-- The ticks of all sweepers after `start` and up to `stop`, in the order of their times, ticks at
    one time in the order of the sweepers. -/
def schedule (session : Session) (start stop : Nat) : List (Nat × Nat) :=
  (session.sweepers.zipIdx.flatMap fun (sweeper, number) =>
    (sweeper.ticks start stop).map fun time => (time, number)).mergeSort fun x y =>
      decide (x.1 < y.1 ∨ (x.1 = y.1 ∧ x.2 ≤ y.2))

/-- One tick of a sweeper. -/
def tick (session : Session) (number : Nat) : Session × List Event :=
  match session.sweepers[number]? with
  | some sweeper =>
    if !sweeper.isRunning then (session, [])
    else if session.hasHandle then
      let step := Sweeper.sweepStore session.store session.clock
      ({ session with store := step.store }, step.events)
    else
      ({ session with sweepers := session.sweepers.set number sweeper.ended }, [.sweepOrphaned])
  | none => (session, [])

/-- Several ticks, one after the other; `log` are the events so far, the latest first. -/
def tickAll (session : Session) (log : List Event) : (numbers : List Nat) → Session × List Event
  | [] => (session, log)
  | number :: numbers =>
    let (session, events) := session.tick number
    tickAll session (events.reverse ++ log) numbers

/-- Lets task time pass, with the ticks that fall into it. -/
def elapse (session : Session) (millis : Nat) : Turn :=
  let stop := session.taskTime + millis
  let ticks := session.schedule session.taskTime stop
  let (session, log) := session.tickAll [] (ticks.map Prod.snd)
  { response := .none, session := { session with taskTime := stop }, events := log.reverse }

/-! ### Sweepers -/

/-- Spawns a sweeper. -/
def spawnSweeper (session : Session) (interval : Nat) : Turn :=
  let sweeper := Sweeper.spawn session.taskTime interval
  { response := .none
    session := { session with sweepers := session.sweepers ++ [sweeper] }
    events := [sweeper.startEvent] }

/-- Cancels a sweeper and reports `farewell` after it. -/
def cancelSweeper (session : Session) (number : Nat) (farewell : List Event) : Turn :=
  match session.sweepers[number]? with
  | some sweeper =>
    { response := .none
      session := { session with sweepers := session.sweepers.set number sweeper.ended }
      events := sweeper.cancelEvents ++ farewell }
  | none => { response := .none, session }

/-! ### Actions -/

/-- Carries out an action; `timestamp` is the time of day that the service reports.  An action
    through a handle that is not alive does nothing. -/
def perform (session : Session) (timestamp : String) : Action → Turn
  | .operate handle operation =>
    if session.isAlive handle then
      session.turn (session.store.apply session.clock operation) .reply
    else { response := .none, session }
  | .send handle request =>
    if session.isAlive handle then
      session.turn (Http.respond session.store session.clock timestamp request) .http
    else { response := .none, session }
  | .advance span =>
    let clock := span.after session.clock
    { response := .reading clock, session := { session with clock } }
  | .clone handle =>
    if session.isAlive handle then
      { response := .handle session.handles.length
        session := { session with handles := session.handles ++ [true] } }
    else { response := .none, session }
  | .release handle =>
    { response := .none, session := { session with handles := session.handles.set handle false } }
  | .spawnSweeper handle interval =>
    if session.isAlive handle then session.spawnSweeper interval
    else { response := .none, session }
  | .elapse millis => session.elapse millis
  | .isFinished number =>
    { response := .flag ((session.sweepers[number]?.map fun s => !s.isRunning).getD true), session }
  | .shutdown number => session.cancelSweeper number [.sweepStopped]
  | .releaseSweeper number => session.cancelSweeper number []

/-- Carries out actions one after the other; `log` are the events so far, the latest first. -/
def performAll (session : Session) (timestamp : String) (log : List Event) :
    (actions : List Action) → Session × List Event
  | [] => (session, log.reverse)
  | action :: actions =>
    let turn := session.perform timestamp action
    turn.session.performAll timestamp (turn.events.reverse ++ log) actions

end Session

end BoundedCache
