import BoundedCache.Proofs.Http.Operation
import BoundedCache.Proofs.Session.Moves
import BoundedCache.Proofs.Store.Operation

namespace BoundedCache

/-!
# Who reports what

The task of a sweeper reports its start, its sweeps and its end.  Nothing else does: the reports of
the store and of the service are other ones (`Step.SparesTasks`), and a move in which no task has a
part makes no report of a task (`Session.isFromTask_of_taskOf?`).
-/

namespace Event

/-- Whether a report is made by the task of a sweeper. -/
def isFromTask : Event → Bool
  | sweepStarted _ => true
  | sweepRemoved .. => true
  | sweepIdle _ => true
  | sweepOrphaned => true
  | sweepCancelled => true
  | _ => false

end Event

/-! ### The store and the service -/

/-- Whether no report of a step is made by a task. -/
def Step.SparesTasks {α : Type} (step : Step α) : Prop :=
  ∀ event ∈ step.events, event.isFromTask = false

namespace Step.SparesTasks

theorem of_nil {α : Type} {step : Step α} (h : step.events = []) : step.SparesTasks := by
  intro event hevent
  rw [h] at hevent
  exact absurd hevent List.not_mem_nil

theorem map {α β : Type} {step : Step α} (h : step.SparesTasks) (f : α → β) :
    (step.map f).SparesTasks :=
  h

theorem concat {α : Type} {step : Step α} (h : step.SparesTasks) {event : Event}
    (hevent : event.isFromTask = false) :
    Step.SparesTasks { step with events := step.events ++ [event] } := by
  intro other hother
  rcases List.mem_append.1 hother with hother | hother
  · exact h other hother
  · rw [List.mem_singleton.1 hother]
    exact hevent

end Step.SparesTasks

theorem Store.sparesTasks_apply (store : Store) (now : Nat) (operation : Operation) :
    (store.apply now operation).SparesTasks := by
  have hgone (gone : List (String × Entry)) :
      ∀ event ∈ gone.map fun row => Event.evicted row.1 row.2.size, event.isFromTask = false := by
    intro event hevent
    obtain ⟨row, -, rfl⟩ := List.mem_map.1 hevent
    rfl
  cases hput : operation.putKey? with
  | some key =>
    obtain ⟨value, ttl, rfl⟩ := Operation.eq_put_of_putKey? hput
    obtain ⟨gone, last, -, -, -, hevents⟩ := store.exists_put_eq now key value ttl
    intro event hevent
    rw [hevents, putWarnings] at hevent
    rcases List.mem_append.1 hevent with hwarning | hevicted
    · split at hwarning
      · rw [List.mem_singleton.1 hwarning]
        rfl
      · exact absurd hwarning List.not_mem_nil
    · exact hgone gone event hevicted
  | none =>
    cases hbytes : operation.newBudget? with
    | some bytes =>
      obtain ⟨gone, last, -, -, hevents, -⟩ := store.exists_resize_eq now hbytes
      intro event hevent
      rw [hevents] at hevent
      exact hgone gone event hevent
    | none => exact .of_nil (store.events_apply now hput hbytes)

namespace Http

variable (store : Store) (now : Nat) (request : Request)

theorem sparesTasks_withOrder {α : Type} (reader : Json.Reader α) {handle : α → Step Response}
    (h : ∀ order, (handle order).SparesTasks) :
    (withOrder store request reader handle).SparesTasks := by
  unfold withOrder
  split
  · exact .of_nil rfl
  · split
    · exact .of_nil rfl
    · split
      · exact h _
      · exact .of_nil rfl
      · exact .of_nil rfl

theorem sparesTasks_withKey (segment : String) {handle : String → Step Response}
    (h : ∀ key, (handle key).SparesTasks) : (withKey store segment handle).SparesTasks := by
  unfold withKey
  split
  · exact h _
  · exact .of_nil rfl

theorem sparesTasks_handle (timestamp : String) (endpoint : Endpoint) :
    (handle store now timestamp request endpoint).SparesTasks := by
  have happly := store.sparesTasks_apply now
  cases endpoint with
  | set =>
    refine sparesTasks_withOrder store request _ fun order => ?_
    unfold handleSet
    split
    · exact .of_nil rfl
    · exact happly (.put order.key order.value (order.ttl.getD 0))
  | read segment =>
    refine sparesTasks_withKey store segment fun key => ?_
    unfold handleRead
    split
    · exact .of_nil rfl
    · exact happly (.getWithTtl key)
  | drop segment =>
    refine sparesTasks_withKey store segment fun key => ?_
    unfold handleDrop
    split <;> exact .of_nil rfl
  | invalidate =>
    refine sparesTasks_withOrder store request _ fun order => ?_
    unfold handleInvalidate
    split
    · exact .of_nil rfl
    · exact (happly (.invalidatePattern order.pattern)).concat rfl
  | clear => exact (happly .clear).concat rfl
  | statistics => exact .of_nil rfl
  | resetStatistics => exact .of_nil rfl
  | limits =>
    refine sparesTasks_withOrder store request _ fun order => ?_
    unfold handleLimits
    split
    · exact .of_nil rfl
    · exact (happly (.reconfigure order.budget order.defaultTtl)).concat rfl
  | health => exact .of_nil rfl

theorem sparesTasks_respond (timestamp : String) :
    (respond store now timestamp request).SparesTasks := by
  unfold respond dispatch
  refine .map ?_ _
  split
  · exact .of_nil rfl
  · split
    · exact .of_nil rfl
    · split
      · exact .of_nil rfl
      · have hhandle := sparesTasks_handle store now request timestamp
        split
        · exact (hhandle _).map _
        · exact hhandle _

end Http

namespace Session

/-! ### Moves -/

/-- The sweeper whose task has a part in a move. -/
def taskOf? (session : Session) : Move → Option Nat
  | .act _ (.spawnSweeper handle _) =>
    if session.isAlive handle then some session.sweepers.length else none
  | .act _ (.shutdown number) => some number
  | .act _ (.releaseSweeper number) => some number
  | .tick number _ => some number
  | _ => none

/-- What the task of a sweeper reports during a move. -/
def taskReports (session : Session) (number : Nat) (move : Move) : List Event :=
  if session.taskOf? move = some number then (session.move move).2.filter Event.isFromTask else []

/-- The moves in which a task has a part. -/
theorem taskOf?_cases {session : Session} {move : Move} {number : Nat}
    (h : session.taskOf? move = some number) :
    (∃ time, move = .tick number time)
      ∨ (∃ timestamp, move = .act timestamp (.shutdown number))
      ∨ (∃ timestamp, move = .act timestamp (.releaseSweeper number))
      ∨ ∃ timestamp handle interval, move = .act timestamp (.spawnSweeper handle interval)
        ∧ session.isAlive handle = true ∧ session.sweepers.length = number := by
  cases move with
  | tick other time =>
    obtain rfl : other = number := Option.some.inj h
    exact .inl ⟨time, rfl⟩
  | act timestamp action =>
    cases action with
    | shutdown other =>
      obtain rfl : other = number := Option.some.inj h
      exact .inr (.inl ⟨timestamp, rfl⟩)
    | releaseSweeper other =>
      obtain rfl : other = number := Option.some.inj h
      exact .inr (.inr (.inl ⟨timestamp, rfl⟩))
    | spawnSweeper handle interval =>
      obtain ⟨halive, hlength⟩ := by simpa [taskOf?] using h
      exact .inr (.inr (.inr ⟨timestamp, handle, interval, rfl, halive, hlength⟩))
    | _ => simp [taskOf?] at h

/-- **Only tasks report as tasks.** -/
theorem isFromTask_of_taskOf? {session : Session} {move : Move} (h : session.taskOf? move = none) :
    ∀ event ∈ (session.move move).2, event.isFromTask = false := by
  have hnil {events : List Event} (hevents : events = []) :
      ∀ event ∈ events, event.isFromTask = false := by
    rw [hevents]
    exact fun event hevent => absurd hevent List.not_mem_nil
  cases move with
  | tick number time => simp [taskOf?] at h
  | act timestamp action =>
    cases action with
    | operate handle operation =>
      simp only [Session.move, perform]
      split
      · exact session.store.sparesTasks_apply session.clock operation
      · exact hnil rfl
    | send handle request =>
      simp only [Session.move, perform]
      split
      · exact Http.sparesTasks_respond session.store session.clock request timestamp
      · exact hnil rfl
    | clone handle =>
      simp only [Session.move, perform]
      split <;> exact hnil rfl
    | spawnSweeper handle interval =>
      by_cases halive : session.isAlive handle = true
      · simp [taskOf?, halive] at h
      · exact hnil (by simp [Session.move, perform, halive])
    | shutdown number => simp [taskOf?] at h
    | releaseSweeper number => simp [taskOf?] at h
    | advance span => exact hnil rfl
    | release handle => exact hnil rfl
    | elapse millis => exact hnil rfl
    | isFinished number => exact hnil rfl

end Session

end BoundedCache
