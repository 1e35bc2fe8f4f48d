import BoundedCache.Proofs.Session.Reports
import BoundedCache.Proofs.Session.Ticks

namespace BoundedCache

/-!
# Stopped sweepers

A sweeper is stopped by its cancellation, or by its first tick that finds no handle.  From then on
it has ended, whatever else happens (`HasEnded.moved`), and a sweeper that has ended neither sweeps
nor reports anything (`HasEnded.sweeps_eq`, `HasEnded.taskLog_eq`).  `Session.sweepers_obey` adds
who changes the store (`store_move`), who keeps it alive (`handles_move`) and when sweepers tick
(`isDue_of_passes`, `SameFor.tickRecord_eq`).
-/

/-- Whether a report is the last one of a task. -/
def Event.endsTask : Event → Bool
  | sweepOrphaned => true
  | sweepCancelled => true
  | _ => false

namespace Session

/-! ### Ended sweepers -/

/-- Whether a sweeper was spawned and has ended. -/
def HasEnded (session : Session) (number : Nat) : Prop :=
  ∃ sweeper, session.sweepers[number]? = some sweeper ∧ sweeper.isRunning = false

theorem Stops.hasEnded {session : Session} {move : Move} {number : Nat}
    (h : session.Stops move number) : (session.move move).1.HasEnded number := by
  have hget := sweeper_move_of_stops h
  rw [List.getElem?_eq_getElem h.1, Option.map_some] at hget
  exact ⟨_, hget, rfl⟩

namespace HasEnded

variable {session : Session} {number : Nat}

/-- **What has ended stays so.** -/
theorem moved (h : session.HasEnded number) (moves : List Move) :
    (session.moved moves).HasEnded number := by
  obtain ⟨sweeper, hget, hended⟩ := h
  obtain ⟨later, hlater, rfl | rfl⟩ := exists_sweeper_moved hget moves
  · exact ⟨later, hlater, hended⟩
  · exact ⟨sweeper.ended, hlater, rfl⟩

theorem lt (h : session.HasEnded number) : number < session.sweepers.length := by
  obtain ⟨sweeper, hget, -⟩ := h
  exact (List.getElem?_eq_some_iff.1 hget).1

theorem move (h : session.HasEnded number) (move : Move) :
    (session.move move).1.HasEnded number :=
  h.moved [move]

theorem sweeps_eq (h : session.HasEnded number) : session.sweeps number = false := by
  obtain ⟨sweeper, hget, hended⟩ := h
  rw [sweeps, hget, Option.any_some, hended, Bool.and_false]

end HasEnded

/-- A user is told that a sweeper is finished when it has ended. -/
theorem hasEnded_iff {session : Session} {number : Nat} (hlt : number < session.sweepers.length)
    (timestamp : String) :
    session.HasEnded number
      ↔ (session.perform timestamp (.isFinished number)).response = .flag true := by
  have hget := List.getElem?_eq_getElem hlt
  simp [HasEnded, perform, hget]

/-! ### What a task reports -/

/-- What the task of a sweeper reports during a run. -/
def taskLog (session : Session) (number : Nat) : List Move → List Event
  | [] => []
  | move :: moves =>
    session.taskReports number move ++ (session.move move).1.taskLog number moves

/-- **A task that has ended reports nothing.** -/
theorem HasEnded.taskReports_eq {session : Session} {number : Nat} (h : session.HasEnded number)
    (move : Move) : session.taskReports number move = [] := by
  obtain ⟨sweeper, hget, hended⟩ := h
  by_cases htask : session.taskOf? move = some number
  · rw [taskReports, if_pos htask]
    obtain ⟨time, rfl⟩ | ⟨timestamp, rfl⟩ | ⟨timestamp, rfl⟩ | ⟨timestamp, handle, interval, rfl,
      -, hlength⟩ := taskOf?_cases htask
    · simp [Session.move, tick, hget, hended]
    · simp [Session.move, perform, cancelSweeper, Sweeper.cancelEvents, hget, hended,
        Event.isFromTask]
    · simp [Session.move, perform, cancelSweeper, Sweeper.cancelEvents, hget, hended]
    · rw [← hlength, List.getElem?_eq_none (Nat.le_refl _)] at hget
      exact absurd hget (Option.some_ne_none _).symm
  · exact if_neg htask

theorem HasEnded.taskLog_eq {session : Session} {number : Nat} (h : session.HasEnded number)
    (moves : List Move) : session.taskLog number moves = [] := by
  induction moves generalizing session with
  | nil => rfl
  | cons move moves ih => rw [taskLog, h.taskReports_eq, ih (h.move move), List.append_nil]

/-- A task that is stopped reports its end, unless it has ended before. -/
theorem Stops.taskReports_eq {session : Session} {move : Move} {number : Nat}
    (h : session.Stops move number) :
    session.taskReports number move = []
      ∨ ∃ last, last.endsTask = true ∧ session.taskReports number move = [last] := by
  obtain ⟨hlt, hstop⟩ := h
  have hget := List.getElem?_eq_getElem hlt
  cases hrunning : session.sweepers[number].isRunning with
  | false => exact .inl (HasEnded.taskReports_eq ⟨_, hget, hrunning⟩ move)
  | true =>
    refine .inr ?_
    cases move with
    | tick other time =>
      obtain ⟨rfl, hhandle⟩ := hstop
      exact ⟨.sweepOrphaned, rfl, by
        simp [taskReports, taskOf?, Session.move, tick, hget, hrunning, hhandle, Event.isFromTask]⟩
    | act timestamp action =>
      cases action with
      | shutdown other =>
        obtain rfl : other = number := hstop
        exact ⟨.sweepCancelled, rfl, by
          simp [taskReports, taskOf?, Session.move, perform, cancelSweeper, Sweeper.cancelEvents,
            hget, hrunning, List.filter_cons, Event.isFromTask]⟩
      | releaseSweeper other =>
        obtain rfl : other = number := hstop
        exact ⟨.sweepCancelled, rfl, by
          simp [taskReports, taskOf?, Session.move, perform, cancelSweeper, Sweeper.cancelEvents,
            hget, hrunning, Event.isFromTask]⟩
      | _ => exact hstop.elim

/-- A tick that finds a handle is not the end. -/
theorem endsTask_tick {session : Session} (h : session.hasHandle = true) (number : Nat) :
    ∀ event ∈ (session.tick number).2, event.endsTask = false := by
  intro event hevent
  unfold tick at hevent
  split at hevent
  · split at hevent
    · exact absurd hevent List.not_mem_nil
    · rw [List.mem_singleton.1 hevent]
      split <;> rfl
  · exact absurd hevent List.not_mem_nil

/-- To cancel a sweeper that was never spawned does nothing. -/
theorem cancelSweeper_of_length_le {session : Session} {number : Nat}
    (h : session.sweepers.length ≤ number) (farewell : List Event) :
    session.cancelSweeper number farewell = { response := .none, session } := by
  rw [cancelSweeper, List.getElem?_eq_none h]

/-- A task that is not stopped does not report an end. -/
theorem endsTask_of_not_stops {session : Session} {move : Move} {number : Nat}
    (h : ¬ session.Stops move number) :
    ∀ event ∈ session.taskReports number move, event.endsTask = false := by
  intro event hevent
  by_cases htask : session.taskOf? move = some number
  · rw [taskReports, if_pos htask] at hevent
    obtain ⟨hevent, -⟩ := List.mem_filter.1 hevent
    -- Only a sweeper that was never spawned is cancelled without being stopped.
    obtain ⟨time, rfl⟩ | ⟨timestamp, rfl⟩ | ⟨timestamp, rfl⟩ | ⟨timestamp, handle, interval, rfl,
      halive, -⟩ := taskOf?_cases htask
    · cases hhandle : session.hasHandle with
      | true => exact endsTask_tick hhandle number event hevent
      | false =>
        have hge : session.sweepers.length ≤ number :=
          Nat.not_lt.1 fun hlt => h ⟨hlt, rfl, hhandle⟩
        simp [Session.move, tick, List.getElem?_eq_none hge] at hevent
    · have hge : session.sweepers.length ≤ number := Nat.not_lt.1 fun hlt => h ⟨hlt, rfl⟩
      simp [Session.move, perform, cancelSweeper_of_length_le hge] at hevent
    · have hge : session.sweepers.length ≤ number := Nat.not_lt.1 fun hlt => h ⟨hlt, rfl⟩
      simp [Session.move, perform, cancelSweeper_of_length_le hge] at hevent
    · simp only [Session.move, perform, if_pos halive] at hevent
      rw [List.mem_singleton.1 hevent]
      rfl
  · rw [taskReports, if_neg htask] at hevent
    exact absurd hevent List.not_mem_nil

/-- **A task ends once.** -/
theorem length_ends_le (session : Session) (number : Nat) (moves : List Move) :
    ((session.taskLog number moves).filter Event.endsTask).length ≤ 1 := by
  induction moves generalizing session with
  | nil => exact Nat.zero_le 1
  | cons move moves ih =>
    rw [taskLog, List.filter_append]
    by_cases hstops : session.Stops move number
    · rw [hstops.hasEnded.taskLog_eq, List.filter_nil, List.append_nil]
      rcases hstops.taskReports_eq with hnone | ⟨last, hlast, hone⟩
      · rw [hnone]
        exact Nat.zero_le 1
      · rw [hone]
        exact List.length_filter_le _ _
    · rw [List.filter_eq_nil_iff.2 fun event hevent => ?_, List.nil_append]
      · exact ih _
      · rw [endsTask_of_not_stops hstops event hevent]
        exact Bool.false_ne_true

/-! ### Runs with sweepers -/

/-- What a sweeper may do in a run.  The moves may come in any order, ticks at any moment. -/
structure SweeperObeys (session : Session) (number : Nat) (moves : List Move) : Prop where
  /-- The store changes by calls through living handles, and by whole sweeps at ticks. -/
  store_eq : ∀ {before move later}, session.Passes moves before move later →
    (before.move move).1.store = before.storeAfter move
  /-- A sweeper that sweeps finds a handle alive. -/
  hasHandle : (session.moved moves).sweeps number = true → (session.moved moves).hasHandle = true
  /-- A sweeper that was stopped never sweeps again. -/
  sweeps_eq : ∀ {before stop later}, session.Passes moves before stop later →
    before.Stops stop number → (session.moved moves).sweeps number = false
  /-- A task that is stopped reports its end at most, and nothing after that. -/
  taskLog_eq : ∀ {before stop later}, session.Passes moves before stop later →
    before.Stops stop number → (∀ event ∈ before.taskReports number stop, event.endsTask = true)
      ∧ (before.move stop).1.taskLog number later = []
  /-- A task reports one end at most. -/
  length_ends_le : ((session.taskLog number moves).filter Event.endsTask).length ≤ 1
  /-- Nothing else reports as a task does. -/
  isFromTask : ∀ {before move later}, session.Passes moves before move later →
    before.taskOf? move = none → ∀ event ∈ (before.move move).2, event.isFromTask = false
  /-- A spawned sweeper that is finished stays so. -/
  isFinished : ∀ timestamp, number < session.sweepers.length →
    (session.perform timestamp (.isFinished number)).response = .flag true →
      ((session.moved moves).perform timestamp (.isFinished number)).response = .flag true
  /-- Only users make handles and let go of them. -/
  handles_eq : (session.moved moves).handles = moves.foldl handlesAfter session.handles
  /-- Once the last handle is gone, it stays gone, and nothing changes the store. -/
  orphaned : session.hasHandle = false →
    (session.moved moves).hasHandle = false ∧ (session.moved moves).store = session.store
  /-- Other sweepers have no part in the ticks, nor has the use of the cache. -/
  tickRecord_eq : ∀ {other}, SameFor number session other →
    session.tickRecord number moves = other.tickRecord number (moves.filter (concerns number))

theorem sweeperObeys (session : Session) (number : Nat) (moves : List Move) :
    session.SweeperObeys number moves where
  store_eq _ := store_move _ _
  hasHandle hsweeps := (Bool.and_eq_true_iff.1 hsweeps).1
  sweeps_eq hpasses hstops := by
    rw [hpasses.moved_eq]
    exact (hstops.hasEnded.moved _).sweeps_eq
  taskLog_eq hpasses hstops := by
    refine ⟨fun event hevent => ?_, hstops.hasEnded.taskLog_eq _⟩
    rcases hstops.taskReports_eq with hnone | ⟨last, hlast, hone⟩
    · rw [hnone] at hevent
      exact absurd hevent List.not_mem_nil
    · rw [hone] at hevent
      rw [List.mem_singleton.1 hevent]
      exact hlast
  length_ends_le := session.length_ends_le number moves
  isFromTask _ htask := isFromTask_of_taskOf? htask
  isFinished timestamp hlt hfinished := by
    have hended := ((hasEnded_iff hlt timestamp).2 hfinished).moved moves
    exact (hasEnded_iff hended.lt timestamp).1 hended
  handles_eq := session.handles_moved moves
  orphaned hgone := ⟨hasHandle_moved_of_not hgone moves, store_moved_of_not_hasHandle hgone moves⟩
  tickRecord_eq hsame := hsame.tickRecord_filter moves

/-- What a run of a user's actions is, with the ticks that fall into the task time that passes. -/
structure TicksInTime (session : Session) (timestamp : String) (actions : List Action) : Prop where
  /-- A run is its moves. -/
  performAll_eq : session.performAll timestamp [] actions
    = (session.moved (session.allMoves timestamp actions),
      session.reported (session.allMoves timestamp actions))
  /-- Every sweeper ticks at its own times only. -/
  isDue : ∀ {before number time later},
    session.Passes (session.allMoves timestamp actions) before (.tick number time) later →
      before.IsDue number time
  /-- Actions that do not concern a sweeper have no part in its ticks. -/
  tickRecord_eq : ∀ {number other}, SameFor number session other →
    session.tickRecord number (session.allMoves timestamp actions)
      = other.tickRecord number
        (other.allMoves timestamp (actions.filter (concernsOf number)))

/-- **Sweepers obey**: a sweeper changes the store by whole sweeps at its own ticks, while a handle
    is alive and until it is stopped; a stopped sweeper stays away from the store and is silent, its
    task ends once, and no sweeper keeps the store alive or has a part in the ticks of another. -/
theorem sweepers_obey (session : Session) :
    (∀ number moves, session.SweeperObeys number moves)
      ∧ ∀ timestamp actions, session.TicksInTime timestamp actions :=
  ⟨session.sweeperObeys, fun timestamp actions =>
    ⟨session.performAll_eq timestamp [] actions, isDue_of_passes,
      fun hsame => hsame.tickRecord_eq timestamp actions⟩⟩

/-- Two sweepers of a cache: the first one is shut down after a tick, the second one goes on until a
    tick comes after the last handle is gone. -/
theorem sweepers_obey_two :
    let first := Sweeper.spawn 0 10
    let second := Sweeper.spawn 0 15
    let session : Session := { store := .new 8 60, clock := 0, sweepers := [first, second] }
    let alone : Session := { session with sweepers := [first.ended, second] }
    let before : List Move := [.tick 0 10, .tick 1 15]
    let after : List Move :=
      [.tick 0 20, .tick 1 30, .act "" (.release 0), .tick 1 45, .tick 1 60]
    let moves : List Move := before ++ .act "" (.shutdown 0) :: after
    session.taskLog 0 moves = [.sweepIdle 0, .sweepCancelled]
      ∧ session.taskLog 1 moves = [.sweepIdle 0, .sweepIdle 0, .sweepOrphaned]
      ∧ (session.moved moves).sweeps 0 = false
      ∧ alone.tickRecord 1 (moves.filter (concerns 1))
        = [(15, true), (30, true), (45, false), (60, false)] := by
  intro first second session alone before after moves
  have hpasses : session.Passes moves (session.moved before) (.act "" (.shutdown 0)) after :=
    .there (.there (.here ..))
  have hstops : (session.moved before).Stops (.act "" (.shutdown 0)) 0 := ⟨by decide, rfl⟩
  have hsame : SameFor 1 session alone := ⟨rfl, rfl, rfl, by decide⟩
  have hsweeps := ((sweepers_obey session).1 0 moves).sweeps_eq hpasses hstops
  have hticks := ((sweepers_obey session).1 1 moves).tickRecord_eq hsame
  refine ⟨by decide, by decide, hsweeps, ?_⟩
  rw [← hticks]
  decide

end Session

end BoundedCache
