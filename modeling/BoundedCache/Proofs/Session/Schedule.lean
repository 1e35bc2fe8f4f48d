import BoundedCache.Proofs.Session.Elapse
import BoundedCache.Proofs.Session.Sweepers

namespace BoundedCache

/-!
# Sweeps on schedule

When a sweeper ticks in a run depends on the task time alone that passes in it, whatever else
happens and however the time is divided (`Session.tickTimes_allMoves`).  As long as the sweeper is
not cancelled and a handle is alive, each of the ticks sweeps (`Session.sweeps_of_passes`) and is
reported (`Session.countP_taskLog`).  `Session.sweeps_on_schedule` counts these sweeps.
-/

/-- The task time that passes in an action. -/
def Action.millis : Action → Nat
  | elapse millis => millis
  | _ => 0

/-- Whether an action cancels a sweeper. -/
def Action.cancels (number : Nat) : Action → Bool
  | shutdown other => other = number
  | releaseSweeper other => other = number
  | _ => false

/-- Whether a move cancels a sweeper. -/
def Move.cancels (number : Nat) : Move → Bool
  | act _ action => action.cancels number
  | tick _ _ => false

/-- Whether a report is one of a sweep. -/
def Event.isSweep : Event → Bool
  | sweepRemoved .. => true
  | sweepIdle _ => true
  | _ => false

namespace Sweeper

/-- A sweeper that has been spawned at the start ticks at every multiple of its interval. -/
theorem ticks_spawn (now interval elapsed : Nat) :
    (spawn now interval).ticks now (now + elapsed)
      = (List.range' 1 (elapsed / max interval 1)).map fun k => now + k * max interval 1 := by
  rw [ticks, spawn, effectiveInterval, Nat.sub_self, Nat.zero_div, Nat.add_sub_cancel_left,
    Nat.sub_zero, Nat.zero_add]

end Sweeper

namespace Session

/-! ### The ticks of a sweeper in a run -/

/-- The task time that passes in some actions. -/
def elapsedIn (actions : List Action) : Nat := (actions.map Action.millis).sum

/-- The times of the ticks of a sweeper among some moves. -/
def tickTimes (number : Nat) : List Move → List Nat
  | [] => []
  | .tick other time :: moves =>
    if other = number then time :: tickTimes number moves else tickTimes number moves
  | .act _ _ :: moves => tickTimes number moves

theorem tickTimes_append (number : Nat) (moves more : List Move) :
    tickTimes number (moves ++ more) = tickTimes number moves ++ tickTimes number more := by
  induction moves with
  | nil => rfl
  | cons move moves ih =>
    cases move with
    | act timestamp action => exact ih
    | tick other time =>
      rw [List.cons_append, tickTimes, tickTimes, ih]
      split <;> rfl

theorem tickTimes_ticks (number : Nat) (due : List (Nat × Nat)) :
    tickTimes number (due.map fun due => .tick due.2 due.1)
      = (due.filter fun due => due.2 = number).map Prod.fst := by
  induction due with
  | nil => rfl
  | cons first due ih =>
    rw [List.map_cons, tickTimes, ih, List.filter_cons]
    by_cases hnumber : first.2 = number <;> simp [hnumber]

theorem taskTime_perform (session : Session) (timestamp : String) (action : Action) :
    (session.perform timestamp action).session.taskTime = session.taskTime + action.millis := by
  cases action with
  | elapse millis => rfl
  | _ =>
    rw [(session.perform_eq timestamp _).1]
    exact session.taskTime_move (.act timestamp _)

theorem tickTimes_movesOf {session : Session} {number : Nat} {sweeper : Sweeper}
    (hget : session.sweepers[number]? = some sweeper) (timestamp : String) (action : Action) :
    tickTimes number (session.movesOf timestamp action)
      = sweeper.ticks session.taskTime (session.taskTime + action.millis) := by
  cases action with
  | elapse millis =>
    rw [movesOf, tickTimes_append, tickTimes_ticks, filter_schedule hget, List.map_map]
    exact (List.append_nil _).trans (List.map_id _)
  | _ => exact (sweeper.ticks_self _).symm

/-- **In a run a sweeper ticks at its own times**, whatever else happens. -/
theorem tickTimes_allMoves {session : Session} {number : Nat} {sweeper : Sweeper}
    (hget : session.sweepers[number]? = some sweeper) (timestamp : String)
    (actions : List Action) :
    tickTimes number (session.allMoves timestamp actions)
      = sweeper.ticks session.taskTime (session.taskTime + elapsedIn actions) := by
  induction actions generalizing session sweeper with
  | nil => exact (sweeper.ticks_self _).symm
  | cons action actions ih =>
    obtain ⟨later, hlater, hsame⟩ :=
      exists_sweeper_moved hget (session.movesOf timestamp action)
    rw [← (session.perform_eq timestamp action).1] at hlater
    have hticks (start stop : Nat) : later.ticks start stop = sweeper.ticks start stop := by
      rcases hsame with rfl | rfl <;> rfl
    rw [allMoves, tickTimes_append, tickTimes_movesOf hget, ih hlater, hticks, taskTime_perform,
      sweeper.ticks_append (Nat.le_add_right _ _) (Nat.le_add_right _ _), elapsedIn, elapsedIn,
      List.map_cons, List.sum_cons, Nat.add_assoc]

/-! ### The sweeps of a sweeper in a run -/

theorem hasHandle_of_moved {session : Session} (moves : List Move)
    (h : (session.moved moves).hasHandle = true) : session.hasHandle = true := by
  cases hhandle : session.hasHandle with
  | true => rfl
  | false => exact (hasHandle_moved_of_not hhandle moves).symm.trans h

theorem handles_ticks (session : Session) (due : List (Nat × Nat)) :
    (session.moved (due.map fun due => .tick due.2 due.1)).handles = session.handles := by
  induction due generalizing session with
  | nil => rfl
  | cons first due ih => exact (ih _).trans (session.handles_move (.tick first.2 first.1))

/-- The handles after a run depend on the actions alone. -/
theorem handles_performAll (session : Session) (timestamp : String) (log : List Event)
    (actions : List Action) :
    (session.performAll timestamp log actions).1.handles
      = actions.foldl (fun handles action => handlesAfter handles (.act timestamp action))
        session.handles := by
  induction actions generalizing session log with
  | nil => rfl
  | cons action actions ih =>
    have hhandles : (session.perform timestamp action).session.handles
        = handlesAfter session.handles (.act timestamp action) := by
      cases action with
      | elapse millis =>
        have hsession := (session.elapse_eq millis).1
        exact (congrArg handles hsession).trans (session.handles_ticks _)
      | _ =>
        rw [(session.perform_eq timestamp _).1]
        exact session.handles_move (.act timestamp _)
    rw [performAll, ih, hhandles, List.foldl_cons]

theorem not_stops {session : Session} {number : Nat} {move : Move}
    (hhandle : session.hasHandle = true) (hkept : move.cancels number = false) :
    ¬ session.Stops move number := by
  rintro ⟨-, hstops⟩
  cases move with
  | tick other time => exact Bool.false_ne_true (hstops.2.symm.trans hhandle)
  | act timestamp action =>
    cases action with
    | shutdown other => exact of_decide_eq_false hkept hstops
    | releaseSweeper other => exact of_decide_eq_false hkept hstops
    | _ => exact hstops

/-- **A sweeper sweeps at every tick** until it is cancelled or the last handle is gone. -/
theorem sweeps_of_passes {session before : Session} {number : Nat} {sweeper : Sweeper}
    (hget : session.sweepers[number]? = some sweeper) (hrunning : sweeper.isRunning = true)
    {moves later : List Move} {move : Move}
    (hkept : ∀ move ∈ moves, move.cancels number = false)
    (hhandle : (session.moved moves).hasHandle = true)
    (hpasses : session.Passes moves before move later) : before.sweeps number = true := by
  -- A handle that is alive at the end was there all the time, so no tick stops the sweeper.
  induction hpasses with
  | here session move later =>
    have hfirst : session.hasHandle = true := hasHandle_of_moved (move :: later) hhandle
    rw [sweeps, hfirst, hget, Option.any_some, hrunning, Bool.and_self]
  | @there session before first move moves later hpasses ih =>
    have hfirst : session.hasHandle = true := hasHandle_of_moved (first :: moves) hhandle
    have hstops : ¬ session.Stops first number :=
      not_stops hfirst (hkept first List.mem_cons_self)
    have hlt := (List.getElem?_eq_some_iff.1 hget).1
    exact ih ((sweeper_move hlt hstops).trans hget)
      (fun other hother => hkept other (List.mem_cons_of_mem _ hother)) hhandle

theorem tickRecord_of_sweeps {session : Session} {number : Nat} {moves : List Move}
    (h : ∀ {before time later}, session.Passes moves before (.tick number time) later →
      before.sweeps number = true) :
    session.tickRecord number moves = (tickTimes number moves).map fun time => (time, true) := by
  induction moves generalizing session with
  | nil => rfl
  | cons move moves ih =>
    rw [tickRecord, ih fun hpasses => h (.there hpasses)]
    cases move with
    | act timestamp action => rfl
    | tick other time =>
      rw [tickOf, tickTimes]
      by_cases hother : other = number
      · subst hother
        rw [if_pos rfl, if_pos rfl, h (.here ..)]
        rfl
      · rw [if_neg hother, if_neg hother]
        rfl

theorem cancels_of_mem_movesOf {session : Session} {number : Nat} {timestamp : String}
    {action : Action} (hkept : action.cancels number = false) :
    ∀ move ∈ session.movesOf timestamp action, move.cancels number = false := by
  intro move hmove
  cases action with
  | elapse millis =>
    rcases List.mem_append.1 hmove with htick | hact
    · obtain ⟨due, -, rfl⟩ := List.mem_map.1 htick
      rfl
    · rw [List.mem_singleton.1 hact]
      rfl
  | _ =>
    rw [List.mem_singleton.1 hmove]
    exact hkept

theorem cancels_of_mem_allMoves {session : Session} {number : Nat} {timestamp : String}
    {actions : List Action} (hkept : ∀ action ∈ actions, action.cancels number = false) :
    ∀ move ∈ session.allMoves timestamp actions, move.cancels number = false := by
  induction actions generalizing session with
  | nil => exact fun move hmove => absurd hmove List.not_mem_nil
  | cons action actions ih =>
    intro move hmove
    rcases List.mem_append.1 hmove with hmove | hmove
    · exact cancels_of_mem_movesOf (hkept action List.mem_cons_self) move hmove
    · exact ih (fun other hother => hkept other (List.mem_cons_of_mem _ hother)) move hmove

/-! ### What a sweeper reports of its sweeps -/

theorem countP_tick (session : Session) (number : Nat) :
    (session.tick number).2.countP Event.isSweep = if session.sweeps number then 1 else 0 := by
  unfold tick sweeps
  cases session.sweepers[number]? with
  | none => simp
  | some sweeper =>
    cases hrunning : sweeper.isRunning with
    | false => simp [hrunning]
    | true =>
      cases hhandle : session.hasHandle with
      | false => simp [hrunning, Event.isSweep]
      | true =>
        have hevents : (session.store.sweep session.clock).events = [] := rfl
        simp only [hrunning, Sweeper.sweepStore, hevents, List.nil_append, Option.any_some,
          Bool.not_true, Bool.false_eq_true, if_false, Bool.and_self, if_true]
        split <;> rfl

theorem isSweep_cancelSweeper (session : Session) (number : Nat) {farewell : List Event}
    (hfarewell : ∀ event ∈ farewell, event.isSweep = false) :
    ∀ event ∈ (session.cancelSweeper number farewell).events, event.isSweep = false := by
  intro event hevent
  unfold cancelSweeper at hevent
  split at hevent
  · rcases List.mem_append.1 hevent with hcancelled | hevent
    · unfold Sweeper.cancelEvents at hcancelled
      split at hcancelled
      · rw [List.mem_singleton.1 hcancelled]
        rfl
      · exact absurd hcancelled List.not_mem_nil
    · exact hfarewell event hevent
  · exact absurd hevent List.not_mem_nil

theorem countP_taskReports (session : Session) (number : Nat) (move : Move) :
    (session.taskReports number move).countP Event.isSweep
      = (session.tickOf number move).countP Prod.snd := by
  have hnone {events : List Event} (h : ∀ event ∈ events, event.isSweep = false) :
      (events.filter Event.isFromTask).countP Event.isSweep = 0 :=
    List.countP_eq_zero.2 fun event hevent =>
      Bool.not_eq_true _ ▸ h event (List.mem_filter.1 hevent).1
  -- Only a tick sweeps; the other reports of a task are its start and its end.
  by_cases htask : session.taskOf? move = some number
  · rw [taskReports, if_pos htask]
    obtain ⟨time, rfl⟩ | ⟨timestamp, rfl⟩ | ⟨timestamp, rfl⟩ | ⟨timestamp, handle, interval, rfl,
      halive, -⟩ := taskOf?_cases htask
    · have hsweep : (fun event : Event => event.isSweep && event.isFromTask) = Event.isSweep :=
        funext fun event => by cases event <;> rfl
      rw [List.countP_filter, hsweep, move, countP_tick, tickOf, if_pos rfl]
      cases session.sweeps number <;> rfl
    · exact hnone (session.isSweep_cancelSweeper number (by simp [Event.isSweep]))
    · exact hnone (session.isSweep_cancelSweeper number (by simp))
    · refine hnone ?_
      simp only [Session.move, perform, if_pos halive]
      exact fun event hevent => by rw [List.mem_singleton.1 hevent]; rfl
  · rw [taskReports, if_neg htask, List.countP_nil]
    cases move with
    | act timestamp action => rfl
    | tick other time =>
      rw [tickOf, if_neg fun hother => htask (congrArg some hother), List.countP_nil]

/-- **A task reports each of its sweeps**, and nothing else as a sweep. -/
theorem countP_taskLog (session : Session) (number : Nat) (moves : List Move) :
    (session.taskLog number moves).countP Event.isSweep
      = (session.tickRecord number moves).countP Prod.snd := by
  induction moves generalizing session with
  | nil => rfl
  | cons move moves ih =>
    rw [taskLog, tickRecord, List.countP_append, List.countP_append, ih, countP_taskReports]

/-- What a sweeper does in a run: `count` sweeps at the multiples of an interval after `start`. -/
structure SweepsAtMultiples (session : Session) (number : Nat) (moves : List Move)
    (start interval count : Nat) : Prop where
  /-- It ticks at each multiple, and sweeps. -/
  tickRecord_eq : session.tickRecord number moves
    = (List.range' 1 count).map fun k => (start + k * interval, true)
  /-- At a tick the store is swept. -/
  store_eq : ∀ {before time later}, session.Passes moves before (.tick number time) later →
    (before.move (.tick number time)).1.store = (before.store.sweep before.clock).store
  /-- The task reports as many sweeps. -/
  countP_eq : (session.taskLog number moves).countP Event.isSweep = count

/-- **Sweeps come on schedule.**  A sweeper that is not cancelled while a handle is alive sweeps
    once for each whole interval of the task time that passes, whatever happens in between, and it
    does not sweep when it is spawned.  Task time may pass in any pieces. -/
theorem sweeps_on_schedule (session : Session) (timestamp : String) :
    (∀ handle interval actions, session.isAlive handle = true →
      let number := session.sweepers.length
      let turn := session.perform timestamp (.spawnSweeper handle interval)
      let moves := turn.session.allMoves timestamp actions
      (∀ action ∈ actions, action.cancels number = false) →
      (turn.session.performAll timestamp [] actions).1.hasHandle = true →
        (turn.session.store = session.store ∧ turn.events.countP Event.isSweep = 0)
          ∧ turn.session.performAll timestamp [] actions
            = (turn.session.moved moves, turn.session.reported moves)
          ∧ turn.session.SweepsAtMultiples number moves session.taskTime (max interval 1)
            (elapsedIn actions / max interval 1))
      ∧ (∀ first second, session.performAll timestamp [] [.elapse first, .elapse second]
        = session.performAll timestamp [] [.elapse (first + second)])
      ∧ ∀ spans : List Nat, session.performAll timestamp [] (spans.map .elapse)
        = session.performAll timestamp [] [.elapse spans.sum] := by
  refine ⟨fun handle interval actions halive => ?_, fun first second => ?_,
    session.performAll_elapse timestamp []⟩
  · intro number turn moves hkept hhandle
    have hturn : turn = session.spawnSweeper interval := if_pos halive
    have hget : turn.session.sweepers[number]? = some (.spawn session.taskTime interval) := by
      rw [hturn]
      exact List.getElem?_concat_length
    have htime : turn.session.taskTime = session.taskTime := by rw [hturn]; rfl
    have hrun := turn.session.performAll_eq timestamp [] actions
    have hmoved : (turn.session.moved moves).hasHandle = true := by
      rw [hrun] at hhandle
      exact hhandle
    have hsweeps {before later move} (hpasses : turn.session.Passes moves before move later) :
        before.sweeps number = true :=
      sweeps_of_passes hget rfl (cancels_of_mem_allMoves hkept) hmoved hpasses
    have hrecord : turn.session.tickRecord number moves
        = (List.range' 1 (elapsedIn actions / max interval 1)).map fun k =>
          (session.taskTime + k * max interval 1, true) := by
      rw [tickRecord_of_sweeps hsweeps, tickTimes_allMoves hget, htime, Sweeper.ticks_spawn,
        List.map_map]
      rfl
    refine ⟨?_, hrun, hrecord, fun hpasses => ?_, ?_⟩
    · rw [hturn]
      exact ⟨rfl, rfl⟩
    · rw [store_move, storeAfter, if_pos (hsweeps hpasses)]
      rfl
    · rw [countP_taskLog, hrecord, List.countP_map]
      exact (List.countP_eq_length.2 fun _ _ => rfl).trans List.length_range'
  · have hpieces := session.performAll_elapse timestamp [] [first, second]
    rwa [List.sum_cons, List.sum_singleton] at hpieces

/-- A sweeper beside one that is cancelled.  Task time passes in three pieces, the second of which
    ends at its first tick, and the store is used in between through more than one handle. -/
theorem sweeps_on_schedule_between :
    let session : Session :=
      { store := .new 100 60, clock := 0, taskTime := 5, sweepers := [.spawn 0 4] }
    let actions : List Action := [.elapse 9, .operate 0 (.put "a" ⟨[]⟩ 1), .elapse 1,
      .advance (.seconds 2), .shutdown 0, .clone 0, .release 0, .elapse 25]
    let spawned (interval : Nat) := (session.perform "" (.spawnSweeper 0 interval)).session
    let moves (interval : Nat) := (spawned interval).allMoves "" actions
    (spawned 10).tickRecord 1 (moves 10) = [(15, true), (25, true), (35, true)]
      ∧ ((spawned 10).taskLog 1 (moves 10)).countP Event.isSweep = 3
      ∧ ((spawned 0).taskLog 1 (moves 0)).countP Event.isSweep = 35 := by
  intro session actions spawned moves
  have hkept : ∀ action ∈ actions, action.cancels 1 = false := by simp [actions, Action.cancels]
  have hhandle (interval : Nat) :
      ((spawned interval).performAll "" [] actions).1.hasHandle = true := by
    rw [hasHandle, handles_performAll]
    rfl
  have hten := (sweeps_on_schedule session "").1 0 10 actions rfl hkept (hhandle 10)
  have hzero := (sweeps_on_schedule session "").1 0 0 actions rfl hkept (hhandle 0)
  exact ⟨hten.2.2.tickRecord_eq.trans (by decide), hten.2.2.countP_eq.trans (by decide),
    hzero.2.2.countP_eq.trans (by decide)⟩

end Session

end BoundedCache
