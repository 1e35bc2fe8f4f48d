import BoundedCache.Proofs.Session.Trace

namespace BoundedCache

/-!
# Sessions move by move

An action that lets task time pass holds many steps: the ticks of all sweepers that fall into that
time.  A `Move` is one step alone, an act of a user or one tick of one sweeper, and
`Session.performAll_eq` takes a run apart into moves.

`move_eq` tells what a move makes of each part of a session: `storeAfter`, `handlesAfter` and so on.
No sweeper has a part in the handles, and a sweeper is stopped by a move or left alone
(`sweeper_move_of_stops`, `sweeper_move`).
-/

/-- One step of a session. -/
inductive Move
  /-- A user acts.  If this is to let task time pass, the ticks are moves of their own. -/
  | act (timestamp : String) (action : Action)
  /-- A sweeper ticks at a task time. -/
  | tick (sweeper time : Nat)

namespace Session

/-- What a move leads to, with its events. -/
def move (session : Session) : Move → Session × List Event
  | .act _ (.elapse millis) => ({ session with taskTime := session.taskTime + millis }, [])
  | .act timestamp action =>
    let turn := session.perform timestamp action
    (turn.session, turn.events)
  | .tick sweeper _ => session.tick sweeper

/-- The session after some moves. -/
def moved (session : Session) : List Move → Session
  | [] => session
  | move :: moves => (session.move move).1.moved moves

/-- The events of some moves. -/
def reported (session : Session) : List Move → List Event
  | [] => []
  | move :: moves => (session.move move).2 ++ (session.move move).1.reported moves

/-- The moves of an action. -/
def movesOf (session : Session) (timestamp : String) : Action → List Move
  | .elapse millis =>
    ((session.schedule session.taskTime (session.taskTime + millis)).map fun due =>
      .tick due.2 due.1) ++ [.act timestamp (.elapse millis)]
  | action => [.act timestamp action]

/-- The moves of several actions. -/
def allMoves (session : Session) (timestamp : String) : List Action → List Move
  | [] => []
  | action :: actions => session.movesOf timestamp action
      ++ (session.perform timestamp action).session.allMoves timestamp actions

/-! ### What a move makes of a session -/

/-- The store after a move: a user's call through a handle that is alive is carried out, and a tick
    that sweeps is one whole sweep. -/
def storeAfter (session : Session) : Move → Store
  | .act _ (.operate handle operation) =>
    if session.isAlive handle then (session.store.apply session.clock operation).store
    else session.store
  | .act timestamp (.send handle request) =>
    if session.isAlive handle
    then (Http.respond session.store session.clock timestamp request).store
    else session.store
  | .tick sweeper _ =>
    if session.sweeps sweeper then (session.store.apply session.clock .sweep).store
    else session.store
  | _ => session.store

/-- The clock reading after a move. -/
def clockAfter (clock : Nat) : Move → Nat
  | .act _ (.advance span) => span.after clock
  | _ => clock

/-- The task time after a move. -/
def taskTimeAfter (taskTime : Nat) : Move → Nat
  | .act _ (.elapse millis) => taskTime + millis
  | _ => taskTime

/-- The handles after a move. -/
def handlesAfter (handles : List Bool) : Move → List Bool
  | .act _ (.clone handle) => if handles[handle]?.getD false then handles ++ [true] else handles
  | .act _ (.release handle) => handles.set handle false
  | _ => handles

/-- The sweepers after a move. -/
def sweepersAfter (session : Session) : Move → List Sweeper
  | .act _ (.spawnSweeper handle interval) =>
    if session.isAlive handle then session.sweepers ++ [.spawn session.taskTime interval]
    else session.sweepers
  | .act _ (.shutdown number) => session.sweepers.modify number .ended
  | .act _ (.releaseSweeper number) => session.sweepers.modify number .ended
  | .tick number _ =>
    if session.hasHandle then session.sweepers else session.sweepers.modify number .ended
  | _ => session.sweepers

theorem modify_ended {sweepers : List Sweeper} {number : Nat} {sweeper : Sweeper}
    (hget : sweepers[number]? = some sweeper) :
    sweepers.modify number .ended = sweepers.set number sweeper.ended := by
  rw [List.modify_eq_set_getElem?, hget]
  rfl

/-- A sweeper that has ended already is left as it is. -/
theorem modify_ended_of_not_isRunning {sweepers : List Sweeper} {number : Nat} {sweeper : Sweeper}
    (hget : sweepers[number]? = some sweeper) (hended : sweeper.isRunning = false) :
    sweepers.modify number .ended = sweepers := by
  obtain ⟨hlt, hsweeper⟩ := List.getElem?_eq_some_iff.1 hget
  have hsame : sweeper.ended = sweepers[number] := by
    rw [hsweeper, Sweeper.ended, ← hended]
  rw [modify_ended hget, hsame, List.set_getElem_self]

theorem tick_eq (session : Session) (number : Nat) :
    (session.tick number).1 = { session with
      store := if session.sweeps number
        then (session.store.apply session.clock .sweep).store else session.store
      sweepers := if session.hasHandle then session.sweepers
        else session.sweepers.modify number .ended } := by
  unfold tick sweeps
  cases hget : session.sweepers[number]? with
  | none =>
    rw [List.modify_eq_self (List.getElem?_eq_none_iff.1 hget)]
    simp
  | some sweeper =>
    cases hrunning : sweeper.isRunning with
    | false =>
      rw [modify_ended_of_not_isRunning hget hrunning]
      simp [hrunning]
    | true =>
      rw [modify_ended hget]
      cases hhandle : session.hasHandle with
      | true =>
        simp only [Option.any_some, hrunning]
        rfl
      | false => simp [hrunning]

theorem cancelSweeper_eq (session : Session) (number : Nat) (farewell : List Event) :
    (session.cancelSweeper number farewell).session
      = { session with sweepers := session.sweepers.modify number .ended } := by
  unfold cancelSweeper
  cases hget : session.sweepers[number]? with
  | none => rw [List.modify_eq_self (List.getElem?_eq_none_iff.1 hget)]
  | some sweeper => rw [modify_ended hget]

/-- **What a move makes of a session.** -/
theorem move_eq (session : Session) (move : Move) :
    (session.move move).1 =
      { store := session.storeAfter move
        clock := clockAfter session.clock move
        taskTime := taskTimeAfter session.taskTime move
        handles := handlesAfter session.handles move
        sweepers := session.sweepersAfter move } := by
  cases move with
  | tick number time => exact session.tick_eq number
  | act timestamp action =>
    cases action with
    | operate handle operation =>
      simp only [Session.move, perform, storeAfter]
      split <;> rfl
    | send handle request =>
      simp only [Session.move, perform, storeAfter]
      split <;> rfl
    | clone handle =>
      by_cases halive : session.isAlive handle = true
      · have hget : session.handles[handle]?.getD false = true := halive
        simp only [Session.move, perform, handlesAfter, if_pos halive, if_pos hget]
        rfl
      · have hget : ¬ session.handles[handle]?.getD false = true := halive
        simp only [Session.move, perform, handlesAfter, if_neg halive, if_neg hget]
        rfl
    | spawnSweeper handle interval =>
      simp only [Session.move, perform, sweepersAfter]
      split <;> rfl
    | shutdown number => exact session.cancelSweeper_eq number _
    | releaseSweeper number => exact session.cancelSweeper_eq number _
    | advance span => rfl
    | release handle => rfl
    | elapse millis => rfl
    | isFinished number => rfl

theorem store_move (session : Session) (move : Move) :
    (session.move move).1.store = session.storeAfter move :=
  congrArg store (session.move_eq move)

theorem taskTime_move (session : Session) (move : Move) :
    (session.move move).1.taskTime = taskTimeAfter session.taskTime move :=
  congrArg taskTime (session.move_eq move)

/-- **Only users make handles and let go of them.** -/
theorem handles_move (session : Session) (move : Move) :
    (session.move move).1.handles = handlesAfter session.handles move :=
  congrArg handles (session.move_eq move)

theorem sweepers_move (session : Session) (move : Move) :
    (session.move move).1.sweepers = session.sweepersAfter move :=
  congrArg sweepers (session.move_eq move)

/-! ### Runs as moves -/

theorem moved_append (session : Session) (moves more : List Move) :
    session.moved (moves ++ more) = (session.moved moves).moved more := by
  induction moves generalizing session with
  | nil => rfl
  | cons move moves ih => exact ih _

theorem reported_append (session : Session) (moves more : List Move) :
    session.reported (moves ++ more)
      = session.reported moves ++ (session.moved moves).reported more := by
  induction moves generalizing session with
  | nil => rfl
  | cons move moves ih => rw [List.cons_append, reported, ih, reported, moved, List.append_assoc]

theorem tickAll_eq (session : Session) (log : List Event) (due : List (Nat × Nat)) :
    session.tickAll log (due.map Prod.snd)
      = (session.moved (due.map fun due => .tick due.2 due.1),
        (session.reported (due.map fun due => .tick due.2 due.1)).reverse ++ log) := by
  induction due generalizing session log with
  | nil => rfl
  | cons first due ih =>
    refine (ih (session.tick first.2).1 ((session.tick first.2).2.reverse ++ log)).trans ?_
    rw [List.map_cons, moved, reported, List.reverse_append, List.append_assoc]
    rfl

theorem taskTime_ticks (session : Session) (due : List (Nat × Nat)) :
    (session.moved (due.map fun due => .tick due.2 due.1)).taskTime = session.taskTime := by
  induction due generalizing session with
  | nil => rfl
  | cons first due ih => exact (ih _).trans (session.taskTime_move (.tick first.2 first.1))

/-- **An action is its moves.** -/
theorem perform_eq (session : Session) (timestamp : String) (action : Action) :
    (session.perform timestamp action).session = session.moved (session.movesOf timestamp action)
      ∧ (session.perform timestamp action).events
        = session.reported (session.movesOf timestamp action) := by
  cases action with
  | elapse millis =>
    have htime := session.taskTime_ticks
      (session.schedule session.taskTime (session.taskTime + millis))
    have hticks := session.tickAll_eq []
      (session.schedule session.taskTime (session.taskTime + millis))
    simp only [perform, elapse, hticks, movesOf, moved_append, reported_append]
    refine ⟨?_, ?_⟩
    · simp only [moved, Session.move, htime]
    · rw [List.append_nil, List.reverse_reverse]
      exact (List.append_nil _).symm
  | _ => exact ⟨rfl, (List.append_nil _).symm⟩

/-- **A run is its moves.** -/
theorem performAll_eq (session : Session) (timestamp : String) (log : List Event)
    (actions : List Action) :
    session.performAll timestamp log actions
      = (session.moved (session.allMoves timestamp actions),
        log.reverse ++ session.reported (session.allMoves timestamp actions)) := by
  induction actions generalizing session log with
  | nil => rw [performAll, allMoves, moved, reported, List.append_nil]
  | cons action actions ih =>
    obtain ⟨hsession, hevents⟩ := session.perform_eq timestamp action
    rw [performAll, allMoves, ih, moved_append, reported_append, ← hsession, ← hevents,
      List.reverse_append, List.reverse_reverse, List.append_assoc]

/-- Whether a run comes to the session `before` and moves on from there, with `later` moves still
    to come. -/
inductive Passes : Session → List Move → Session → Move → List Move → Prop
  | here (session : Session) (move : Move) (later : List Move) :
    Passes session (move :: later) session move later
  | there {session before : Session} {first move : Move} {moves later : List Move} :
    Passes (session.move first).1 moves before move later →
    Passes session (first :: moves) before move later

theorem Passes.moved_eq {session before : Session} {moves later : List Move} {move : Move}
    (h : session.Passes moves before move later) :
    session.moved moves = (before.move move).1.moved later := by
  induction h with
  | here session move later => rfl
  | there _ ih => exact ih

theorem Passes.of_append {session before : Session} {moves more later : List Move} {move : Move}
    (h : session.Passes (moves ++ more) before move later) :
    (∃ rest, session.Passes moves before move rest)
      ∨ (session.moved moves).Passes more before move later := by
  induction moves generalizing session with
  | nil => exact .inr h
  | cons first moves ih =>
    cases h with
    | here => exact .inl ⟨moves, .here ..⟩
    | there h =>
      rcases ih h with ⟨rest, hrest⟩ | hmore
      · exact .inl ⟨rest, .there hrest⟩
      · exact .inr hmore

/-! ### Handles -/

theorem handles_moved (session : Session) (moves : List Move) :
    (session.moved moves).handles = moves.foldl handlesAfter session.handles := by
  induction moves generalizing session with
  | nil => rfl
  | cons move moves ih => rw [moved, ih, handles_move, List.foldl_cons]

theorem hasHandle_eq_false_iff (session : Session) :
    session.hasHandle = false ↔ ∀ alive ∈ session.handles, alive = false := by
  simp [hasHandle]

theorem isAlive_of_not_hasHandle {session : Session} (h : session.hasHandle = false)
    (handle : Nat) : session.isAlive handle = false := by
  rw [isAlive]
  cases hget : session.handles[handle]? with
  | none => rfl
  | some alive => exact session.hasHandle_eq_false_iff.1 h alive (List.mem_of_getElem? hget)

/-- Handles that are all gone stay gone. -/
theorem hasHandle_move_of_not {session : Session} (h : session.hasHandle = false) (move : Move) :
    (session.move move).1.hasHandle = false := by
  have hgone := session.hasHandle_eq_false_iff.1 h
  rw [hasHandle_eq_false_iff, handles_move]
  unfold handlesAfter
  split
  · next handle =>
    rw [← isAlive, isAlive_of_not_hasHandle h]
    exact hgone
  · intro alive halive
    rcases List.mem_or_eq_of_mem_set halive with halive | rfl
    · exact hgone alive halive
    · rfl
  · exact hgone

theorem hasHandle_moved_of_not {session : Session} (h : session.hasHandle = false)
    (moves : List Move) : (session.moved moves).hasHandle = false := by
  induction moves generalizing session with
  | nil => exact h
  | cons move moves ih => exact ih (hasHandle_move_of_not h move)

/-! ### Sweepers -/

/-- Whether a move stops a sweeper: a user cancels it, or it ticks and finds no handle. -/
def Stops (session : Session) (move : Move) (sweeper : Nat) : Prop :=
  sweeper < session.sweepers.length ∧ match move with
    | .act _ (.shutdown other) => other = sweeper
    | .act _ (.releaseSweeper other) => other = sweeper
    | .tick other _ => other = sweeper ∧ session.hasHandle = false
    | _ => False

theorem getElem?_modify_self (sweepers : List Sweeper) (number : Nat) :
    (sweepers.modify number .ended)[number]? = sweepers[number]?.map .ended :=
  List.getElem?_modify_eq _ _ _

theorem getElem?_modify_of_ne {number other : Nat} (h : number ≠ other)
    (sweepers : List Sweeper) : (sweepers.modify number .ended)[other]? = sweepers[other]? := by
  simp [h]

/-- **A move that stops a sweeper ends it.** -/
theorem sweeper_move_of_stops {session : Session} {move : Move} {sweeper : Nat}
    (h : session.Stops move sweeper) :
    (session.move move).1.sweepers[sweeper]? = session.sweepers[sweeper]?.map .ended := by
  obtain ⟨-, h⟩ := h
  rw [sweepers_move]
  cases move with
  | tick other time =>
    obtain ⟨rfl, hgone⟩ := h
    rw [sweepersAfter, hgone]
    exact getElem?_modify_self _ _
  | act timestamp action =>
    cases action with
    | shutdown other =>
      obtain rfl : other = sweeper := h
      exact getElem?_modify_self _ _
    | releaseSweeper other =>
      obtain rfl : other = sweeper := h
      exact getElem?_modify_self _ _
    | _ => exact h.elim

/-- **A move leaves the sweepers alone that it does not stop.** -/
theorem sweeper_move {session : Session} {move : Move} {sweeper : Nat}
    (hlt : sweeper < session.sweepers.length) (h : ¬ session.Stops move sweeper) :
    (session.move move).1.sweepers[sweeper]? = session.sweepers[sweeper]? := by
  rw [sweepers_move]
  unfold sweepersAfter
  split
  · split
    · exact List.getElem?_append_left hlt
    · rfl
  · exact getElem?_modify_of_ne (fun hother => h ⟨hlt, hother⟩) _
  · exact getElem?_modify_of_ne (fun hother => h ⟨hlt, hother⟩) _
  · split
    · rfl
    · next hgone =>
      exact getElem?_modify_of_ne (fun hother => h ⟨hlt, hother, Bool.not_eq_true _ ▸ hgone⟩) _
  · rfl

/-- Sweepers stay what they are, apart from their end. -/
theorem exists_sweeper_moved {session : Session} {number : Nat} {sweeper : Sweeper}
    (h : session.sweepers[number]? = some sweeper) (moves : List Move) :
    ∃ later, (session.moved moves).sweepers[number]? = some later
      ∧ (later = sweeper ∨ later = sweeper.ended) := by
  induction moves generalizing session sweeper with
  | nil => exact ⟨sweeper, h, .inl rfl⟩
  | cons move moves ih =>
    by_cases hstops : session.Stops move number
    · have hnext := sweeper_move_of_stops hstops
      rw [h, Option.map_some] at hnext
      obtain ⟨later, hlater, hsame⟩ := ih hnext
      exact ⟨later, hlater, .inr (hsame.elim id id)⟩
    · have hlt := (List.getElem?_eq_some_iff.1 h).1
      exact ih ((sweeper_move hlt hstops).trans h)

/-! ### The store without a handle -/

/-- Without a handle nothing changes the store. -/
theorem storeAfter_of_not_hasHandle {session : Session} (h : session.hasHandle = false)
    (move : Move) : session.storeAfter move = session.store := by
  unfold storeAfter
  split
  · rw [isAlive_of_not_hasHandle h]
    rfl
  · rw [isAlive_of_not_hasHandle h]
    rfl
  · rw [sweeps, h]
    rfl
  · rfl

theorem store_moved_of_not_hasHandle {session : Session} (h : session.hasHandle = false)
    (moves : List Move) : (session.moved moves).store = session.store := by
  induction moves generalizing session with
  | nil => rfl
  | cons move moves ih =>
    rw [moved, ih (hasHandle_move_of_not h move), store_move, storeAfter_of_not_hasHandle h]

end Session

end BoundedCache
