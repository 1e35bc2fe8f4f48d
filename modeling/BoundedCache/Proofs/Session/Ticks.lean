import BoundedCache.Proofs.Session.Moves

namespace BoundedCache

/-!
# The ticks of a sweeper

A sweeper ticks at the multiples of its interval after its spawning, and task time passes from one
tick to the next in the order of their times (`isDue_of_passes`).

Its ticks do not depend on other sweepers.  Two sessions may differ in everything that a sweeper
does not look at: `SameFor` says that they agree on the handles, the task time and this sweeper.
A move of both keeps this (`SameFor.move`), and so does a move of one alone that does not concern
the sweeper (`SameFor.move_left`).  So the ticks stay the same, each with whether it sweeps, if all
that does not concern the sweeper is left out of a run (`tickRecord_eq`).
-/

namespace Session

/-! ### Ticks in time -/

/-- Whether a sweeper is to tick at a task time that is still to come: a multiple of its interval
    after its spawning. -/
def IsDue (session : Session) (number time : Nat) : Prop :=
  ∃ sweeper k, session.sweepers[number]? = some sweeper ∧ 0 < k
    ∧ time = sweeper.spawnedAt + k * sweeper.interval ∧ session.taskTime < time

theorem of_mem_ticks {sweeper : Sweeper} {start stop time : Nat}
    (h : time ∈ sweeper.ticks start stop) :
    ∃ k, 0 < k ∧ time = sweeper.spawnedAt + k * sweeper.interval ∧ start < time := by
  obtain ⟨k, hk, rfl⟩ := List.mem_map.1 h
  obtain ⟨hlow, hhigh⟩ := List.mem_range'_1.1 hk
  refine ⟨k, Nat.lt_of_lt_of_le (Nat.succ_pos _) hlow, rfl, ?_⟩
  have hpositive : 0 < sweeper.interval := by
    refine Nat.pos_of_ne_zero fun hzero => ?_
    simp only [hzero, Nat.div_zero] at hlow hhigh
    omega
  have hpassed := (Nat.div_lt_iff_lt_mul hpositive).1 (Nat.lt_of_succ_le hlow)
  omega

theorem mem_schedule_iff {session : Session} {start stop : Nat} {due : Nat × Nat} :
    due ∈ session.schedule start stop
      ↔ ∃ sweeper, session.sweepers[due.2]? = some sweeper ∧ due.1 ∈ sweeper.ticks start stop := by
  obtain ⟨time, number⟩ := due
  simp only [schedule, List.mem_mergeSort, List.mem_flatMap, List.mem_map, Prod.exists,
    Prod.mk.injEq, List.mem_zipIdx_iff_getElem?]
  constructor
  · rintro ⟨sweeper, _, hget, _, htime, rfl, rfl⟩
    exact ⟨sweeper, hget, htime⟩
  · rintro ⟨sweeper, hget, htime⟩
    exact ⟨sweeper, number, hget, time, htime, rfl, rfl⟩

/-- A sweeper that is due is so until task time passes. -/
theorem IsDue.tick {session : Session} {number time : Nat} (h : session.IsDue number time)
    (other : Nat) : (session.tick other).1.IsDue number time := by
  obtain ⟨sweeper, k, hget, hk, htime, hpast⟩ := h
  obtain ⟨later, hlater, hsame⟩ := exists_sweeper_moved hget [.tick other time]
  have htaskTime := session.taskTime_move (.tick other time)
  refine ⟨later, k, hlater, hk, ?_, Nat.lt_of_le_of_lt (Nat.le_of_eq htaskTime) hpast⟩
  -- A sweeper that ends keeps its times.
  rcases hsame with rfl | rfl
  · exact htime
  · exact htime

theorem isDue_of_passes_ticks {session before : Session} {due : List (Nat × Nat)}
    (hdue : ∀ x ∈ due, session.IsDue x.2 x.1) {number time : Nat} {later : List Move}
    (h : session.Passes (due.map fun due => .tick due.2 due.1) before (.tick number time) later) :
    before.IsDue number time := by
  induction due generalizing session with
  | nil => cases h
  | cons first due ih =>
    cases h with
    | here => exact hdue first List.mem_cons_self
    | there h => exact ih (fun x hx => (hdue x (List.mem_cons_of_mem _ hx)).tick first.2) h

theorem isDue_of_passes_movesOf {session before : Session} {timestamp : String} {action : Action}
    {number time : Nat} {later : List Move}
    (h : session.Passes (session.movesOf timestamp action) before (.tick number time) later) :
    before.IsDue number time := by
  cases action with
  | elapse millis =>
    rcases h.of_append with ⟨rest, h⟩ | h
    · refine isDue_of_passes_ticks (fun due hdue => ?_) h
      obtain ⟨sweeper, hget, htime⟩ := mem_schedule_iff.1 hdue
      obtain ⟨k, hk, heq, hlater⟩ := of_mem_ticks htime
      exact ⟨sweeper, k, hget, hk, heq, hlater⟩
    · cases h with
      | there h => cases h
  | _ =>
    cases h with
    | there h => cases h

/-- **Every tick of a run comes in its time.** -/
theorem isDue_of_passes {session before : Session} {timestamp : String} {actions : List Action}
    {number time : Nat} {later : List Move}
    (h : session.Passes (session.allMoves timestamp actions) before (.tick number time) later) :
    before.IsDue number time := by
  induction actions generalizing session with
  | nil => cases h
  | cons action actions ih =>
    rcases h.of_append with ⟨rest, h⟩ | h
    · exact isDue_of_passes_movesOf h
    · rw [← (session.perform_eq timestamp action).1] at h
      exact ih h

/-- The rows that a list with numbers has for one number. -/
theorem flatMap_zipIdx {α β : Type} (f : α → List β) (l : List α) (number start : Nat) :
    ((l.zipIdx start).flatMap fun x => if x.2 = number + start then f x.1 else [])
      = (l[number]?.map f).getD [] := by
  induction l generalizing number start with
  | nil => rfl
  | cons first l ih =>
    rw [List.zipIdx_cons, List.flatMap_cons]
    cases number with
    | zero =>
      have hrest : ((l.zipIdx (start + 1)).flatMap fun x =>
          if x.2 = 0 + start then f x.1 else []) = [] :=
        List.flatMap_eq_nil_iff.2 fun x hx => if_neg (by
          have hle := (List.mem_zipIdx hx).1
          omega)
      rw [hrest, if_pos (Nat.zero_add start).symm, List.append_nil]
      rfl
    | succ number =>
      have hshift : number + 1 + start = number + (start + 1) := by omega
      rw [if_neg (by omega), List.nil_append, hshift]
      exact ih number (start + 1)

/-- Whether a tick comes no later than another one. -/
def IsNoLater (x y : Nat × Nat) : Prop := x.1 < y.1 ∨ (x.1 = y.1 ∧ x.2 ≤ y.2)

theorem pairwise_schedule (session : Session) (start stop : Nat) :
    (session.schedule start stop).Pairwise IsNoLater := by
  unfold schedule
  refine List.Pairwise.imp ?_
    (List.pairwise_mergeSort (fun x y z hxy hyz => ?_) (fun x y => ?_) _)
  · intro x y hxy
    simpa only [IsNoLater, decide_eq_true_eq] using hxy
  · simp only [decide_eq_true_eq] at hxy hyz ⊢
    omega
  · simp only [Bool.or_eq_true, decide_eq_true_eq]
    omega

theorem pairwise_ticks (sweeper : Sweeper) (start stop number : Nat) :
    ((sweeper.ticks start stop).map fun time => (time, number)).Pairwise IsNoLater := by
  unfold Sweeper.ticks
  rw [List.map_map, List.pairwise_map]
  refine List.pairwise_lt_range' 1 |>.imp fun hlt => ?_
  have hle := Nat.mul_le_mul_right sweeper.interval (Nat.le_of_lt hlt)
  simp only [IsNoLater, Function.comp_apply]
  omega

/-- **The schedule holds the ticks of each sweeper** in their order. -/
theorem filter_schedule {session : Session} {number : Nat} {sweeper : Sweeper}
    (hget : session.sweepers[number]? = some sweeper) (start stop : Nat) :
    ((session.schedule start stop).filter fun due => due.2 = number)
      = (sweeper.ticks start stop).map fun time => (time, number) := by
  have hrow (x : Sweeper × Nat) :
      (((x.1.ticks start stop).map fun time => (time, x.2)).filter fun due => due.2 = number)
        = if x.2 = number then (x.1.ticks start stop).map fun time => (time, number)
          else [] := by
    by_cases hnumber : x.2 = number
    · rw [if_pos hnumber, hnumber]
      exact List.filter_eq_self.2 fun due hdue => by
        obtain ⟨time, -, rfl⟩ := List.mem_map.1 hdue
        exact decide_eq_true rfl
    · rw [if_neg hnumber]
      exact List.filter_eq_nil_iff.2 fun due hdue => by
        obtain ⟨time, -, rfl⟩ := List.mem_map.1 hdue
        simpa using hnumber
  have hperm := (List.mergeSort_perm (session.sweepers.zipIdx.flatMap fun x =>
    (x.1.ticks start stop).map fun time => (time, x.2)) fun x y =>
      decide (x.1 < y.1 ∨ (x.1 = y.1 ∧ x.2 ≤ y.2))).filter fun due => due.2 = number
  have hrows := flatMap_zipIdx (fun sweeper : Sweeper =>
    (sweeper.ticks start stop).map fun time => (time, number)) session.sweepers number 0
  rw [hget, Nat.add_zero] at hrows
  simp only [List.filter_flatMap, hrow, hrows] at hperm
  refine hperm.eq_of_pairwise (fun x y _ _ hxy hyx => ?_)
    ((session.pairwise_schedule start stop).filter _) (pairwise_ticks sweeper start stop number)
  simp only [IsNoLater] at hxy hyx
  exact Prod.ext (by omega) (by omega)

/-! ### What concerns a sweeper -/

/-- Whether an action concerns a sweeper: handles are made or let go, task time passes, or the
    sweeper is cancelled. -/
def concernsOf (number : Nat) : Action → Bool
  | .clone _ => true
  | .release _ => true
  | .elapse _ => true
  | .shutdown other => other = number
  | .releaseSweeper other => other = number
  | _ => false

/-- Whether a move concerns a sweeper. -/
def concerns (number : Nat) : Move → Bool
  | .act _ action => concernsOf number action
  | .tick other _ => other = number

/-- Whether two sessions are the same for a sweeper. -/
structure SameFor (number : Nat) (session other : Session) : Prop where
  handles_eq : session.handles = other.handles
  taskTime_eq : session.taskTime = other.taskTime
  sweeper_eq : session.sweepers[number]? = other.sweepers[number]?
  lt : number < session.sweepers.length

theorem concerns_of_stops {session : Session} {move : Move} {number : Nat}
    (h : session.Stops move number) : concerns number move = true := by
  obtain ⟨-, h⟩ := h
  cases move with
  | tick other time => exact decide_eq_true h.1
  | act timestamp action =>
    cases action with
    | shutdown other => exact decide_eq_true h
    | releaseSweeper other => exact decide_eq_true h
    | _ => exact h.elim

theorem handlesAfter_of_not_concerns {number : Nat} {move : Move}
    (h : concerns number move = false) (handles : List Bool) :
    handlesAfter handles move = handles := by
  unfold handlesAfter
  split
  · exact absurd h.symm Bool.false_ne_true
  · exact absurd h.symm Bool.false_ne_true
  · rfl

theorem taskTimeAfter_of_not_concerns {number : Nat} {move : Move}
    (h : concerns number move = false) (taskTime : Nat) :
    taskTimeAfter taskTime move = taskTime := by
  unfold taskTimeAfter
  split
  · exact absurd h.symm Bool.false_ne_true
  · rfl

theorem lt_length_move {session : Session} {number : Nat}
    (h : number < session.sweepers.length) (move : Move) :
    number < (session.move move).1.sweepers.length := by
  obtain ⟨later, hlater, -⟩ := exists_sweeper_moved (List.getElem?_eq_getElem h) [move]
  exact (List.getElem?_eq_some_iff.1 hlater).1

/-- The ticks of the schedule that concern a sweeper are its own. -/
theorem filter_ticks {session : Session} {number : Nat} {sweeper : Sweeper}
    (hget : session.sweepers[number]? = some sweeper) (start stop : Nat) :
    ((session.schedule start stop).map fun due => Move.tick due.2 due.1).filter (concerns number)
      = (sweeper.ticks start stop).map fun time => .tick number time := by
  have hdue : (concerns number ∘ fun due : Nat × Nat => Move.tick due.2 due.1)
      = fun due => decide (due.2 = number) := rfl
  rw [List.filter_map, hdue, filter_schedule hget, List.map_map]
  rfl

namespace SameFor

variable {number : Nat} {session other third : Session}

theorem symm (h : SameFor number session other) : SameFor number other session :=
  ⟨h.handles_eq.symm, h.taskTime_eq.symm, h.sweeper_eq.symm, (List.getElem?_eq_some_iff.1
    (h.sweeper_eq.symm.trans (List.getElem?_eq_getElem h.lt))).1⟩

theorem trans (h : SameFor number session other) (h' : SameFor number other third) :
    SameFor number session third :=
  ⟨h.handles_eq.trans h'.handles_eq, h.taskTime_eq.trans h'.taskTime_eq,
    h.sweeper_eq.trans h'.sweeper_eq, h.lt⟩

theorem hasHandle_eq (h : SameFor number session other) : session.hasHandle = other.hasHandle :=
  congrArg (List.any · id) h.handles_eq

theorem sweeps_eq (h : SameFor number session other) :
    session.sweeps number = other.sweeps number := by
  rw [sweeps, sweeps, h.hasHandle_eq, h.sweeper_eq]

theorem stops_iff (h : SameFor number session other) (move : Move) :
    session.Stops move number ↔ other.Stops move number := by
  simp only [Stops, h.lt, h.symm.lt, h.hasHandle_eq]

/-- **A move of both sessions** keeps them the same for a sweeper. -/
theorem move (h : SameFor number session other) (move : Move) :
    SameFor number (session.move move).1 (other.move move).1 where
  handles_eq := by rw [handles_move, handles_move, h.handles_eq]
  taskTime_eq := by rw [taskTime_move, taskTime_move, h.taskTime_eq]
  sweeper_eq := by
    by_cases hstops : session.Stops move number
    · rw [sweeper_move_of_stops hstops, sweeper_move_of_stops ((h.stops_iff move).1 hstops),
        h.sweeper_eq]
    · have hother : ¬ other.Stops move number := fun h' => hstops ((h.stops_iff move).2 h')
      rw [sweeper_move h.lt hstops, sweeper_move h.symm.lt hother, h.sweeper_eq]
  lt := lt_length_move h.lt move

/-- **A move of one session alone** does so, too, if it does not concern the sweeper. -/
theorem move_left (h : SameFor number session other) {move : Move}
    (hmove : concerns number move = false) : SameFor number (session.move move).1 other where
  handles_eq := by rw [handles_move, handlesAfter_of_not_concerns hmove, h.handles_eq]
  taskTime_eq := by rw [taskTime_move, taskTimeAfter_of_not_concerns hmove, h.taskTime_eq]
  sweeper_eq := by
    have hstops : ¬ session.Stops move number := fun hstops => by
      rw [concerns_of_stops hstops] at hmove
      exact Bool.false_ne_true hmove.symm
    rw [sweeper_move h.lt hstops, h.sweeper_eq]
  lt := lt_length_move h.lt move

/-- What does not concern a sweeper can be left out. -/
theorem moved_filter (h : SameFor number session other) (moves : List Move) :
    SameFor number (session.moved moves) (other.moved (moves.filter (concerns number))) := by
  induction moves generalizing session other with
  | nil => exact h
  | cons move moves ih =>
    rw [List.filter_cons]
    cases hmove : concerns number move with
    | true => exact ih (h.move move)
    | false => exact ih (h.move_left hmove)

end SameFor

/-! ### The ticks of one sweeper -/

/-- The tick of a sweeper that a move is, if it is one, with whether it sweeps. -/
def tickOf (session : Session) (number : Nat) : Move → List (Nat × Bool)
  | .tick other time => if other = number then [(time, session.sweeps number)] else []
  | _ => []

/-- The ticks of a sweeper in a run, each with whether it sweeps. -/
def tickRecord (session : Session) (number : Nat) : List Move → List (Nat × Bool)
  | [] => []
  | move :: moves =>
    session.tickOf number move ++ (session.move move).1.tickRecord number moves

theorem tickOf_of_not_concerns {number : Nat} {move : Move} (h : concerns number move = false)
    (session : Session) : session.tickOf number move = [] := by
  cases move with
  | tick other time => exact if_neg (of_decide_eq_false h)
  | act timestamp action => rfl

namespace SameFor

variable {number : Nat} {session other : Session}

theorem tickOf_eq (h : SameFor number session other) (move : Move) :
    session.tickOf number move = other.tickOf number move := by
  unfold tickOf
  rw [h.sweeps_eq]

/-- **What does not concern a sweeper** has no part in its ticks. -/
theorem tickRecord_filter (h : SameFor number session other) (moves : List Move) :
    session.tickRecord number moves
      = other.tickRecord number (moves.filter (concerns number)) := by
  induction moves generalizing session other with
  | nil => rfl
  | cons move moves ih =>
    rw [tickRecord, List.filter_cons]
    cases hmove : concerns number move with
    | true => rw [if_pos rfl, tickRecord, h.tickOf_eq, ih (h.move move)]
    | false =>
      rw [tickOf_of_not_concerns hmove, List.nil_append, if_neg Bool.false_ne_true,
        ih (h.move_left hmove)]

theorem filter_movesOf (h : SameFor number session other) (timestamp : String)
    (action : Action) :
    (session.movesOf timestamp action).filter (concerns number)
      = if concernsOf number action
        then (other.movesOf timestamp action).filter (concerns number) else [] := by
  cases action with
  | elapse millis =>
    have hget := List.getElem?_eq_getElem h.lt
    rw [concernsOf, if_pos rfl, movesOf, movesOf, List.filter_append, List.filter_append,
      filter_ticks hget, filter_ticks (h.sweeper_eq.symm.trans hget), h.taskTime_eq]
  | _ =>
    simp only [movesOf, List.filter_cons, List.filter_nil, concerns]
    split
    · rfl
    · exact if_neg ‹_›

theorem perform (h : SameFor number session other) (timestamp : String) (action : Action) :
    SameFor number (session.perform timestamp action).session
      (if concernsOf number action then (other.perform timestamp action).session else other) := by
  have hmoved := h.moved_filter (session.movesOf timestamp action)
  rw [← (session.perform_eq timestamp action).1, h.filter_movesOf] at hmoved
  cases haction : concernsOf number action with
  | false =>
    rw [haction] at hmoved
    exact hmoved
  | true =>
    rw [haction, if_pos rfl] at hmoved
    have hother := (h.symm.trans h).moved_filter (other.movesOf timestamp action)
    rw [← (other.perform_eq timestamp action).1] at hother
    exact hmoved.trans hother.symm

theorem filter_allMoves (h : SameFor number session other) (timestamp : String)
    (actions : List Action) :
    (session.allMoves timestamp actions).filter (concerns number)
      = (other.allMoves timestamp (actions.filter (concernsOf number))).filter
        (concerns number) := by
  induction actions generalizing session other with
  | nil => rfl
  | cons action actions ih =>
    have hnext := h.perform timestamp action
    rw [allMoves, List.filter_append, h.filter_movesOf, List.filter_cons]
    cases haction : concernsOf number action with
    | false =>
      rw [haction] at hnext
      exact ih hnext
    | true =>
      rw [haction] at hnext
      rw [if_pos rfl, if_pos rfl, allMoves, List.filter_append, ih hnext]
      rfl

/-- **The ticks of a sweeper** depend neither on other sweepers nor on the use of the cache. -/
theorem tickRecord_eq (h : SameFor number session other) (timestamp : String)
    (actions : List Action) :
    session.tickRecord number (session.allMoves timestamp actions)
      = other.tickRecord number
        (other.allMoves timestamp (actions.filter (concernsOf number))) := by
  have hother : SameFor number other other := h.symm.trans h
  rw [h.tickRecord_filter, h.filter_allMoves, ← hother.tickRecord_filter]

end SameFor

end Session

end BoundedCache
