import BoundedCache.Proofs.Session.Ticks

namespace BoundedCache

/-!
# Task time in pieces

Task time may pass at once or in pieces, and nothing that ticks can tell the difference
(`Session.performAll_elapse`): a tick that falls on the end of a piece belongs to it
(`Sweeper.ticks_append`), the ticks of several sweepers come in the same order in both cases
(`Session.schedule_append`), and no tick changes what is still to come (`Session.schedule_congr`)
or looks at the task time (`Session.tick_taskTime`).
-/

/-! ### The ticks of a sweeper -/

namespace Sweeper

theorem le_of_mem_ticks {sweeper : Sweeper} {start stop time : Nat}
    (h : time ∈ sweeper.ticks start stop) : time ≤ stop := by
  obtain ⟨k, hk, rfl⟩ := List.mem_map.1 h
  obtain ⟨hlow, hhigh⟩ := List.mem_range'_1.1 hk
  have hreached : k ≤ (stop - sweeper.spawnedAt) / sweeper.interval := by
    generalize (stop - sweeper.spawnedAt) / sweeper.interval = reached at hhigh ⊢
    generalize (start - sweeper.spawnedAt) / sweeper.interval = passed at hlow hhigh
    omega
  have hpositive : 0 < sweeper.interval := by
    refine Nat.pos_of_ne_zero fun hzero => ?_
    rw [hzero, Nat.div_zero] at hreached
    exact absurd (hlow.trans hreached) (Nat.not_succ_le_zero _)
  have hle := (Nat.le_div_iff_mul_le hpositive).1 hreached
  have hfirst : sweeper.interval ≤ k * sweeper.interval :=
    Nat.le_mul_of_pos_left _ (Nat.lt_of_lt_of_le (Nat.succ_pos _) hlow)
  omega

/-- **A tick at the end of a piece of time belongs to it** and not to the next one. -/
theorem ticks_append (sweeper : Sweeper) {start middle stop : Nat} (hstart : start ≤ middle)
    (hstop : middle ≤ stop) :
    sweeper.ticks start middle ++ sweeper.ticks middle stop = sweeper.ticks start stop := by
  have hpassed : (start - sweeper.spawnedAt) / sweeper.interval
      ≤ (middle - sweeper.spawnedAt) / sweeper.interval :=
    Nat.div_le_div_right (Nat.sub_le_sub_right hstart _)
  have hreached : (middle - sweeper.spawnedAt) / sweeper.interval
      ≤ (stop - sweeper.spawnedAt) / sweeper.interval :=
    Nat.div_le_div_right (Nat.sub_le_sub_right hstop _)
  unfold ticks
  rw [← List.map_append]
  congr 1
  generalize (start - sweeper.spawnedAt) / sweeper.interval = passed at *
  generalize (middle - sweeper.spawnedAt) / sweeper.interval = between at *
  generalize (stop - sweeper.spawnedAt) / sweeper.interval = reached at *
  have hnext : between + 1 = passed + 1 + (between - passed) := by omega
  have hlength : reached - passed = between - passed + (reached - between) := by omega
  rw [hnext, hlength, List.range'_append_1]

theorem ticks_self (sweeper : Sweeper) (time : Nat) : sweeper.ticks time time = [] := by
  rw [ticks, Nat.sub_self]
  rfl

end Sweeper

namespace Session

/-! ### The ticks of all sweepers -/

/-- The ticks of all sweepers after `start` and up to `stop`, in their order. -/
def ticksBetween (session : Session) (start stop : Nat) : List Move :=
  (session.schedule start stop).map fun due => .tick due.2 due.1

/-- The ticks of all sweepers after `start` and up to `stop`, sweeper by sweeper. -/
def ticksBySweeper (session : Session) (start stop : Nat) : List (Nat × Nat) :=
  session.sweepers.zipIdx.flatMap fun x => (x.1.ticks start stop).map fun time => (time, x.2)

theorem schedule_perm (session : Session) (start stop : Nat) :
    (session.schedule start stop).Perm (session.ticksBySweeper start stop) :=
  List.mergeSort_perm _ _

theorem ticksBySweeper_append_perm (session : Session) {start middle stop : Nat}
    (hstart : start ≤ middle) (hstop : middle ≤ stop) :
    (session.ticksBySweeper start middle ++ session.ticksBySweeper middle stop).Perm
      (session.ticksBySweeper start stop) := by
  refine (List.flatMap_append_perm _ _ _).trans (.of_eq (List.flatMap_congr fun x _ => ?_))
  rw [← List.map_append, x.1.ticks_append hstart hstop]

theorem IsNoLater.antisymm {x y : Nat × Nat} (hxy : IsNoLater x y) (hyx : IsNoLater y x) :
    x = y := by
  simp only [IsNoLater] at hxy hyx
  exact Prod.ext (by omega) (by omega)

theorem isNoLater_of_mem_schedule {session : Session} {start middle stop : Nat} {x y : Nat × Nat}
    (hx : x ∈ session.schedule start middle) (hy : y ∈ session.schedule middle stop) :
    IsNoLater x y := by
  obtain ⟨sweeper, -, hx⟩ := mem_schedule_iff.1 hx
  obtain ⟨other, -, hy⟩ := mem_schedule_iff.1 hy
  obtain ⟨-, -, -, hlater⟩ := of_mem_ticks hy
  exact .inl (Nat.lt_of_le_of_lt (Sweeper.le_of_mem_ticks hx) hlater)

/-- **A schedule in pieces.** -/
theorem schedule_append (session : Session) {start middle stop : Nat} (hstart : start ≤ middle)
    (hstop : middle ≤ stop) :
    session.schedule start middle ++ session.schedule middle stop
      = session.schedule start stop := by
  -- Both sides are sorted, so it is enough that they have the same ticks.
  have hsorted : (session.schedule start middle ++ session.schedule middle stop).Pairwise
      IsNoLater :=
    List.pairwise_append.2 ⟨session.pairwise_schedule start middle,
      session.pairwise_schedule middle stop, fun _ hx _ hy => isNoLater_of_mem_schedule hx hy⟩
  have hperm : (session.schedule start middle ++ session.schedule middle stop).Perm
      (session.schedule start stop) :=
    ((session.schedule_perm start middle).append (session.schedule_perm middle stop)).trans
      ((session.ticksBySweeper_append_perm hstart hstop).trans
        (session.schedule_perm start stop).symm)
  exact hperm.eq_of_pairwise (fun _ _ _ _ hxy hyx => hxy.antisymm hyx) hsorted
    (session.pairwise_schedule start stop)

/-- The end of a sweeper leaves the schedule as it is: it ticks on and does nothing. -/
theorem schedule_congr {session other : Session}
    (h : session.sweepers.map Sweeper.ended = other.sweepers.map Sweeper.ended) (start stop : Nat) :
    session.schedule start stop = other.schedule start stop := by
  have hended (session : Session) : session.schedule start stop
      = { session with sweepers := session.sweepers.map Sweeper.ended }.schedule start stop := by
    rw [schedule, schedule, List.zipIdx_map, List.flatMap_map]
    rfl
  rw [hended session, hended other, schedule, schedule, h]

theorem map_ended_tick (session : Session) (number : Nat) :
    (session.tick number).1.sweepers.map Sweeper.ended = session.sweepers.map Sweeper.ended := by
  rw [tick_eq]
  dsimp only
  split
  · rfl
  · refine List.ext_getElem? fun i => ?_
    rw [List.getElem?_map, List.getElem?_map, List.getElem?_modify]
    cases session.sweepers[i]? with
    | none => rfl
    | some sweeper =>
      dsimp only [Option.map_some]
      split <;> rfl

theorem map_ended_ticks (session : Session) (due : List (Nat × Nat)) :
    (session.moved (due.map fun due => Move.tick due.2 due.1)).sweepers.map Sweeper.ended
      = session.sweepers.map Sweeper.ended := by
  induction due generalizing session with
  | nil => rfl
  | cons first due ih => exact (ih _).trans (session.map_ended_tick first.2)

/-- A tick does not look at the task time. -/
theorem tick_taskTime (session : Session) (time number : Nat) :
    ({ session with taskTime := time } : Session).tick number
      = ({ (session.tick number).1 with taskTime := time }, (session.tick number).2) := by
  have hhandle : ({ session with taskTime := time } : Session).hasHandle = session.hasHandle := rfl
  unfold tick
  rw [hhandle]
  dsimp only
  cases session.sweepers[number]? with
  | none => rfl
  | some sweeper =>
    dsimp only
    cases sweeper.isRunning with
    | false => rfl
    | true => cases session.hasHandle <;> rfl

theorem moved_ticks_taskTime (session : Session) (time : Nat) (due : List (Nat × Nat)) :
    let late : Session := { session with taskTime := time }
    let ticks := due.map fun due => Move.tick due.2 due.1
    late.moved ticks = { session.moved ticks with taskTime := time }
      ∧ late.reported ticks = session.reported ticks := by
  induction due generalizing session with
  | nil => exact ⟨rfl, rfl⟩
  | cons first due ih =>
    have htick := session.tick_taskTime time first.2
    obtain ⟨hmoved, hreported⟩ := ih (session.tick first.2).1
    simp only [List.map_cons, moved, reported, move, htick]
    exact ⟨hmoved, by rw [hreported]⟩

/-! ### Task time that passes -/

theorem elapse_eq (session : Session) (millis : Nat) :
    let stop := session.taskTime + millis
    (session.elapse millis).session
        = { session.moved (session.ticksBetween session.taskTime stop) with taskTime := stop }
      ∧ (session.elapse millis).events
        = session.reported (session.ticksBetween session.taskTime stop) := by
  have hticks := session.tickAll_eq []
    (session.schedule session.taskTime (session.taskTime + millis))
  simp only [elapse, hticks, ticksBetween, List.append_nil, List.reverse_reverse, and_self]

/-- **Task time that passes in two pieces** is the same as all of it at once. -/
theorem elapse_add (session : Session) (first second : Nat) :
    ((session.elapse first).session.elapse second).session
        = (session.elapse (first + second)).session
      ∧ (session.elapse first).events ++ ((session.elapse first).session.elapse second).events
        = (session.elapse (first + second)).events := by
  obtain ⟨hfirst, hfirstEvents⟩ := session.elapse_eq first
  obtain ⟨hsecond, hsecondEvents⟩ := (session.elapse first).session.elapse_eq second
  obtain ⟨hall, hallEvents⟩ := session.elapse_eq (first + second)
  have htime : (session.elapse first).session.taskTime = session.taskTime + first := rfl
  rw [htime, Nat.add_assoc] at hsecond hsecondEvents
  -- What has happened in the first piece leaves the ticks of the second one as they were.
  have hdue : (session.elapse first).session.schedule (session.taskTime + first)
        (session.taskTime + (first + second))
      = session.schedule (session.taskTime + first) (session.taskTime + (first + second)) := by
    rw [hfirst]
    exact schedule_congr (session.map_ended_ticks _) _ _
  have happend : session.ticksBetween session.taskTime (session.taskTime + (first + second))
      = session.ticksBetween session.taskTime (session.taskTime + first)
        ++ (session.elapse first).session.ticksBetween (session.taskTime + first)
          (session.taskTime + (first + second)) := by
    rw [ticksBetween, ticksBetween, ticksBetween, hdue, ← List.map_append,
      session.schedule_append (Nat.le_add_right _ _) (by omega)]
  obtain ⟨hmoved, hreported⟩ := (session.moved (session.ticksBetween session.taskTime
    (session.taskTime + first))).moved_ticks_taskTime (session.taskTime + first)
      ((session.elapse first).session.schedule (session.taskTime + first)
        (session.taskTime + (first + second)))
  rw [← hfirst] at hmoved hreported
  constructor
  · rw [hsecond, hall, happend, moved_append]
    exact congrArg (fun moved => { moved with taskTime := session.taskTime + (first + second) })
      hmoved
  · rw [hfirstEvents, hsecondEvents, hallEvents, happend, reported_append]
    exact congrArg (_ ++ ·) hreported

theorem elapse_zero (session : Session) :
    (session.elapse 0).session = session ∧ (session.elapse 0).events = [] := by
  have hnone : session.schedule session.taskTime session.taskTime = [] := by
    refine List.eq_nil_iff_forall_not_mem.2 fun due hdue => ?_
    obtain ⟨sweeper, -, htime⟩ := mem_schedule_iff.1 hdue
    rw [sweeper.ticks_self] at htime
    exact List.not_mem_nil htime
  obtain ⟨hsession, hevents⟩ := session.elapse_eq 0
  rw [Nat.add_zero, ticksBetween, hnone] at hsession hevents
  exact ⟨hsession, hevents⟩

/-- **Task time that passes in any pieces** is the same as all of it at once. -/
theorem performAll_elapse (session : Session) (timestamp : String) (log : List Event)
    (spans : List Nat) :
    session.performAll timestamp log (spans.map .elapse)
      = session.performAll timestamp log [.elapse spans.sum] := by
  induction spans generalizing session log with
  | nil =>
    obtain ⟨hsession, hevents⟩ := session.elapse_zero
    simp only [List.map_nil, List.sum_nil, performAll, perform, hsession, hevents,
      List.reverse_nil, List.nil_append]
  | cons first spans ih =>
    obtain ⟨hsession, hevents⟩ := session.elapse_add first spans.sum
    rw [List.map_cons, performAll, ih, List.sum_cons]
    simp only [performAll, perform, hsession, ← hevents, List.reverse_append, List.append_assoc]

end Session

end BoundedCache
