import BoundedCache.Proofs.Run.Removal
import BoundedCache.Proofs.Run.Tally
import BoundedCache.Proofs.Store.Discard
import BoundedCache.Session

namespace BoundedCache

/-!
# Removals in any order

Invalidations and sweeps that are called at one clock reading may come in any order.  A run of them
discards the rows that one of them hits (`Store.withoutEvictions_atOnce`), and its replies tell of
each of these rows once (`Store.removed_atOnce`).

Only the counter of evictions knows about the order: it counts the rows that a sweep hits before an
invalidation does (`Store.evictions_atOnce`).  Which rows these are can differ for the rows that
both a sweep and an invalidation hit, and for no others (`Operation.sweptFirst_of_perm`).
-/

namespace Operation

variable {now : Nat} {operations operations' : List Operation} {row : Row}

/-- Whether one of some removals hits a row. -/
def anyTakes (now : Nat) (operations : List Operation) (row : Row) : Bool :=
  operations.any fun operation => operation.takes now row

/-- Whether a sweep hits a row, and no invalidation does so earlier. -/
def sweptFirst (now : Nat) : List Operation → Row → Bool
  | [], _ => false
  | operation :: operations, row =>
    (operation.isSweep && operation.takes now row)
      || (!operation.takes now row && sweptFirst now operations row)

/-- Whether a row is due for a sweep among some removals. -/
def anySweeps (now : Nat) (operations : List Operation) (row : Row) : Bool :=
  operations.any fun operation => operation.isSweep && operation.takes now row

/-- Whether a row is named by an invalidation among some removals. -/
def anyNames (now : Nat) (operations : List Operation) (row : Row) : Bool :=
  operations.any fun operation => !operation.isSweep && operation.takes now row

theorem anySweeps_of_sweptFirst (h : sweptFirst now operations row = true) :
    anySweeps now operations row = true := by
  induction operations with
  | nil => exact h
  | cons operation operations ih =>
    rw [sweptFirst, Bool.or_eq_true, Bool.and_eq_true (!_)] at h
    rw [anySweeps, List.any_cons, Bool.or_eq_true]
    exact h.imp id fun hlater => ih hlater.2

/-- A row that is due goes to a sweep unless an invalidation names it. -/
theorem sweptFirst_of_anySweeps (hsweeps : anySweeps now operations row = true)
    (hnames : anyNames now operations row = false) : sweptFirst now operations row = true := by
  induction operations with
  | nil => exact hsweeps
  | cons operation operations ih =>
    rw [anySweeps, List.any_cons, Bool.or_eq_true] at hsweeps
    rw [anyNames, List.any_cons, Bool.or_eq_false_iff] at hnames
    rw [sweptFirst]
    cases htakes : operation.takes now row with
    | true =>
      -- What hits the row is no invalidation, so it is a sweep.
      have hsweep : operation.isSweep = true := by simpa [htakes] using hnames.1
      simp [hsweep]
    | false =>
      have hlater : anySweeps now operations row = true := hsweeps.resolve_left (by simp [htakes])
      simp [ih hlater hnames.2]

/-- **What a sweep takes first in one order** it takes first in every order, or an invalidation
    names it. -/
theorem sweptFirst_of_perm (hperm : operations.Perm operations')
    (h : sweptFirst now operations row = true) :
    sweptFirst now operations' row = true
      ∨ (anySweeps now operations' row && anyNames now operations' row) = true := by
  have hsweeps : anySweeps now operations' row = true :=
    (hperm.any_eq).symm.trans (anySweeps_of_sweptFirst h)
  cases hnames : anyNames now operations' row with
  | false => exact .inl (sweptFirst_of_anySweeps hsweeps hnames)
  | true => exact .inr (by simp [hsweeps])

end Operation

/-- The entries that the reply to a removal tells of. -/
def Count.removed (store : Store) (call : Call) : Nat := (store.call call).result.removed

namespace Store

variable {store : Store} {now : Nat} {operations : List Operation}

/-! ### Runs of removals -/

/-- Some operations, all at one clock reading. -/
def atOnce (now : Nat) (operations : List Operation) : List Call := operations.map (Call.mk now)

/-- The stored keys that one of some removals hits. -/
def keysHit (store : Store) (now : Nat) (operations : List Operation) : List String :=
  (store.entries.rows.filter (Operation.anyTakes now operations)).map Prod.fst

/-- The stored keys that are due for a sweep and named by an invalidation, both of them among some
    removals. -/
def keysContested (store : Store) (now : Nat) (operations : List Operation) : List String :=
  (store.entries.rows.filter fun row =>
    Operation.anySweeps now operations row && Operation.anyNames now operations row).map Prod.fst

/-- Which keys are hit does not depend on the order. -/
theorem keysHit_perm {operations' : List Operation} (hperm : operations.Perm operations')
    (store : Store) (now : Nat) :
    store.keysHit now operations = store.keysHit now operations' := by
  have htakes : Operation.anyTakes now operations = Operation.anyTakes now operations' :=
    funext fun _ => hperm.any_eq
  rw [keysHit, keysHit, htakes]

/-- Nor does it, which keys are contested. -/
theorem keysContested_perm {operations' : List Operation} (hperm : operations.Perm operations')
    (store : Store) (now : Nat) :
    store.keysContested now operations = store.keysContested now operations' := by
  have hsweeps : Operation.anySweeps now operations = Operation.anySweeps now operations' :=
    funext fun _ => hperm.any_eq
  have hnames : Operation.anyNames now operations = Operation.anyNames now operations' :=
    funext fun _ => hperm.any_eq
  rw [keysContested, keysContested, hsweeps, hnames]

/-- No key is listed twice. -/
theorem nodup_keysHit (store : Store) (now : Nat) (operations : List Operation) :
    (store.keysHit now operations).Nodup :=
  (List.filter_sublist.map Prod.fst).nodup store.entries.nodup

/-- **A run of removals discards the rows that one of them hits.** -/
theorem withoutEvictions_atOnce
    (hremovals : ∀ operation ∈ operations, operation.isRemoval = true) (store : Store) :
    (store.after (atOnce now operations)).withoutEvictions
      = store.withoutEvictions.discard (Operation.anyTakes now operations) := by
  induction operations generalizing store with
  | nil => exact (discard_none _).symm
  | cons operation operations ih =>
    obtain ⟨hremoval, hlater⟩ := List.forall_mem_cons.1 hremovals
    calc ((store.apply now operation).store.after (atOnce now operations)).withoutEvictions
        = (store.apply now operation).store.withoutEvictions.discard
            (Operation.anyTakes now operations) := ih hlater _
      _ = (store.withoutEvictions.discard (operation.takes now)).discard
            (Operation.anyTakes now operations) := by
          rw [withoutEvictions_removal store now hremoval]
      _ = store.withoutEvictions.discard (Operation.anyTakes now (operation :: operations)) :=
          discard_discard _ _ _

theorem rows_atOnce (hremovals : ∀ operation ∈ operations, operation.isRemoval = true)
    (store : Store) :
    (store.after (atOnce now operations)).entries.rows
      = store.entries.rows.filter fun row => !Operation.anyTakes now operations row := by
  have hlast : (store.after (atOnce now operations)).withoutEvictions
      = store.withoutEvictions.discard (Operation.anyTakes now operations) :=
    withoutEvictions_atOnce hremovals store
  exact (congrArg (·.entries.rows) hlast).trans (rows_discard _ _)

/-- **The replies tell of every key that goes, once.** -/
theorem removed_atOnce (hremovals : ∀ operation ∈ operations, operation.isRemoval = true)
    (store : Store) :
    store.total Count.removed (atOnce now operations)
      = (store.keysHit now operations).length := by
  rw [keysHit, List.length_map]
  induction operations generalizing store with
  | nil => exact (congrArg List.length (List.filter_false _)).symm
  | cons operation operations ih =>
    obtain ⟨hremoval, hlater⟩ := List.forall_mem_cons.1 hremovals
    have hfirst := removed_removal store now hremoval
    have hrest := ih hlater (store.apply now operation).store
    rw [rows_removal store now hremoval] at hrest
    calc (store.apply now operation).result.removed
          + (store.apply now operation).store.total Count.removed (atOnce now operations)
        = (store.entries.rows.filter (operation.takes now)).length
            + ((store.entries.rows.filter fun row => !operation.takes now row).filter
              (Operation.anyTakes now operations)).length := by rw [hfirst, hrest]
      _ = _ := length_filter_add_length_filter _ _ _

/-- **The evictions that are counted** are the rows that a sweep hits first. -/
theorem evictions_atOnce (hremovals : ∀ operation ∈ operations, operation.isRemoval = true)
    (store : Store) (htop : store.statistics.evictions + store.size ≤ Word.top) :
    (store.after (atOnce now operations)).statistics.evictions = store.statistics.evictions
      + (store.entries.rows.filter (Operation.sweptFirst now operations)).length := by
  induction operations generalizing store with
  | nil =>
    have hnone : store.entries.rows.filter (Operation.sweptFirst now []) = [] := List.filter_false _
    rw [hnone]
    rfl
  | cons operation operations ih =>
    obtain ⟨hremoval, hlater⟩ := List.forall_mem_cons.1 hremovals
    have hcounted := evictions_removal now hremoval htop
    -- What is counted is no longer there, so the counter keeps room for the rest.
    have hroom : (store.apply now operation).store.statistics.evictions
        + (store.apply now operation).store.size ≤ Word.top := by
      have hle := evictions_apply_le store now operation htop
      rw [Operation.usedKey?_removal hremoval] at hle
      exact hle.trans htop
    have hrest := ih hlater (store.apply now operation).store hroom
    rw [hcounted, rows_removal store now hremoval, Nat.add_assoc, length_filter_and_add] at hrest
    exact hrest

/-- **The order makes a difference to the counter** for the contested keys at most. -/
theorem evictions_atOnce_le {operations' : List Operation} (hperm : operations.Perm operations')
    (hremovals : ∀ operation ∈ operations, operation.isRemoval = true)
    (htop : store.statistics.evictions + store.size ≤ Word.top) (now : Nat) :
    (store.after (atOnce now operations)).statistics.evictions
      ≤ (store.after (atOnce now operations')).statistics.evictions
        + (store.keysContested now operations').length := by
  have hremovals' : ∀ operation ∈ operations', operation.isRemoval = true :=
    fun operation hmem => hremovals operation (hperm.mem_iff.2 hmem)
  have hfirst : (store.entries.rows.filter (Operation.sweptFirst now operations)).length
      ≤ (store.entries.rows.filter (Operation.sweptFirst now operations')).length
        + (store.entries.rows.filter fun row =>
          Operation.anySweeps now operations' row
            && Operation.anyNames now operations' row).length :=
    length_filter_le_add _ _ _ fun _ => Operation.sweptFirst_of_perm hperm
  rw [evictions_atOnce hremovals store htop, evictions_atOnce hremovals' store htop, keysContested,
    List.length_map]
  omega

end Store

/-! ### Removals through the handles of a session -/

/-- The number of entries that an answer tells of as removed. -/
def Feedback.removed : Feedback → Nat
  | .reply answer => answer.removed
  | _ => 0

/-- Operations, each through a handle, as actions. -/
def actionsOf (turns : List (Nat × Operation)) : List Action :=
  turns.map fun turn => .operate turn.1 turn.2

namespace Session

variable {session : Session} {turns turns' : List (Nat × Operation)}

/-- What a session gives back to some actions. -/
def responses (session : Session) (timestamp : String) : List Action → List Feedback
  | [] => []
  | action :: actions =>
    let turn := session.perform timestamp action
    turn.response :: turn.session.responses timestamp actions

/-- The store after some actions. -/
def storeAtEnd (session : Session) (timestamp : String) (actions : List Action) : Store :=
  (session.performAll timestamp [] actions).1.store

/-- **Calls through handles that are alive** are a run of the store at one clock reading. -/
theorem performAll_actionsOf (halive : ∀ turn ∈ turns, session.isAlive turn.1 = true)
    (timestamp : String) (log : List Event) :
    (session.performAll timestamp log (actionsOf turns)).1.store
        = session.store.after (Store.atOnce session.clock (turns.map Prod.snd))
      ∧ ((session.responses timestamp (actionsOf turns)).map Feedback.removed).sum
        = session.store.total Count.removed
            (Store.atOnce session.clock (turns.map Prod.snd)) := by
  induction turns generalizing session log with
  | nil => exact ⟨rfl, rfl⟩
  | cons turn turns ih =>
    obtain ⟨hhere, hthere⟩ := List.forall_mem_cons.1 halive
    let step := session.store.apply session.clock turn.2
    have hperform : session.perform timestamp (.operate turn.1 turn.2)
        = session.turn step .reply := if_pos hhere
    -- The step changes the store of the session, and neither its clock nor its handles.
    have hthere' : ∀ turn ∈ turns,
        (session.turn step Feedback.reply).session.isAlive turn.1 = true := hthere
    obtain ⟨hlast, hremoved⟩ := ih hthere' (step.events.reverse ++ log)
    refine ⟨?_, ?_⟩
    · rw [actionsOf, List.map_cons, performAll, hperform]
      exact hlast
    · have hanswers : session.responses timestamp (actionsOf (turn :: turns))
          = .reply step.result
            :: (session.turn step .reply).session.responses timestamp (actionsOf turns) := by
        rw [actionsOf, List.map_cons, responses, hperform]
        rfl
      rw [hanswers, List.map_cons, List.sum_cons, hremoved]
      rfl

/-- **Removals commute.**  Invalidations and sweeps are called at one clock reading, through any
    handles, in a store that a cache can come to.  Any two orders of these calls leave the same
    store, if the counter of evictions is left out of account: the rows that no call hits.  The
    answers tell in both orders of every key that a call hits, once.  The counters differ at most by
    the keys that are both due for a sweep and named by an invalidation. -/
theorem removals_commute (hstore : session.store.Reachable) (hturns : turns.Perm turns')
    (hremovals : ∀ turn ∈ turns, turn.2.isRemoval = true)
    (halive : ∀ turn ∈ turns, session.isAlive turn.1 = true) (timestamp : String) :
    let operations := turns.map Prod.snd
    let last := session.storeAtEnd timestamp (actionsOf turns)
    let last' := session.storeAtEnd timestamp (actionsOf turns')
    let keys := session.store.keysHit session.clock operations
    let contested := session.store.keysContested session.clock operations
    last.withoutEvictions = last'.withoutEvictions
      ∧ last.entries.rows = (session.store.entries.rows.filter fun row =>
          !Operation.anyTakes session.clock operations row)
      ∧ keys.Nodup
      ∧ ((session.responses timestamp (actionsOf turns)).map Feedback.removed).sum = keys.length
      ∧ ((session.responses timestamp (actionsOf turns')).map Feedback.removed).sum = keys.length
      ∧ last.statistics.evictions ≤ last'.statistics.evictions + contested.length
      ∧ last'.statistics.evictions ≤ last.statistics.evictions + contested.length := by
  intro operations last last' keys contested
  let operations' := turns'.map Prod.snd
  have hoperations : operations.Perm operations' := hturns.map Prod.snd
  have hmine : ∀ operation ∈ operations, operation.isRemoval = true :=
    List.forall_mem_map.2 hremovals
  have hothers : ∀ operation ∈ operations', operation.isRemoval = true :=
    fun operation hmem => hmine operation (hoperations.mem_iff.2 hmem)
  -- Both orders are runs of the store at the reading of the clock.
  obtain ⟨hlast, hremoved⟩ := performAll_actionsOf halive timestamp []
  obtain ⟨hlast', hremoved'⟩ := performAll_actionsOf
    (fun turn hturn => halive turn (hturns.mem_iff.2 hturn)) timestamp []
  change last = session.store.after (Store.atOnce session.clock operations) at hlast
  change last' = session.store.after (Store.atOnce session.clock operations') at hlast'
  have htop := hstore.evictions_le
  have hle := Store.evictions_atOnce_le hoperations hmine htop session.clock
  have hge := Store.evictions_atOnce_le hoperations.symm hothers htop session.clock
  rw [← hlast, ← hlast', ← Store.keysContested_perm hoperations] at hle
  rw [← hlast, ← hlast'] at hge
  have htakes : Operation.anyTakes session.clock operations
      = Operation.anyTakes session.clock operations' := funext fun _ => hoperations.any_eq
  refine ⟨?_, ?_, Store.nodup_keysHit _ _ _, ?_, ?_, hle, hge⟩
  · rw [hlast, hlast', Store.withoutEvictions_atOnce hmine, Store.withoutEvictions_atOnce hothers,
      htakes]
  · rw [hlast]
    exact Store.rows_atOnce hmine _
  · exact hremoved.trans (Store.removed_atOnce hmine _)
  · refine hremoved'.trans ((Store.removed_atOnce hothers _).trans ?_)
    rw [← Store.keysHit_perm hoperations]

/-- A pattern names an entry that has expired.  If the sweep comes first, it counts this entry as an
    eviction. -/
theorem removals_commute_contested :
    let session : Session :=
      { store := (Store.new 100 60).after
          [⟨0, .put "Ab" ⟨[]⟩ 1⟩, ⟨0, .put "c" ⟨[]⟩ 5⟩, ⟨0, .put "xa" ⟨[]⟩ 0⟩, ⟨0, .put "d" ⟨[]⟩ 0⟩]
        clock := 2000, handles := [true, false, true] }
    let turns : List (Nat × Operation) :=
      [(0, .sweep), (2, .invalidatePattern "A"), (0, .invalidate "c"), (2, .invalidate "xa")]
    let last := session.storeAtEnd "" (actionsOf turns)
    let last' := session.storeAtEnd "" (actionsOf turns.reverse)
    session.store.Reachable ∧ (∀ turn ∈ turns, turn.2.isRemoval = true)
      ∧ (∀ turn ∈ turns, session.isAlive turn.1 = true)
      ∧ last.withoutEvictions = last'.withoutEvictions ∧ last.recency.keys = ["d"]
      ∧ ((session.responses "" (actionsOf turns)).map Feedback.removed) = [1, 1, 1, 0]
      ∧ ((session.responses "" (actionsOf turns.reverse)).map Feedback.removed) = [1, 1, 1, 0]
      ∧ session.store.keysContested session.clock (turns.map Prod.snd) = ["Ab"]
      ∧ last.statistics.evictions = 1 ∧ last'.statistics.evictions = 0 := by
  intro session turns last last'
  have hstore : session.store.Reachable :=
    Store.reachable_after (.of_sum_le (by decide) (by decide))
  have hremovals : ∀ turn ∈ turns, turn.2.isRemoval = true := by decide
  have halive : ∀ turn ∈ turns, session.isAlive turn.1 = true := by decide
  obtain ⟨hlast, -⟩ :=
    removals_commute hstore (List.reverse_perm turns).symm hremovals halive ""
  exact ⟨hstore, hremovals, halive, hlast, by decide +kernel, by decide +kernel, by decide +kernel,
    by decide +kernel, by decide +kernel, by decide +kernel⟩

end Session

end BoundedCache
