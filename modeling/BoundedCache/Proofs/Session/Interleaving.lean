import BoundedCache.Proofs.Run.Basic
import BoundedCache.Proofs.Store.Peaks
import BoundedCache.Session

namespace BoundedCache

/-!
# Interleaved calls on separate keys

Several handles of one cache call it at the same time, each with a list of its own; a `Schedule` is
one order in which the calls get through, and every call is one step.  If no key is used by two
handles and the largest sizes of all keys fit the budget together, the order does not matter:

* what a call answers depends on the earlier calls of its own handle only (`outcomes_filter`);
* what is held for a key in the end depends on the calls on this key only (`heldAfter_filter`);
* what is counted is the sum over the calls (`Tally.total_perm`).

All three are facts about `outcomes` and `heldAfter`, which play a schedule on what is held for each
key.  `Store.Spacious.follows` ties them to the store, `Session.interleavings_agree` is the result.
-/

/-- Calls in the order in which they get through, each with the handle that it is made through. -/
abbrev Schedule := List (Nat × KeyCall)

/-- The calls of one handle. -/
def Schedule.through (schedule : Schedule) (handle : Nat) : Schedule :=
  schedule.filter fun turn => turn.1 = handle

/-- The keys of the calls of a schedule. -/
def Schedule.keys (schedule : Schedule) : List String := schedule.map fun turn => turn.2.key

/-- Whether a schedule runs a list of calls for each handle, in any order between the handles. -/
def Interleaves (threads : List (List KeyCall)) (schedule : Schedule) : Prop :=
  ∀ handle, (schedule.through handle).map Prod.snd = threads[handle]?.getD []

/-- Whether no key is used by two handles. -/
def Separate (threads : List (List KeyCall)) : Prop :=
  threads.Pairwise fun calls others => ∀ call ∈ calls, ∀ other ∈ others, call.key ≠ other.key

/-! ### Schedules of the same calls -/

/-- Lists that agree on what each tag marks are the same up to their order. -/
theorem perm_of_filter_eq {α : Type} {l l' : List (Nat × α)}
    (h : ∀ tag, (l.filter fun x => x.1 = tag) = l'.filter fun x => x.1 = tag) : l.Perm l' := by
  classical
  refine List.perm_iff_count.2 fun x => ?_
  have hcount (l : List (Nat × α)) : (l.filter fun y => y.1 = x.1).count x = l.count x :=
    List.count_filter (decide_eq_true rfl)
  rw [← hcount l, h, hcount]

namespace Interleaves

variable {threads : List (List KeyCall)} {schedule schedule' : Schedule}

theorem through_eq (h : Interleaves threads schedule) (handle : Nat) :
    schedule.through handle = (threads[handle]?.getD []).map fun call => (handle, call) := by
  rw [← h handle, List.map_map]
  refine (List.map_congr_left fun turn hturn => ?_).trans (List.map_id _) |>.symm
  have htag : turn.1 = handle := of_decide_eq_true (List.mem_filter.1 hturn).2
  exact Prod.ext htag.symm rfl

theorem through_congr (h : Interleaves threads schedule) (h' : Interleaves threads schedule')
    (handle : Nat) : schedule.through handle = schedule'.through handle := by
  rw [h.through_eq, h'.through_eq]

theorem mem (h : Interleaves threads schedule) {turn : Nat × KeyCall} (hturn : turn ∈ schedule) :
    turn.2 ∈ threads[turn.1]?.getD [] := by
  rw [← h turn.1]
  exact List.mem_map_of_mem (List.mem_filter.2 ⟨hturn, decide_eq_true rfl⟩)

theorem mem_getElem (h : Interleaves threads schedule) {turn : Nat × KeyCall}
    (hturn : turn ∈ schedule) : ∃ hlt : turn.1 < threads.length, turn.2 ∈ threads[turn.1] := by
  have hmem := h.mem hturn
  by_cases hlt : turn.1 < threads.length
  · rw [List.getElem?_eq_getElem hlt] at hmem
    exact ⟨hlt, hmem⟩
  · rw [List.getElem?_eq_none (by omega)] at hmem
    exact absurd hmem List.not_mem_nil

theorem mem_flatten (h : Interleaves threads schedule) {turn : Nat × KeyCall}
    (hturn : turn ∈ schedule) : turn.2 ∈ threads.flatten := by
  obtain ⟨_, hmem⟩ := h.mem_getElem hturn
  exact List.mem_flatten.2 ⟨_, List.getElem_mem _, hmem⟩

end Interleaves

/-- Whether every key is used by one handle. -/
def Schedule.Owned (schedule : Schedule) : Prop :=
  ∀ turn ∈ schedule, ∀ other ∈ schedule, turn.2.key = other.2.key → turn.1 = other.1

theorem Interleaves.owned {threads : List (List KeyCall)} {schedule : Schedule}
    (h : Interleaves threads schedule) (hseparate : Separate threads) : schedule.Owned := by
  intro turn hturn other hother hkey
  obtain ⟨hlt, hmem⟩ := h.mem_getElem hturn
  obtain ⟨hlt', hmem'⟩ := h.mem_getElem hother
  have hpairs := List.pairwise_iff_getElem.1 hseparate
  rcases Nat.lt_trichotomy turn.1 other.1 with hless | heq | hmore
  · exact absurd hkey (hpairs _ _ hlt hlt' hless _ hmem _ hmem')
  · exact heq
  · exact absurd hkey.symm (hpairs _ _ hlt' hlt hmore _ hmem' _ hmem)

/-! ### Schedules on what is held -/

section Outcomes

variable (now defaultTtl : Nat)

/-- What is held for each key after a call. -/
def heldOn (held : String → Option Holding) (call : KeyCall) : String → Option Holding :=
  Function.update held call.key (call.action.outcome now defaultTtl (held call.key)).held

/-- What is held for each key after a schedule. -/
def heldAfter (held : String → Option Holding) : Schedule → String → Option Holding
  | [] => held
  | turn :: rest => heldAfter (heldOn now defaultTtl held turn.2) rest

/-- The outcomes of the calls of a schedule. -/
def outcomes (held : String → Option Holding) : Schedule → List (Nat × Outcome)
  | [] => []
  | turn :: rest => (turn.1, turn.2.action.outcome now defaultTtl (held turn.2.key))
      :: outcomes (heldOn now defaultTtl held turn.2) rest

variable {now defaultTtl}

/-- Only what is held for the keys of a schedule matters. -/
theorem outcomes_congr {schedule : Schedule} {held held' : String → Option Holding}
    (h : ∀ turn ∈ schedule, held turn.2.key = held' turn.2.key) :
    outcomes now defaultTtl held schedule = outcomes now defaultTtl held' schedule := by
  induction schedule generalizing held held' with
  | nil => rfl
  | cons turn rest ih =>
    rw [outcomes, outcomes, h turn List.mem_cons_self]
    refine congrArg _ (ih fun other hother => ?_)
    rw [heldOn, heldOn, Function.update_apply, Function.update_apply, h turn List.mem_cons_self,
      h other (List.mem_cons_of_mem _ hother)]

/-- **The outcomes of a handle** are those of its own calls alone. -/
theorem outcomes_filter {schedule : Schedule} (howned : schedule.Owned) (handle : Nat)
    (held : String → Option Holding) :
    ((outcomes now defaultTtl held schedule).filter fun x => x.1 = handle)
      = outcomes now defaultTtl held (schedule.through handle) := by
  induction schedule generalizing held with
  | nil => rfl
  | cons turn rest ih =>
    have hrest := ih (fun other hother third hthird =>
      howned other (List.mem_cons_of_mem _ hother) third (List.mem_cons_of_mem _ hthird))
      (heldOn now defaultTtl held turn.2)
    rw [outcomes, List.filter_cons, hrest]
    by_cases hturn : turn.1 = handle
    · have hthrough : Schedule.through (turn :: rest) handle
          = turn :: Schedule.through rest handle := List.filter_cons_of_pos (decide_eq_true hturn)
      rw [if_pos (decide_eq_true hturn), hthrough, outcomes]
    · have hthrough : Schedule.through (turn :: rest) handle = Schedule.through rest handle :=
        List.filter_cons_of_neg (by simp [hturn])
      rw [if_neg (by simpa using hturn), hthrough]
      -- The call is another handle's, so its key is none of this handle's keys.
      refine outcomes_congr fun other hother => Function.update_of_ne (fun hkey => hturn ?_) _ _
      obtain ⟨hmem, hhandle⟩ := List.mem_filter.1 hother
      rw [← of_decide_eq_true hhandle]
      exact howned turn List.mem_cons_self other (List.mem_cons_of_mem _ hmem) hkey.symm

/-- **What is held for a key** is told by the calls on this key. -/
theorem heldAfter_filter (schedule : Schedule) (key : String) {held held' : String → Option Holding}
    (h : held key = held' key) :
    heldAfter now defaultTtl held schedule key
      = heldAfter now defaultTtl held' (schedule.filter fun turn => turn.2.key = key) key := by
  induction schedule generalizing held held' with
  | nil => exact h
  | cons turn rest ih =>
    rw [heldAfter, List.filter_cons]
    by_cases hkey : turn.2.key = key
    · rw [if_pos (decide_eq_true hkey), heldAfter]
      refine ih ?_
      rw [heldOn, heldOn, hkey, h, Function.update_self, Function.update_self]
    · rw [if_neg (by simpa using hkey)]
      exact ih ((Function.update_of_ne (Ne.symm hkey) _ _).trans h)

end Outcomes

/-! ### The calls on one key -/

/-- The calls on a key are among those of the handle that uses it. -/
theorem Schedule.Owned.filter_key_eq {schedule : Schedule} (howned : schedule.Owned)
    {turn : Nat × KeyCall} (hturn : turn ∈ schedule) :
    (schedule.filter fun other => other.2.key = turn.2.key)
      = (schedule.through turn.1).filter fun other => other.2.key = turn.2.key := by
  rw [Schedule.through, List.filter_filter]
  refine List.filter_congr fun other hother => ?_
  by_cases hkey : other.2.key = turn.2.key
  · simp [hkey, howned other hother turn hturn hkey]
  · simp [hkey]

namespace Interleaves

variable {threads : List (List KeyCall)} {schedule schedule' : Schedule}

theorem perm (h : Interleaves threads schedule) (h' : Interleaves threads schedule') :
    schedule.Perm schedule' :=
  perm_of_filter_eq (h.through_congr h')

/-- Two schedules of the same calls make the same calls on each key, in the same order. -/
theorem filter_key_congr (h : Interleaves threads schedule) (h' : Interleaves threads schedule')
    (hseparate : Separate threads) (key : String) :
    (schedule.filter fun turn => turn.2.key = key)
      = schedule'.filter fun turn => turn.2.key = key := by
  by_cases hused : ∃ turn ∈ schedule, turn.2.key = key
  · obtain ⟨turn, hturn, rfl⟩ := hused
    have hturn' : turn ∈ schedule' := (h.perm h').mem_iff.1 hturn
    rw [(h.owned hseparate).filter_key_eq hturn, (h'.owned hseparate).filter_key_eq hturn',
      h.through_congr h']
  · have hnone (turn : Nat × KeyCall) (hturn : turn ∈ schedule) : ¬ decide (turn.2.key = key) := by
      simpa using fun hkey => hused ⟨turn, hturn, hkey⟩
    rw [List.filter_eq_nil_iff.2 hnone, List.filter_eq_nil_iff.2 fun turn hturn =>
      hnone turn ((h.perm h').mem_iff.2 hturn)]

/-- The outcomes of two schedules of the same calls are the same, handle by handle. -/
theorem outcomes_filter_congr (h : Interleaves threads schedule)
    (h' : Interleaves threads schedule') (hseparate : Separate threads) (now defaultTtl : Nat)
    (held : String → Option Holding) (handle : Nat) :
    ((outcomes now defaultTtl held schedule).filter fun x => x.1 = handle)
      = (outcomes now defaultTtl held schedule').filter fun x => x.1 = handle := by
  rw [outcomes_filter (h.owned hseparate), outcomes_filter (h'.owned hseparate),
    h.through_congr h']

end Interleaves

/-! ### Schedules on a store -/

/-- A call of a schedule as an action of a session. -/
def turnAction (turn : Nat × KeyCall) : Action := .operate turn.1 turn.2.operation

/-- What a schedule makes of a store, told without the order of use. -/
structure Store.Follows (store : Store) (now : Nat) (schedule : Schedule) (last : Store) :
    Prop where
  holding_eq : ∀ key,
    last.holding? key = heldAfter now store.defaultTtl store.holding? schedule key
  accessed_eq : ∀ key, last.accessedAt? key
    = if key ∈ schedule.keys then (last.holding? key).map fun _ => now else store.accessedAt? key
  tally_eq : last.tally = store.tally.countOn
    (.total ((outcomes now store.defaultTtl store.holding? schedule).map fun x => x.2.counted))
  settings_eq : last.settings = store.settings
  accounted : last.Accounted

namespace Session

/-- What a session answers to the calls of a schedule, each answer with its handle. -/
def answers (session : Session) (timestamp : String) : Schedule → List (Nat × Feedback)
  | [] => []
  | turn :: rest =>
    let result := session.perform timestamp (turnAction turn)
    (turn.1, result.response) :: result.session.answers timestamp rest

/-- The session after the calls of a schedule, with the events on the way. -/
def runAll (session : Session) (timestamp : String) (schedule : Schedule) :
    Session × List Event :=
  session.performAll timestamp [] (schedule.map turnAction)

end Session

/-- Calls on other keys change nothing for a key. -/
theorem heldAfter_of_unused {now defaultTtl : Nat} {schedule : Schedule} {key : String}
    (hunused : key ∉ schedule.keys) (held : String → Option Holding) :
    heldAfter now defaultTtl held schedule key = held key := by
  have hnone : (schedule.filter fun turn => turn.2.key = key) = [] :=
    List.filter_eq_nil_iff.2 fun turn hturn => by
      simpa using fun hkey => hunused (List.mem_map.2 ⟨turn, hturn, hkey⟩)
  rw [heldAfter_filter schedule key rfl, hnone, heldAfter]

namespace Store

variable {store : Store} {keys : List String} {bound : String → Nat} {now : Nat}

/-- The store that a call leaves where there is room for it. -/
theorem Spacious.holding?_apply (h : store.Spacious keys bound) (now : Nat) {call : KeyCall}
    (hcall : Admits keys bound call) :
    (store.apply now call.operation).store.holding?
      = heldOn now store.defaultTtl store.holding? call := by
  funext key
  rw [heldOn, Function.update_apply]
  exact (store.serves_on now call.key call.action (h.hasRoom hcall)).holding_eq key

theorem Follows.cons {turn : Nat × KeyCall} {rest : Schedule} {last : Store}
    (h : store.Spacious keys bound) (hturn : Admits keys bound turn.2)
    (hrest : (store.apply now turn.2.operation).store.Follows now rest last) :
    store.Follows now (turn :: rest) last := by
  have hserves := store.serves_on now turn.2.key turn.2.action (h.hasRoom hturn)
  have hsettings := store.settings_on now turn.2
  have hholding := h.holding?_apply now hturn
  have hdefaultTtl : (store.apply now turn.2.operation).store.defaultTtl = store.defaultTtl :=
    congrArg Prod.snd hsettings
  have hheld := hrest.holding_eq
  have htally := hrest.tally_eq
  rw [hdefaultTtl, hholding] at hheld htally
  refine ⟨hheld, fun key => ?_, ?_, hrest.settings_eq.trans hsettings, hrest.accounted⟩
  · have hkeys : Schedule.keys (turn :: rest) = turn.2.key :: Schedule.keys rest := rfl
    rw [hrest.accessed_eq, hkeys]
    by_cases hused : key ∈ Schedule.keys rest
    · rw [if_pos hused, if_pos (List.mem_cons_of_mem _ hused)]
    · -- The call is the last one on its key, if it is on this key at all.
      rw [if_neg hused]
      refine (hserves.accessed_eq key).trans ?_
      by_cases hkey : key = turn.2.key
      · have hlast := hheld key
        rw [heldAfter_of_unused hused, heldOn, hkey, Function.update_self] at hlast
        rw [if_pos hkey, if_pos (List.mem_cons.2 (.inl hkey)), hkey, hlast]
      · rw [if_neg hkey, if_neg fun hmem => (List.mem_cons.1 hmem).elim hkey hused]
  · rw [htally, outcomes, List.map_cons, Tally.countOn_total_cons]
    exact congrArg (Tally.countOn · _) hserves.tally_eq

end Store

namespace Session

variable {session : Session} {keys : List String} {bound : String → Nat} {schedule : Schedule}

/-- **A schedule with room for everything** answers as its outcomes say, leaves what they leave and
    reports nothing. -/
theorem follows_runAll (h : session.store.Spacious keys bound)
    (hadmits : ∀ turn ∈ schedule, Store.Admits keys bound turn.2)
    (halive : ∀ turn ∈ schedule, session.isAlive turn.1 = true) (timestamp : String) :
    session.answers timestamp schedule
        = (outcomes session.clock session.store.defaultTtl session.store.holding? schedule).map
            (fun x => (x.1, .reply x.2.reply))
      ∧ session.store.Follows session.clock schedule (session.runAll timestamp schedule).1.store
      ∧ (session.runAll timestamp schedule).2 = [] := by
  induction schedule generalizing session with
  | nil => exact ⟨rfl, ⟨fun _ => rfl, fun _ => (if_neg List.not_mem_nil).symm, rfl, rfl,
      h.accounted⟩, rfl⟩
  | cons turn rest ih =>
    obtain ⟨hturn, hrest⟩ := List.forall_mem_cons.1 hadmits
    obtain ⟨hhere, hthere⟩ := List.forall_mem_cons.1 halive
    have hserves := session.store.serves_on session.clock turn.2.key turn.2.action (h.hasRoom hturn)
    have hheld := h.holding?_apply session.clock hturn
    have hdefaultTtl : (session.store.apply session.clock turn.2.operation).store.defaultTtl
        = session.store.defaultTtl := congrArg Prod.snd (session.store.settings_on _ turn.2)
    generalize hstep : session.store.apply session.clock turn.2.operation = step at *
    have hperform : session.perform timestamp (turnAction turn) = session.turn step .reply :=
      (if_pos hhere).trans (by rw [hstep])
    have hnext : (session.turn step Feedback.reply).session.store.Spacious keys bound :=
      hstep ▸ h.apply session.clock hturn
    obtain ⟨hanswers, hfollows, hlog⟩ := ih hnext hrest hthere
    have hrun : session.runAll timestamp (turn :: rest)
        = (session.turn step .reply).session.runAll timestamp rest := by
      have hevents : step.events = [] := hstep ▸ hserves.events_eq
      rw [runAll, List.map_cons, performAll, hperform]
      show performAll _ _ (step.events.reverse ++ []) _ = _
      rw [hevents]
      rfl
    refine ⟨?_, ?_, by rw [hrun, hlog]⟩
    · rw [answers, hperform, outcomes, List.map_cons, hanswers]
      refine congrArg₂ List.cons ?_ ?_
      · exact congrArg (fun reply => (turn.1, Feedback.reply reply)) (hstep ▸ hserves.reply_eq)
      · show List.map _ (outcomes session.clock step.store.defaultTtl step.store.holding? rest) = _
        rw [hdefaultTtl, hheld]
    · rw [hrun]
      exact .cons h hturn (hstep ▸ hfollows)

end Session

/-! ### Agreement -/

namespace Store

/-- What the rows of a store hold. -/
def contents (store : Store) : List (String × Holding) := store.entries.rows.map Row.content

/-- **Two stores that only differ in the order of use**, in the order of their tables, and in the
    largest number of entries so far. -/
structure AgreesWith (store other : Store) : Prop where
  keys_perm : store.entries.keys.Perm other.entries.keys
  holding_eq : ∀ key, store.holding? key = other.holding? key
  accessed_eq : ∀ key, store.accessedAt? key = other.accessedAt? key
  size_eq : store.size = other.size
  usedBytes_eq : store.usedBytes = other.usedBytes
  tally_eq : store.tally = other.tally
  settings_eq : store.settings = other.settings

theorem mem_contents_iff (store : Store) (key : String) (held : Holding) :
    (key, held) ∈ store.contents ↔ store.holding? key = some held := by
  simp only [contents, Row.content, List.mem_map, Prod.exists, Table.mem_rows_iff, Prod.mk.injEq,
    holding?, Option.map_eq_some_iff]
  constructor
  · rintro ⟨_, entry, hfind, rfl, rfl⟩
    exact ⟨entry, hfind, rfl⟩
  · rintro ⟨entry, hfind, rfl⟩
    exact ⟨key, entry, hfind, rfl, rfl⟩

theorem nodup_contents (store : Store) : store.contents.Nodup := by
  have hkeys : (store.contents.map Prod.fst).Nodup := by
    rw [contents, List.map_map]
    exact store.entries.nodup
  exact hkeys.of_map

variable {store last last' : Store} {now : Nat} {schedule schedule' : Schedule}

/-- Stores that hold the same for every key hold the same rows. -/
theorem contents_perm (h : ∀ key, last.holding? key = last'.holding? key) :
    last.contents.Perm last'.contents := by
  refine (List.perm_ext_iff_of_nodup last.nodup_contents last'.nodup_contents).2 ?_
  rintro ⟨key, held⟩
  rw [mem_contents_iff, mem_contents_iff, h]

/-- **Schedules of the same calls leave stores that agree.** -/
theorem Follows.agrees (h : store.Follows now schedule last)
    (h' : store.Follows now schedule' last') {threads : List (List KeyCall)}
    (hthreads : Interleaves threads schedule) (hthreads' : Interleaves threads schedule')
    (hseparate : Separate threads) :
    last.AgreesWith last' := by
  have hholding (key : String) : last.holding? key = last'.holding? key := by
    rw [h.holding_eq, h'.holding_eq, heldAfter_filter schedule key rfl,
      heldAfter_filter schedule' key rfl, hthreads.filter_key_congr hthreads' hseparate]
  have hcontents := contents_perm hholding
  have hoccur (key : String) : key ∈ schedule.keys ↔ key ∈ schedule'.keys :=
    ((hthreads.perm hthreads').map fun turn => turn.2.key).mem_iff
  have houtcomes := perm_of_filter_eq
    (hthreads.outcomes_filter_congr hthreads' hseparate now store.defaultTtl store.holding?)
  refine ⟨?_, hholding, fun key => ?_, ?_, ?_, ?_, h.settings_eq.trans h'.settings_eq.symm⟩
  · have hkeys := hcontents.map Prod.fst
    rwa [contents, contents, List.map_map, List.map_map] at hkeys
  · rw [h.accessed_eq, h'.accessed_eq, hholding]
    simp only [hoccur]
  · have hlength := hcontents.length_eq
    rwa [contents, contents, List.length_map, List.length_map] at hlength
  · have hsum := (hcontents.map fun row => row.2.size).sum_eq
    rw [contents, contents, List.map_map, List.map_map] at hsum
    rw [h.accounted.used_eq, h'.accounted.used_eq]
    exact hsum
  · rw [h.tally_eq, h'.tally_eq, Tally.total_perm (houtcomes.map fun x => x.2.counted)]

end Store

/-! ### Handles on separate keys -/

namespace Session

/-- **Handles on separate keys do not disturb each other.**  A cache that a run has left is called
    at one clock reading, through any handles, each with its own list of calls.  If no key is used
    by two handles and the largest sizes of all keys fit the budget together, then in any two orders
    of these calls every handle gets the same answers, the stores agree in the end, and nothing is
    reported: no eviction and no oversized payload. -/
theorem interleavings_agree {budget defaultTtl : Nat} {calls : List Call}
    (hrun : (Store.new budget defaultTtl).NoOverflow calls) {session : Session}
    (hstore : session.store = (Store.new budget defaultTtl).after calls)
    (hbudget : session.store.budget ≤ Word.top) {threads : List (List KeyCall)}
    (halive : ∀ handle, threads[handle]?.getD [] ≠ [] → session.isAlive handle = true)
    (hseparate : Separate threads)
    (hpeaks : ((session.store.keysWith threads.flatten).map
      (session.store.peak threads.flatten)).sum ≤ session.store.budget)
    {schedule schedule' : Schedule} (hschedule : Interleaves threads schedule)
    (hschedule' : Interleaves threads schedule') (timestamp : String) :
    (∀ handle, ((session.answers timestamp schedule).filter fun x => x.1 = handle)
        = (session.answers timestamp schedule').filter fun x => x.1 = handle)
      ∧ (session.runAll timestamp schedule).1.store.AgreesWith
          (session.runAll timestamp schedule').1.store
      ∧ (session.runAll timestamp schedule).2 = []
      ∧ (session.runAll timestamp schedule').2 = [] := by
  have haccounted : session.store.Accounted :=
    hstore ▸ Store.accounted_after (Store.accounted_new budget defaultTtl) calls hrun.bytes
  have hspacious : session.store.Spacious (session.store.keysWith threads.flatten)
      (session.store.peak threads.flatten) :=
    ⟨session.store.boundedBy_peak _, hpeaks, hbudget, haccounted⟩
  have hadmits {schedule : Schedule} (h : Interleaves threads schedule) :
      ∀ turn ∈ schedule, Store.Admits (session.store.keysWith threads.flatten)
        (session.store.peak threads.flatten) turn.2 :=
    fun turn hturn => session.store.admits_peak (h.mem_flatten hturn)
  have hhandles {schedule : Schedule} (h : Interleaves threads schedule) :
      ∀ turn ∈ schedule, session.isAlive turn.1 = true :=
    fun turn hturn => halive _ (List.ne_nil_of_mem (h.mem hturn))
  obtain ⟨hanswers, hlast, hlog⟩ :=
    follows_runAll hspacious (hadmits hschedule) (hhandles hschedule) timestamp
  obtain ⟨hanswers', hlast', hlog'⟩ :=
    follows_runAll hspacious (hadmits hschedule') (hhandles hschedule') timestamp
  refine ⟨fun handle => ?_, hlast.agrees hlast' hschedule hschedule' hseparate, hlog, hlog'⟩
  rw [hanswers, hanswers', List.filter_map, List.filter_map]
  exact congrArg _ (hschedule.outcomes_filter_congr hschedule' hseparate _ _ _ handle)

/-- Two handles on a cache with one entry: one of them reads it and puts a second key, the other one
    puts a third key and reads it. -/
theorem interleavings_agree_two :
    let calls : List Call := [⟨0, .put "a" ⟨[]⟩ 5⟩]
    let session : Session :=
      { store := (Store.new 8 60).after calls, clock := 3000, handles := [true, true] }
    let first : List KeyCall := [⟨"a", .get⟩, ⟨"b", .put ⟨[]⟩ 0⟩]
    let second : List KeyCall := [⟨"c", .put ⟨[]⟩ 9⟩, ⟨"c", .getWithTtl⟩]
    let together : Schedule :=
      [(0, ⟨"a", .get⟩), (1, ⟨"c", .put ⟨[]⟩ 9⟩), (0, ⟨"b", .put ⟨[]⟩ 0⟩), (1, ⟨"c", .getWithTtl⟩)]
    let apart : Schedule :=
      [(1, ⟨"c", .put ⟨[]⟩ 9⟩), (1, ⟨"c", .getWithTtl⟩), (0, ⟨"a", .get⟩), (0, ⟨"b", .put ⟨[]⟩ 0⟩)]
    Separate [first, second] ∧ Interleaves [first, second] together
      ∧ Interleaves [first, second] apart
      ∧ (session.runAll "" together).1.store.AgreesWith (session.runAll "" apart).1.store := by
  intro calls session first second together apart
  have hrun : (Store.new 8 60).NoOverflow calls := .of_sum_le (by decide) (by decide)
  have hseparate : Separate [first, second] := by
    simp [Separate, first, second]
  have htogether : Interleaves [first, second] together := fun handle => by
    rcases handle with _ | _ | handle <;> rfl
  have hapart : Interleaves [first, second] apart := fun handle => by
    rcases handle with _ | _ | handle <;> rfl
  have halive (handle : Nat) (hcalls : [first, second][handle]?.getD [] ≠ []) :
      session.isAlive handle = true := by
    rcases handle with _ | _ | handle
    · rfl
    · rfl
    · exact absurd rfl hcalls
  obtain ⟨-, hagrees, -, -⟩ := interleavings_agree hrun rfl (by decide) halive hseparate
    (by decide) htogether hapart ""
  exact ⟨hseparate, htogether, hapart, hagrees⟩

end Session

end BoundedCache
