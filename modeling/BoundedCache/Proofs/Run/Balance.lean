import BoundedCache.Proofs.Run.Sound
import BoundedCache.Proofs.Run.Tally
import Mathlib.Order.Bounds.Basic

namespace BoundedCache

/-!
# The statistics of a run

The statistics of a store are what the calls of its run count.  `Store.Balanced` collects what they
say, and `Session.balanced_afterAll` proves it of whatever happens to a session with a fresh cache:

* the counters are the totals since the last reset (`SinceReset`, `Counts`);
* every payload that was put is stored, or it left in exactly one way;
* the hits of an entry are the reads that found its key since its put;
* the largest extent is that of all moments so far.

The counters are words, so a counter is the total as long as the total is one; the other facts hold
of runs of any length.
-/

/-- A run in two parts: up to its last reset, which may not have been, and since then. -/
structure SinceReset (calls earlier later : List Call) : Prop where
  calls_eq : calls = earlier ++ later
  at_reset : earlier = [] ∨ ∃ before now, earlier = before ++ [⟨now, .resetStatistics⟩]
  no_reset : ∀ call ∈ later, call.operation ≠ .resetStatistics

theorem exists_sinceReset (calls : List Call) :
    ∃ earlier later, SinceReset calls earlier later := by
  induction calls using List.reverseRecOn with
  | nil => exact ⟨[], [], rfl, .inl rfl, fun _ hcall => absurd hcall List.not_mem_nil⟩
  | append_singleton calls call ih =>
    by_cases hreset : call.operation = .resetStatistics
    · refine ⟨calls ++ [call], [], (List.append_nil _).symm, .inr ⟨calls, call.now, ?_⟩,
        fun _ hcall => absurd hcall List.not_mem_nil⟩
      rw [← hreset]
    · obtain ⟨earlier, later, rfl, hearlier, hlater⟩ := ih
      refine ⟨earlier, later ++ [call], List.append_assoc _ _ _, hearlier, fun other hother => ?_⟩
      rcases List.mem_append.1 hother with hother | hother
      · exact hlater other hother
      · rwa [List.mem_singleton.1 hother]

namespace Store

/-- The counters of a store are what some calls count, made on the store `since`. -/
structure Counts (store since : Store) (calls : List Call) : Prop where
  hits_eq : since.total Count.hits calls ≤ Word.top →
    store.snapshot.hits = since.total Count.hits calls
  misses_eq : since.total Count.misses calls ≤ Word.top →
    store.snapshot.misses = since.total Count.misses calls
  /-- Entries that go for the budget, to a sweep or to a read count, and no others. -/
  evictions_eq :
    since.total Count.lostToBudget calls + since.total Count.lostToSweep calls
      + since.total Count.lostToRead calls ≤ Word.top →
    store.snapshot.evictions
      = since.total Count.lostToBudget calls + since.total Count.lostToSweep calls
        + since.total Count.lostToRead calls

/-- The latest put of a key stands in a run, and `n` of the reads since then have found the key. -/
def HitsSincePut (start : Store) (calls : List Call) (key : String) (n : Nat) : Prop :=
  ∃ earlier now value ttl later, calls = earlier ++ ⟨now, .put key value ttl⟩ :: later
    ∧ (∀ call ∈ later, call.operation.putKey? ≠ some key)
    ∧ let since := start.after (earlier ++ [⟨now, .put key value ttl⟩])
      since.total (Count.hitsOf key) later ≤ Word.top → n = since.total (Count.hitsOf key) later

/-- What the statistics of a store say about the run that has led to it. -/
structure Balanced (start : Store) (calls : List Call) (store : Store) : Prop where
  /-- The counters tell of the calls since the last reset. -/
  counts : ∃ earlier later, SinceReset calls earlier later
    ∧ store.Counts (start.after earlier) later
  /-- Without a reset, every put is accounted for. -/
  puts_eq : (∀ call ∈ calls, call.operation ≠ .resetStatistics) →
    start.total Count.lostToBudget calls + start.total Count.lostToSweep calls
      + start.total Count.lostToRead calls ≤ Word.top →
    start.total Count.puts calls
      = store.size + store.snapshot.evictions + start.total Count.replaced calls
        + start.total Count.invalidated calls + start.total Count.matched calls
        + start.total Count.cleared calls
  /-- The hits of a stored key are the reads that found it since its latest put. -/
  hits_of : ∀ key n, store.hitCount? key = some n → start.HitsSincePut calls key n
  /-- The largest extent is the greatest of all moments so far. -/
  largest : IsGreatest {n | ∃ earlier, earlier <+: calls ∧ (start.after earlier).size = n}
    store.snapshot.maxSizeObserved
  /-- Only a put may change it: a reset and a clearing, among others, do not. -/
  largest_kept : ∀ now operation, Operation.putKey? operation = none →
    (store.apply now operation).store.snapshot.maxSizeObserved = store.snapshot.maxSizeObserved

end Store

/-! ### Counters -/

namespace SinceReset

open Store

variable {calls earlier later : List Call}

/-- At the start and after a reset, the counters are 0. -/
theorem counters_eq_zero (h : SinceReset calls earlier later) (budget defaultTtl : Nat) :
    ((Store.new budget defaultTtl).after earlier).statistics.hits = 0
      ∧ ((Store.new budget defaultTtl).after earlier).statistics.misses = 0
      ∧ ((Store.new budget defaultTtl).after earlier).statistics.evictions = 0 := by
  rcases h.at_reset with rfl | ⟨before, now, rfl⟩
  · exact ⟨rfl, rfl, rfl⟩
  · rw [after_concat]
    exact ⟨rfl, rfl, rfl⟩

/-- **The counters count the calls since the last reset.** -/
theorem counts (h : SinceReset calls earlier later) (budget defaultTtl : Nat) :
    ((Store.new budget defaultTtl).after calls).Counts
      ((Store.new budget defaultTtl).after earlier) later := by
  obtain ⟨hhits, hmisses, hevictions⟩ := h.counters_eq_zero budget defaultTtl
  obtain ⟨rfl, -, hlater⟩ := h
  rw [after_append]
  generalize (Store.new budget defaultTtl).after earlier = since at hhits hmisses hevictions ⊢
  refine ⟨fun htop => ?_, fun htop => ?_, fun htop => ?_⟩
  · have hcount := counter_after hits_call hlater (by rw [hhits, Nat.zero_add]; exact htop)
    rwa [hhits, Nat.zero_add] at hcount
  · have hcount := counter_after misses_call hlater (by rw [hmisses, Nat.zero_add]; exact htop)
    rwa [hmisses, Nat.zero_add] at hcount
  · rw [← total_add, ← total_add] at htop ⊢
    have hcount := counter_after evictions_call hlater
      (by rw [hevictions, Nat.zero_add]; exact htop)
    rwa [hevictions, Nat.zero_add] at hcount

end SinceReset

namespace Store

variable {start store : Store} {calls : List Call} {call : Call} {key : String} {n : Nat}

/-! ### Hits of an entry -/

/-- A call that is no put of the key continues the history of the key. -/
theorem HitsSincePut.concat (h : start.HitsSincePut calls key n)
    (hput : call.operation.putKey? ≠ some key) {n' : Nat}
    (hnext : n + Count.hitsOf key (start.after calls) call ≤ Word.top →
      n' = n + Count.hitsOf key (start.after calls) call) :
    start.HitsSincePut (calls ++ [call]) key n' := by
  obtain ⟨earlier, now, value, ttl, later, rfl, hlater, hreads⟩ := h
  refine ⟨earlier, now, value, ttl, later ++ [call], by simp, fun other hother => ?_, ?_⟩
  · rcases List.mem_append.1 hother with hother | hother
    · exact hlater other hother
    · rwa [List.mem_singleton.1 hother]
  · intro since htop
    have hafter : start.after (earlier ++ ⟨now, .put key value ttl⟩ :: later)
        = since.after later := by
      rw [← after_append, List.append_assoc, List.singleton_append]
    rw [hafter] at hnext
    rw [total_concat] at htop ⊢
    have hn := hreads (Nat.le_trans (Nat.le_add_right _ _) htop)
    rw [hn] at hnext
    exact hnext htop

/-- **An entry counts the reads that find it**, from its put on. -/
theorem hitsSincePut_after (budget defaultTtl : Nat) {entry : Entry}
    (hfind : ((Store.new budget defaultTtl).after calls).entries.find? key = some entry) :
    (Store.new budget defaultTtl).HitsSincePut calls key entry.hitCount := by
  induction calls using List.reverseRecOn generalizing entry with
  | nil => simp [Store.new, after] at hfind
  | append_singleton calls call ih =>
    rw [after_concat] at hfind
    have hdescends : ((Store.new budget defaultTtl).after calls).Descends call.now call.operation
        key entry := descends_apply hfind
    cases hdescends with
    | kept hbefore hput hfound =>
      refine (ih hbefore).concat hput fun _ => ?_
      rw [Count.hitsOf, Store.call, if_neg hfound, Nat.add_zero]
    | touched hbefore hput hfound =>
      refine (ih hbefore).concat hput fun htop => ?_
      rw [Count.hitsOf, Store.call, if_pos hfound] at htop ⊢
      exact Word.addWrap_eq_add htop
    | @filed value ttl lifetime tick hput =>
      obtain ⟨now, operation⟩ := call
      obtain rfl : operation = .put key value ttl := hput
      exact ⟨calls, now, value, ttl, [], rfl, fun _ hcall => absurd hcall List.not_mem_nil,
        fun _ => rfl⟩

/-! ### The largest extent -/

/-- Only a put may change the largest extent. -/
theorem maxSizeObserved_apply (store : Store) (now : Nat) {operation : Operation}
    (hput : operation.putKey? = none) :
    (store.apply now operation).store.statistics.maxSizeObserved
      = store.statistics.maxSizeObserved := by
  by_cases hreset : operation = .resetStatistics
  · rw [hreset]
    rfl
  · have hrecord := congrArg (·.2.2) (record_apply store now hreset)
    rw [hput] at hrecord
    exact hrecord

theorem size_apply_le (store : Store) (now : Nat) {operation : Operation}
    (hput : operation.putKey? = none) : (store.apply now operation).store.size ≤ store.size := by
  have hextent := store.length_lost_add_size now operation
  rw [hput] at hextent
  simp only [Option.toList_none, List.filter_nil, List.length_nil, Nat.add_zero] at hextent
  omega

/-- A call takes its own extent into account, and no other one. -/
theorem maxSizeObserved_call (store : Store) (call : Call)
    (hle : store.size ≤ store.statistics.maxSizeObserved) :
    (store.call call).store.statistics.maxSizeObserved
      = max (store.call call).store.size store.statistics.maxSizeObserved := by
  cases hput : call.operation.putKey? with
  | none =>
    have hsize := size_apply_le store call.now hput
    rw [Store.call, maxSizeObserved_apply store call.now hput, max_eq_right (hsize.trans hle)]
  | some key =>
    have hreset : call.operation ≠ .resetStatistics := by
      rintro hreset
      rw [hreset] at hput
      exact Option.some_ne_none _ hput.symm
    have hrecord := congrArg (·.2.2) (record_apply store call.now hreset)
    rw [hput] at hrecord
    exact hrecord.trans (max_comm _ _)

/-- **The largest extent of a run.** -/
theorem isGreatest_after (budget defaultTtl : Nat) (calls : List Call) :
    IsGreatest {n | ∃ earlier, earlier <+: calls
        ∧ ((Store.new budget defaultTtl).after earlier).size = n}
      ((Store.new budget defaultTtl).after calls).statistics.maxSizeObserved := by
  induction calls using List.reverseRecOn with
  | nil =>
    refine ⟨⟨[], List.prefix_refl _, rfl⟩, ?_⟩
    rintro n ⟨earlier, hearlier, rfl⟩
    rw [List.prefix_nil.1 hearlier]
    exact Nat.le_refl 0
  | append_singleton calls call ih =>
    have hle := ih.2 ⟨calls, List.prefix_refl _, rfl⟩
    -- The last call brings one more moment.
    have hset : {n | ∃ earlier, earlier <+: calls ++ [call]
          ∧ ((Store.new budget defaultTtl).after earlier).size = n}
        = insert ((Store.new budget defaultTtl).after (calls ++ [call])).size
          {n | ∃ earlier, earlier <+: calls
            ∧ ((Store.new budget defaultTtl).after earlier).size = n} := by
      ext n
      simp only [List.prefix_concat_iff, Set.mem_ofPred_eq, Set.mem_insert_iff, or_and_right,
        exists_or, exists_eq_left]
      exact or_congr_left eq_comm
    rw [hset, after_concat, maxSizeObserved_call _ call hle]
    exact ih.insert _

/-! ### Runs -/

/-- **The statistics of a run are what its calls count.** -/
theorem balanced_after (budget defaultTtl : Nat) (calls : List Call) :
    (Store.new budget defaultTtl).Balanced calls ((Store.new budget defaultTtl).after calls) where
  counts := by
    obtain ⟨earlier, later, hsince⟩ := exists_sinceReset calls
    exact ⟨earlier, later, hsince, hsince.counts budget defaultTtl⟩
  puts_eq := by
    intro hreset htop
    have hsince : SinceReset calls [] calls := ⟨rfl, .inl rfl, hreset⟩
    have hevictions := (hsince.counts budget defaultTtl).evictions_eq htop
    have hputs := puts_after (Store.new budget defaultTtl) calls
    have hfresh : (Store.new budget defaultTtl).size = 0 := rfl
    rw [hfresh, Nat.add_zero] at hputs
    rw [hevictions]
    exact hputs
  hits_of := by
    intro key n hn
    obtain ⟨entry, hfind, rfl⟩ := Option.map_eq_some_iff.1 hn
    exact hitsSincePut_after budget defaultTtl hfind
  largest := isGreatest_after budget defaultTtl calls
  largest_kept := fun now operation hput => maxSizeObserved_apply _ now hput

end Store

/-! ### Sessions -/

namespace Session

/-- **Whatever happens to a session with a fresh cache, its statistics are what was counted**:
    through any handles, requests and sweepers, in any order and at any clock readings. -/
theorem balanced_afterAll (session : Session) (budget defaultTtl : Nat)
    (incidents : List Incident) :
    (Store.new budget defaultTtl).Balanced ((session.withFresh budget defaultTtl).trace incidents)
      ((session.withFresh budget defaultTtl).afterAll incidents).store := by
  rw [store_afterAll]
  exact Store.balanced_after budget defaultTtl _

/-- After a reset, one entry goes for the budget, one to an expired read and one to a sweeper. -/
theorem balanced_afterAll_reset :
    let session : Session := { store := .standard, clock := 0, sweepers := [.spawn 0 10] }
    let incidents : List Incident :=
      [⟨0, .action "" (.operate 0 (.put "a" ⟨[]⟩ 1))⟩,
        ⟨0, .action "" (.operate 0 (.put "b" ⟨[]⟩ 5))⟩,
        ⟨1, .action "" (.operate 0 (.get "a"))⟩,
        ⟨2, .action "" (.send 0 { method := "POST", path := "/stats/reset" })⟩,
        ⟨3, .action "" (.operate 0 (.put "c" ⟨[]⟩ 5))⟩,
        ⟨2000, .action "" (.operate 0 (.getWithTtl "a"))⟩,
        ⟨2001, .action "" (.operate 0 (.get "c"))⟩,
        ⟨9000, .tick 0⟩]
    let store := ((session.withFresh 5 60).afterAll incidents).store
    (Store.new 5 60).Balanced ((session.withFresh 5 60).trace incidents) store
      ∧ store.snapshot
        = { hits := 1, misses := 1, evictions := 3, maxSizeObserved := 2, maxSizeBytes := 5 } := by
  intro session incidents store
  exact ⟨balanced_afterAll session 5 60 incidents, by decide +kernel⟩

end Session

end BoundedCache
