import BoundedCache.Proofs.Scan.Basic
import BoundedCache.Proofs.Scan.Chronology

namespace BoundedCache

/-!
# The tick index refines the scan

`store.scanned` is a store without what it keeps for speed.  As long as its queue stands in the
order of times, the head of the queue is what a scan would find (`Queues.leastRecent?_eq`), so both
caches make room in the same way (`MakesRoom.scanned`).  Everything else that they do agrees
anyway, and `scanned_apply` puts the operations together.  Over a run whose clock does not go back,
`scan_agrees` follows call by call.
-/

namespace Store

/-- What is left of a store without its order of use, its byte count and its noted extent. -/
def scanned (store : Store) : ScanStore :=
  { entries := store.entries
    next := store.recency.next
    statistics := store.statistics.setSize 0
    budget := store.budget
    defaultTtl := store.defaultTtl }

end Store

/-- The same step of the cache without them. -/
def Step.scanned {α : Type} (step : Step α) : ScanStep α :=
  { result := step.result, store := step.store.scanned, events := step.events }

namespace Store

variable {store : Store} {queue : List Row} {key : String} {entry : Entry}

theorem usedBytes_scanned (h : store.Accounted) : store.scanned.usedBytes = store.usedBytes :=
  h.used_eq.symm

theorem snapshot_scanned (h : store.Accounted) : store.scanned.snapshot = store.snapshot := by
  rw [ScanStore.snapshot, usedBytes_scanned h]
  rfl

/-! ### Reads and removals -/

theorem erase_scanned (hnone : store.entries.find? key = none) :
    store.scanned.erase key = store.scanned := by
  rw [ScanStore.erase]
  show { store.scanned with entries := store.entries.erase key } = _
  rw [Table.erase_of_find?_eq_none hnone]
  rfl

theorem scanned_read (store : Store) (now : Nat) (key : String) :
    store.scanned.read now key = (store.read now key).scanned := by
  have hentries : store.scanned.entries = store.entries := rfl
  cases hfind : store.entries.find? key with
  | none =>
    rw [read_of_find?_eq_none now hfind]
    simp only [ScanStore.read, hentries, hfind]
    rfl
  | some entry =>
    by_cases hexpired : entry.expiresAt < now
    · rw [read_of_expired hfind hexpired]
      simp only [ScanStore.read, hentries, hfind, hexpired, if_true]
      rfl
    · rw [read_of_live hfind (by omega)]
      simp only [ScanStore.read, hentries, hfind, hexpired, if_false]
      rfl

theorem scanned_drop (store : Store) (key : String) :
    (store.drop key).scanned = store.scanned.erase key := by
  cases hfind : store.entries.find? key with
  | none =>
    rw [drop_of_find?_eq_none hfind, erase_scanned hfind]
  | some entry =>
    rw [drop_of_find? hfind]
    rfl

theorem scanned_dropAll (store : Store) (keys : List String) :
    (store.dropAll keys).scanned
      = { store.scanned with
          entries := store.entries.filterKeys fun key => !keys.contains key } := by
  rw [← Table.foldl_erase, dropAll]
  induction keys generalizing store with
  | nil => rfl
  | cons key keys ih =>
    have hentries : (store.drop key).entries = store.entries.erase key :=
      congrArg ScanStore.entries (scanned_drop store key)
    rw [List.foldl_cons, ih, scanned_drop, hentries]
    rfl

/-- Every stored key that is expelled counts as one eviction. -/
theorem scanned_foldl_expel {keys : List String} (hnodup : keys.Nodup)
    (hkeys : ∀ key ∈ keys, key ∈ store.entries.keys) :
    (keys.foldl expel store).scanned
      = { store.scanned with
          entries := store.entries.filterKeys fun key => !keys.contains key
          statistics := Statistics.recordEviction^[keys.length] store.scanned.statistics } := by
  rw [← Table.foldl_erase]
  induction keys generalizing store with
  | nil => rfl
  | cons key keys ih =>
    rw [List.nodup_cons] at hnodup
    obtain ⟨entry, hfind⟩ := (Table.mem_keys_iff _ _).1 (hkeys key List.mem_cons_self)
    -- The keys that are left are stored after this one has gone, for they are other keys.
    have hrest : ∀ other ∈ keys, other ∈ (store.expel key).entries.keys := by
      intro other hother
      obtain ⟨found, hfound⟩ :=
        (Table.mem_keys_iff _ _).1 (hkeys other (List.mem_cons_of_mem _ hother))
      have hne : other ≠ key := fun heq => hnodup.1 (heq ▸ hother)
      refine (Table.mem_keys_iff _ _).2 ⟨found, ?_⟩
      rw [find?_expel, if_neg hne, hfound]
    have hexpel := expel_of_find? hfind
    rw [List.foldl_cons, ih hnodup.2 hrest, hexpel]
    rfl

theorem scanned_invalidatePattern (store : Store) (pattern : String) :
    store.scanned.invalidatePattern pattern = (store.invalidatePattern pattern).scanned := by
  rw [invalidatePattern, Step.scanned, scanned_dropAll]
  unfold ScanStore.invalidatePattern
  have hfilter : (store.entries.filterKeys fun key => !Text.contains (Text.lowercase pattern.toList)
        (Text.lowercase key.toList))
      = store.entries.filterKeys fun key => !(store.keysMatching pattern).contains key := by
    refine Table.filterKeys_congr fun key hkey => congrArg _ ?_
    rw [Bool.eq_iff_iff, List.contains_iff_mem, keysMatching, List.mem_filter, and_iff_right hkey]
  show ({ result := _, store := { store.scanned with entries := store.entries.filterKeys _ } } :
    ScanStep Nat) = _
  rw [hfilter]
  rfl

theorem scanned_sweep (store : Store) (now : Nat) :
    store.scanned.sweep now = (store.sweep now).scanned := by
  have hdue : store.keysDue now
      = store.entries.keys.filter fun key => (store.entries.find? key).any (·.isDue now) := by
    rw [keysDue, Table.keys, List.filter_map]
    refine congrArg _ (List.filter_congr fun row hrow => ?_)
    rw [Function.comp_apply, (Table.mem_rows_iff _ _ _).1 hrow, Option.any_some]
  have hnodup : (store.keysDue now).Nodup := hdue ▸ store.entries.nodup.filter _
  have hstored : ∀ key ∈ store.keysDue now, key ∈ store.entries.keys := fun key hkey =>
    (List.mem_filter.1 (hdue ▸ hkey)).1
  have hfilter : (store.entries.filterKeys fun key => !(store.entries.find? key).any (·.isDue now))
      = store.entries.filterKeys fun key => !(store.keysDue now).contains key := by
    refine Table.filterKeys_congr fun key hkey => congrArg _ ?_
    rw [Bool.eq_iff_iff, List.contains_iff_mem, hdue, List.mem_filter, and_iff_right hkey]
  rw [sweep, Step.scanned, scanned_foldl_expel hnodup hstored, ← hfilter, hdue]
  rfl

/-! ### Evictions -/

/-- **The head of the queue is the oldest row**, if the queue stands in the order of times. -/
theorem Queues.leastRecent?_eq {row : Row} {rest : List Row} (h : store.Queues (row :: rest))
    (hordered : (row :: rest).Pairwise fun row later =>
      row.2.lastAccessedAt ≤ later.2.lastAccessedAt) :
    leastRecent? store.entries.rows = some row := by
  refine leastRecent?_eq_some (h.perm.subset List.mem_cons_self) fun other hother hne => ?_
  have hrest : other ∈ rest := (List.mem_cons.1 (h.perm.symm.subset hother)).resolve_left hne
  have htime := (List.pairwise_cons.1 hordered).1 other hrest
  have htick := (List.pairwise_cons.1 h.ascending).1 other hrest
  -- Ticks decide among rows that were used at the same time.
  rcases Nat.lt_or_eq_of_le htime with hlt | heq
  · exact .inl hlt
  · exact .inr ⟨heq, htick⟩

end Store

namespace MakesRoom

open Store

variable {incoming : Nat} {store last : Store} {gone queue : List Row}

/-- **Both caches make room in the same way.** -/
theorem scanned (h : MakesRoom incoming store gone last) (hqueue : store.Queues queue)
    (hordered : queue.Pairwise fun row later => row.2.lastAccessedAt ≤ later.2.lastAccessedAt)
    (haccounted : store.Accounted) (hheld : store.heldBytes ≤ Word.top) {rounds : Nat}
    (hrounds : store.size ≤ rounds) :
    store.scanned.evictRounds incoming rounds
      = { result := gone.length, store := last.scanned
          events := gone.map fun row => .evicted row.1 row.2.size } := by
  -- Round by round: the queue of the next round is the tail of this one.
  induction h generalizing queue rounds with
  | @fits store hfits =>
    have hroom : Word.addSat store.scanned.usedBytes incoming ≤ store.scanned.budget := by
      rw [usedBytes_scanned haccounted]
      exact of_decide_eq_true hfits
    cases rounds with
    | zero => rfl
    | succ rounds => simp only [ScanStore.evictRounds, hroom, if_true]; rfl
  | @exhausted store hfits hempty =>
    have hnone : leastRecent? store.scanned.entries.rows = none :=
      (leastRecent?_eq_none_iff _).2 hempty
    cases rounds with
    | zero => rfl
    | succ rounds => simp only [ScanStore.evictRounds, hnone, ite_self]; rfl
  | @evict store last recency row gone hfits hvictim hfind hrest ih =>
    obtain ⟨rest, rfl, hqueues, hnext⟩ := hqueue.evicting hvictim hfind
    have hfrees := frees_evicting recency hfind
    have hsize := size_evicting recency hfind
    have hover : ¬ Word.addSat store.scanned.usedBytes incoming ≤ store.scanned.budget := by
      rw [usedBytes_scanned haccounted]
      exact of_decide_eq_false hfits
    have holdest : leastRecent? store.scanned.entries.rows = some row :=
      hqueue.leastRecent?_eq hordered
    have hstore : (store.evicting recency row).scanned
        = (store.scanned.erase row.1).countEviction := by
      simp only [Store.scanned, ← hnext]
      rfl
    cases rounds with
    | zero => omega
    | succ rounds =>
      have hrounds' : (store.evicting recency row).size ≤ rounds := by omega
      have hmore := ih hqueues (List.pairwise_cons.1 hordered).2
        (hfrees.accounted hheld haccounted) (Nat.le_trans hfrees.held_le hheld) hrounds'
      rw [hstore] at hmore
      simp only [ScanStore.evictRounds, hover, if_false, holdest, hmore]
      rfl

end MakesRoom

namespace Store

variable {store : Store} {queue : List Row}

theorem scanned_evictUntilFits (hqueue : store.Queues queue)
    (hordered : queue.Pairwise fun row later => row.2.lastAccessedAt ≤ later.2.lastAccessedAt)
    (haccounted : store.Accounted) (hheld : store.heldBytes ≤ Word.top) (incoming : Nat) :
    store.scanned.evictUntilFits incoming = (store.evictUntilFits incoming).scanned := by
  obtain ⟨gone, last, hroom, hevict⟩ := store.evictUntilFits_makesRoom incoming
  rw [hevict]
  exact hroom.scanned hqueue hordered haccounted hheld (Nat.le_refl _)

/-! ### Operations -/

theorem scanned_put (hqueue : store.Queues queue)
    (hordered : queue.Pairwise fun row later => row.2.lastAccessedAt ≤ later.2.lastAccessedAt)
    (haccounted : store.Accounted) (hheld : store.heldBytes ≤ Word.top) (now : Nat) (key : String)
    (value : Json.Payload) (ttl : Int) :
    store.scanned.put now key value ttl = (store.put now key value ttl).scanned := by
  have hfrees := frees_drop store key
  have hroom := scanned_evictUntilFits (hqueue.drop key) (hordered.filter _)
    (hfrees.accounted hheld haccounted) (Nat.le_trans hfrees.held_le hheld) value.size
  rw [scanned_drop] at hroom
  simp only [ScanStore.put, hroom, put_eq]
  rfl

theorem scanned_setBudget (hqueue : store.Queues queue)
    (hordered : queue.Pairwise fun row later => row.2.lastAccessedAt ≤ later.2.lastAccessedAt)
    (haccounted : store.Accounted) (hheld : store.heldBytes ≤ Word.top) (budget : Nat) :
    store.scanned.setBudget budget = (store.setBudget budget).scanned :=
  @scanned_evictUntilFits { store with budget } _ (hqueue.congr rfl rfl) hordered
    (haccounted.congr rfl rfl rfl) hheld 0

theorem accounted_setBudget (haccounted : store.Accounted) (hheld : store.heldBytes ≤ Word.top)
    (budget : Nat) : (store.setBudget budget).store.Accounted := by
  have hfrees : store.Frees (store.setBudget budget).store :=
    frees_apply store 0 (show Operation.putKey? (.setBudget budget) = none from rfl)
  exact hfrees.accounted hheld haccounted

theorem scanned_reconfigure (hqueue : store.Queues queue)
    (hordered : queue.Pairwise fun row later => row.2.lastAccessedAt ≤ later.2.lastAccessedAt)
    (haccounted : store.Accounted) (hheld : store.heldBytes ≤ Word.top)
    (budget defaultTtl : Option Nat) :
    store.scanned.reconfigure budget defaultTtl
      = (store.reconfigure budget defaultTtl).scanned := by
  unfold ScanStore.reconfigure
  cases budget with
  | none =>
    have hused := usedBytes_scanned haccounted
    show ScanStep.mk (Limits.mk _ _ store.scanned.usedBytes _) _ _ = _
    rw [hused]
    rfl
  | some budget =>
    have hused := usedBytes_scanned (accounted_setBudget haccounted hheld budget)
    simp only [scanned_setBudget hqueue hordered haccounted hheld]
    show ScanStep.mk (Limits.mk _ _ (store.setBudget budget).store.scanned.usedBytes _) _ _ = _
    rw [hused]
    rfl

theorem scanned_resetStatistics (haccounted : store.Accounted) :
    store.scanned.resetStatistics = store.resetStatistics.scanned := by
  let reset : Store := { store with statistics := store.statistics.resetCounters }
  have hsnapshot : reset.scanned.snapshot = reset.snapshot :=
    snapshot_scanned (haccounted.congr rfl rfl rfl)
  show ScanStep.mk reset.scanned.snapshot reset.scanned [] = _
  rw [hsnapshot]
  rfl

/-- **One call**: the cache with a tick index does what the cache that scans does. -/
theorem scanned_apply (hqueue : store.Queues queue)
    (hordered : queue.Pairwise fun row later => row.2.lastAccessedAt ≤ later.2.lastAccessedAt)
    (haccounted : store.Accounted) (hheld : store.heldBytes ≤ Word.top) (now : Nat)
    (operation : Operation) :
    store.scanned.apply now operation = (store.apply now operation).scanned := by
  cases operation with
  | get key => simp only [ScanStore.apply, scanned_read]; rfl
  | getWithTtl key => simp only [ScanStore.apply, scanned_read]; rfl
  | put key value ttl =>
    simp only [ScanStore.apply, scanned_put hqueue hordered haccounted hheld]; rfl
  | invalidate key =>
    simp only [apply, Step.map, Step.scanned, invalidate, scanned_drop]
    rfl
  | invalidatePattern pattern => simp only [ScanStore.apply, scanned_invalidatePattern]; rfl
  | clear => rfl
  | setBudget bytes =>
    simp only [ScanStore.apply, scanned_setBudget hqueue hordered haccounted hheld]; rfl
  | setBudgetMegabytes megabytes =>
    simp only [ScanStore.apply, scanned_setBudget hqueue hordered haccounted hheld]; rfl
  | setDefaultTtl seconds => rfl
  | reconfigure budget defaultTtl =>
    simp only [ScanStore.apply, scanned_reconfigure hqueue hordered haccounted hheld]; rfl
  | sweep => simp only [ScanStore.apply, scanned_sweep]; rfl
  | statistics =>
    simp only [ScanStore.apply, snapshot_scanned haccounted]; rfl
  | resetStatistics => simp only [ScanStore.apply, scanned_resetStatistics haccounted]; rfl
  | isEmpty => rfl
  | hitCount key => rfl

end Store

/-! ### Runs -/

/-- The replies to some calls, each with the events of the call. -/
def Store.transcript (store : Store) : List Call → List (Reply × List Event)
  | [] => []
  | call :: calls => ((store.call call).result, (store.call call).events)
      :: (store.call call).store.transcript calls

namespace ScanStore

/-- The cache after some calls. -/
def after (store : ScanStore) : List Call → ScanStore
  | [] => store
  | call :: calls => (store.apply call.now call.operation).store.after calls

/-- The replies to some calls, each with the events of the call. -/
def transcript (store : ScanStore) : List Call → List (Reply × List Event)
  | [] => []
  | call :: calls =>
    let step := store.apply call.now call.operation
    (step.result, step.events) :: step.store.transcript calls

theorem after_concat (store : ScanStore) (calls : List Call) (call : Call) :
    store.after (calls ++ [call])
      = ((store.after calls).apply call.now call.operation).store := by
  induction calls generalizing store with
  | nil => rfl
  | cons first calls ih => exact ih _

theorem transcript_concat (store : ScanStore) (calls : List Call) (call : Call) :
    store.transcript (calls ++ [call]) = store.transcript calls
      ++ [(((store.after calls).apply call.now call.operation).result,
        ((store.after calls).apply call.now call.operation).events)] := by
  induction calls generalizing store with
  | nil => rfl
  | cons first calls ih => exact congrArg _ (ih _)

end ScanStore

namespace Store

theorem transcript_concat (store : Store) (calls : List Call) (call : Call) :
    store.transcript (calls ++ [call]) = store.transcript calls
      ++ [(((store.after calls).call call).result, ((store.after calls).call call).events)] := by
  induction calls generalizing store with
  | nil => rfl
  | cons first calls ih => exact congrArg _ (ih _)

/-- Both caches stay in step along a run. -/
theorem scanned_after (budget defaultTtl : Nat) {calls : List Call}
    (hclock : calls.Pairwise fun call later => call.now ≤ later.now)
    (hfits : (Store.new budget defaultTtl).NoOverflow calls) :
    ((Store.new budget defaultTtl).after calls).scanned
        = (ScanStore.new budget defaultTtl).after calls
      ∧ (Store.new budget defaultTtl).transcript calls
        = (ScanStore.new budget defaultTtl).transcript calls := by
  induction calls using List.reverseRecOn with
  | nil => exact ⟨rfl, rfl⟩
  | append_singleton calls call ih =>
    have hcalls : calls.Pairwise fun call later => call.now ≤ later.now :=
      (List.pairwise_append.1 hclock).1
    have hbefore := hfits.of_append
    obtain ⟨hstore, htranscript⟩ := ih hcalls hbefore
    obtain ⟨queue, hqueue⟩ := exists_tracked budget defaultTtl calls hbefore.ticks
    have hnow : ∀ other ∈ calls, other.now ≤ call.now := fun other hother =>
      (List.pairwise_append.1 hclock).2.2 other hother call (List.mem_singleton_self _)
    have hchron := chronological_lineup budget defaultTtl hcalls hbefore.ticks hnow
    rw [hqueue.lineup_eq] at hchron
    have haccounted := accounted_after (accounted_new budget defaultTtl) calls hbefore.bytes
    have hstep := scanned_apply hqueue.queues hchron.ordered haccounted
      (hbefore.bytes calls (List.prefix_refl _)) call.now call.operation
    rw [hstore] at hstep
    rw [after_concat, ScanStore.after_concat, transcript_concat, ScanStore.transcript_concat,
      htranscript, hstep]
    exact ⟨rfl, rfl⟩

/-- **The tick index finds the victims of the scan.**  In a run of a fresh store whose clock does
    not go back, the cache with a tick index and the cache that scans all entries for the least
    pair of time and tick give the same replies and report the same evictions in the same order, and
    they end with the same entries and the same bytes in use. -/
theorem scan_agrees (budget defaultTtl : Nat) (calls : List Call)
    (hclock : calls.Pairwise fun call later => call.now ≤ later.now)
    (hfits : (Store.new budget defaultTtl).NoOverflow calls) :
    (Store.new budget defaultTtl).transcript calls
        = (ScanStore.new budget defaultTtl).transcript calls
      ∧ ((Store.new budget defaultTtl).after calls).scanned
        = (ScanStore.new budget defaultTtl).after calls
      ∧ ((Store.new budget defaultTtl).after calls).usedBytes
        = ((ScanStore.new budget defaultTtl).after calls).usedBytes := by
  obtain ⟨hstore, htranscript⟩ := scanned_after budget defaultTtl hclock hfits
  have haccounted := accounted_after (accounted_new budget defaultTtl) calls hfits.bytes
  refine ⟨htranscript, hstore, ?_⟩
  rw [← hstore, usedBytes_scanned haccounted]

/-- Three puts and a read at one millisecond: only the tick tells that the read row is the most
    recently used one, and a put takes the two others. -/
theorem scan_agrees_same_instant :
    let calls : List Call :=
      [⟨7, .put "a" ⟨[]⟩ 5⟩, ⟨7, .put "b" ⟨[]⟩ 5⟩, ⟨7, .put "c" ⟨[]⟩ 5⟩, ⟨7, .get "a"⟩,
        ⟨7, .setBudget 5⟩, ⟨9, .put "d" ⟨[]⟩ 5⟩]
    (calls.Pairwise fun call later => call.now ≤ later.now)
      ∧ (Store.new 7 60).NoOverflow calls
      ∧ (Store.new 7 60).events calls = [.evicted "b" 2, .evicted "c" 2]
      ∧ (Store.new 7 60).transcript calls = (ScanStore.new 7 60).transcript calls := by
  intro calls
  have hclock : calls.Pairwise fun call later => call.now ≤ later.now := by decide
  have hfits : (Store.new 7 60).NoOverflow calls := .of_sum_le (by decide) (by decide)
  exact ⟨hclock, hfits, by decide +kernel, (scan_agrees 7 60 calls hclock hfits).1⟩

end Store

end BoundedCache
