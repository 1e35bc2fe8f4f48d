import BoundedCache.Proofs.Run.Queue
import BoundedCache.Proofs.Run.Tally
import BoundedCache.Proofs.Stock.Refinement

namespace BoundedCache

/-!
# What the future depends on

Two stores with the same stock act alike from then on, whatever their ticks, their counters and the
order of their tables are (`Store.ActsLike`).  `acts_by_stock` says so of all stores that a cache
can come to (`Store.Reachable`), and that a cache from which everything was dropped acts like a
fresh one.

The runs are those in which neither ticks nor byte counts overflow: `store.Affords call` for a call,
`store.AffordsAll calls` for all calls of a run.
-/

/-! ### Tallies of counters -/

/-- Whether counters stay words when some more is counted. -/
def Tally.Fits (tally more : Tally) : Prop :=
  tally.hits + more.hits ≤ Word.top ∧ tally.misses + more.misses ≤ Word.top
    ∧ tally.evictions + more.evictions ≤ Word.top

/-- Two tallies together. -/
def Tally.plus (tally more : Tally) : Tally :=
  { hits := tally.hits + more.hits, misses := tally.misses + more.misses
    evictions := tally.evictions + more.evictions }

/-- Entries that go and are not withdrawn. -/
def Count.evicted (store : Store) (call : Call) : Nat :=
  if call.operation.isWithdrawal then 0 else Count.lost store call

namespace Store

/-- What some calls count, read off their replies and off the entries that go. -/
def counted (store : Store) (calls : List Call) : Tally :=
  { hits := store.total Count.hits calls, misses := store.total Count.misses calls
    evictions := store.total Count.evicted calls }

/-- Without a reset, the counters grow by what the calls count. -/
theorem tally_after {store : Store} {calls : List Call}
    (hreset : ∀ call ∈ calls, call.operation ≠ .resetStatistics)
    (hfits : store.tally.Fits (store.counted calls)) :
    (store.after calls).tally = store.tally.plus (store.counted calls) := by
  obtain ⟨hhits, hmisses, hevictions⟩ := hfits
  have hevicted (store : Store) (call : Call) (hreset : call.operation ≠ .resetStatistics) :
      store.statistics.evictions + Count.evicted store call ≤ Word.top →
      (store.call call).store.statistics.evictions
        = store.statistics.evictions + Count.evicted store call :=
    store.evictions_apply call.now hreset
  exact Tally.ext (counter_after hits_call hreset hhits) (counter_after misses_call hreset hmisses)
    (counter_after hevicted hreset hevictions)

/-! ### Runs without overflow -/

/-- Whether a call leaves ticks and bytes within a word. -/
structure Affords (store : Store) (call : Call) : Prop where
  ticks : store.recency.next
    + (call.operation.usedKey? (store.call call).result).toList.length ≤ Word.top
  bytes : (store.call call).store.heldBytes ≤ Word.top

/-- Whether all calls of a run do. -/
def AffordsAll (store : Store) : List Call → Prop
  | [] => True
  | call :: calls => store.Affords call ∧ (store.call call).store.AffordsAll calls

/-- The stores that a fresh one can come to.  A table may be reordered at any time. -/
inductive Reachable : Store → Prop
  | new (budget defaultTtl : Nat) : Reachable (.new budget defaultTtl)
  | call {store : Store} {call : Call} (h : Reachable store) (haffords : store.Affords call) :
      Reachable (store.call call).store
  | reorder {store : Store} {entries : Table Entry} (h : Reachable store)
      (hrows : entries.rows.Perm store.entries.rows) : Reachable { store with entries }

/-- The replies and the events of some calls, without the counters in them. -/
def history (store : Store) : List Call → List (Reply × List Event)
  | [] => []
  | call :: calls => ((store.call call).result.withoutCounters, (store.call call).events)
      :: (store.call call).store.history calls

/-- **Two stores act alike** in a run. -/
structure ActsLike (store other : Store) (calls : List Call) : Prop where
  /-- They give the same replies and report the same. -/
  history_eq : store.history calls = other.history calls
  /-- They keep the same stock. -/
  stock_eq : ∀ earlier, earlier <+: calls →
    (store.after earlier).stock = (other.after earlier).stock
  /-- They count the same, so from one reset to the next their counters differ by constants. -/
  tally_eq : ∀ earlier later, earlier ++ later <+: calls →
    (∀ call ∈ later, call.operation ≠ .resetStatistics) →
    let more := (store.after earlier).counted later
    (other.after earlier).counted later = more
      ∧ ((store.after earlier).tally.Fits more →
        (store.after (earlier ++ later)).tally = (store.after earlier).tally.plus more)
      ∧ ((other.after earlier).tally.Fits more →
        (other.after (earlier ++ later)).tally = (other.after earlier).tally.plus more)
  /-- A reset makes their counters the same. -/
  reset_eq : ∀ earlier now, earlier ++ [⟨now, .resetStatistics⟩] <+: calls →
    (store.after (earlier ++ [⟨now, .resetStatistics⟩])).tally
      = (other.after (earlier ++ [⟨now, .resetStatistics⟩])).tally

/-! ### Regular stores -/

variable {store : Store} {queue : List Row}

theorem Queues.heldBytes_eq (h : store.Queues queue) :
    store.heldBytes = Stock.bytes store.stock.rows := by
  rw [h.rows_eq, bytes_content, h.totalSize_eq]

theorem Queues.size_eq (h : store.Queues queue) : store.size = store.stock.rows.length := by
  rw [h.rows_eq, List.length_map, h.length_eq]

theorem Queues.contains_eq (h : store.Queues queue) (key : String) :
    store.entries.contains key = (store.stock.held? key).isSome := by
  rw [h.held?_eq, holding?, Option.isSome_map, Table.contains]

/-- The next tick after a call. -/
theorem Regular.next_call (h : store.Regular queue) {call : Call}
    (haffords : store.Affords call) : (store.call call).store.recency.next = store.recency.next
      + (call.operation.usedKey? (store.call call).result).toList.length := by
  obtain ⟨kept, newest, hadvance⟩ := h.queues.apply h.ahead call.now call.operation
  have hticks := haffords.ticks
  rw [Store.call] at hticks ⊢
  rw [hadvance.next_eq]
  cases hused : call.operation.usedKey? (store.apply call.now call.operation).result with
  | none => rfl
  | some key =>
    rw [hused] at hticks
    exact Word.addWrap_eq_add hticks

theorem Regular.call (h : store.Regular queue) {call : Call} (haffords : store.Affords call) :
    ∃ queue', (store.call call).store.Regular queue' := by
  obtain ⟨kept, newest, hadvance⟩ := h.queues.apply h.ahead call.now call.operation
  exact ⟨kept ++ newest, hadvance.queues, hadvance.ahead h.queues h.ahead (h.next_call haffords),
    accounted_apply h.accounted h.held_le call.now call.operation haffords.bytes, haffords.bytes⟩

theorem Regular.new (budget defaultTtl : Nat) : (Store.new budget defaultTtl).Regular [] where
  queues := queues_new budget defaultTtl
  ahead := fun _ hrow => absurd hrow List.not_mem_nil
  accounted := accounted_new budget defaultTtl
  held_le := Nat.zero_le _

theorem Regular.reorder (h : store.Regular queue) {entries : Table Entry}
    (hrows : entries.rows.Perm store.entries.rows) : { store with entries }.Regular queue := by
  have hfind (key : String) : entries.find? key = store.entries.find? key := by
    ext entry
    rw [← Table.mem_rows_iff, ← Table.mem_rows_iff, hrows.mem_iff]
  have hheld : ({ store with entries } : Store).heldBytes = store.heldBytes := totalSize_perm hrows
  refine ⟨⟨fun key entry => ?_, h.queues.order_eq, h.queues.ascending⟩, h.ahead,
    ⟨?_, fun key entry hentry => ?_, ?_⟩, ?_⟩
  · rw [h.queues.mem_iff]
    show _ ↔ entries.find? key = _
    rw [hfind]
  · rw [hheld]
    exact h.accounted.used_eq
  · exact h.accounted.size_eq key entry ((hfind key).symm.trans hentry)
  · exact h.accounted.extent_eq.trans hrows.length_eq.symm
  · rw [hheld]
    exact h.held_le

/-- **Every store that a cache can come to is regular**, and has a tick to draw. -/
theorem Reachable.exists_regular (h : store.Reachable) :
    (∃ queue, store.Regular queue) ∧ 1 ≤ store.recency.next
      ∧ store.recency.next ≤ Word.top := by
  induction h with
  | new budget defaultTtl =>
    exact ⟨⟨[], .new budget defaultTtl⟩, Nat.le_refl 1, show 1 ≤ Word.top by decide⟩
  | call h haffords ih =>
    obtain ⟨⟨queue, hqueue⟩, hpos, -⟩ := ih
    have hnext := hqueue.next_call haffords
    have hticks := haffords.ticks
    exact ⟨hqueue.call haffords, by omega, by omega⟩
  | reorder h hrows ih =>
    obtain ⟨⟨queue, hqueue⟩, hnext⟩ := ih
    exact ⟨⟨queue, hqueue.reorder hrows⟩, hnext⟩

/-! The bytes of such a store are accounted for, and they fit a word. -/

theorem Reachable.accounted (h : store.Reachable) : store.Accounted := by
  obtain ⟨⟨queue, hqueue⟩, -⟩ := h.exists_regular
  exact hqueue.accounted

theorem Reachable.held_le (h : store.Reachable) : store.heldBytes ≤ Word.top := by
  obtain ⟨⟨queue, hqueue⟩, -⟩ := h.exists_regular
  exact hqueue.held_le

theorem Reachable.usedBytes_le (h : store.Reachable) : store.usedBytes ≤ Word.top := by
  rw [h.accounted.used_eq]
  exact h.held_le

/-! ### Runs of a fresh store -/

theorem affords_after {budget defaultTtl : Nat} {calls : List Call} {call : Call}
    (h : (Store.new budget defaultTtl).NoOverflow (calls ++ [call])) :
    ((Store.new budget defaultTtl).after calls).Affords call := by
  obtain ⟨queue, hqueue⟩ := exists_tracked budget defaultTtl calls h.of_append.ticks
  have hticks := h.ticks
  have hbytes := h.bytes _ (List.prefix_refl _)
  rw [usedKeys_concat, List.length_append] at hticks
  rw [after_concat] at hbytes
  exact ⟨by rw [hqueue.next_eq]; omega, hbytes⟩

/-- A run without overflow leads to a store that a cache can come to. -/
theorem reachable_after {budget defaultTtl : Nat} {calls : List Call}
    (h : (Store.new budget defaultTtl).NoOverflow calls) :
    ((Store.new budget defaultTtl).after calls).Reachable := by
  induction calls using List.reverseRecOn with
  | nil => exact .new budget defaultTtl
  | append_singleton calls call ih =>
    rw [after_concat]
    exact (ih h.of_append).call (affords_after h)

/-- The rest of a run without overflow is afforded. -/
theorem affordsAll_after {budget defaultTtl : Nat} {calls more : List Call}
    (h : (Store.new budget defaultTtl).NoOverflow (calls ++ more)) :
    ((Store.new budget defaultTtl).after calls).AffordsAll more := by
  induction more generalizing calls with
  | nil => trivial
  | cons call more ih =>
    rw [List.append_cons] at h
    have hrest := ih h
    rw [after_concat] at hrest
    exact ⟨affords_after h.of_append, hrest⟩

end Store

/-! ### Counters show in statistics only -/

theorem Reply.usedKey?_withoutCounters (operation : Operation) (reply : Reply) :
    operation.usedKey? reply.withoutCounters = operation.usedKey? reply := by
  cases reply <;> cases operation <;> rfl

theorem Reply.foundKey?_withoutCounters (operation : Operation) (reply : Reply) :
    operation.foundKey? reply.withoutCounters = operation.foundKey? reply := by
  cases reply <;> cases operation <;> rfl

theorem Reply.missedKey?_withoutCounters (operation : Operation) (reply : Reply) :
    operation.missedKey? reply.withoutCounters = operation.missedKey? reply := by
  cases reply <;> cases operation <;> rfl

namespace Store

variable {store other : Store} {queue queue' : List Row} {call : Call} {calls : List Call}

/-! ### One call -/

/-- A call on two stores with the same stock. -/
structure Agrees (store other : Store) (call : Call) : Prop where
  result_eq : (store.call call).result.withoutCounters = (other.call call).result.withoutCounters
  events_eq : (store.call call).events = (other.call call).events
  stock_eq : (store.call call).store.stock = (other.call call).store.stock

theorem Regular.agrees (h : store.Regular queue) (h' : other.Regular queue')
    (hstock : store.stock = other.stock) (call : Call) : store.Agrees other call := by
  have hmirrors := h.mirrors_apply call.now call.operation
  have hmirrors' := h'.mirrors_apply call.now call.operation
  rw [hstock] at hmirrors
  exact ⟨hmirrors.reply_eq.trans hmirrors'.reply_eq.symm,
    hmirrors.events_eq.trans hmirrors'.events_eq.symm,
    hmirrors.stock_eq.trans hmirrors'.stock_eq.symm⟩

theorem Agrees.usedKey?_eq (h : store.Agrees other call) :
    call.operation.usedKey? (store.call call).result
      = call.operation.usedKey? (other.call call).result := by
  rw [← Reply.usedKey?_withoutCounters, h.result_eq, Reply.usedKey?_withoutCounters]

theorem Agrees.hits_eq (h : store.Agrees other call) :
    Count.hits store call = Count.hits other call := by
  rw [Count.hits, ← Reply.foundKey?_withoutCounters, h.result_eq,
    Reply.foundKey?_withoutCounters, Count.hits]

theorem Agrees.misses_eq (h : store.Agrees other call) :
    Count.misses store call = Count.misses other call := by
  rw [Count.misses, ← Reply.missedKey?_withoutCounters, h.result_eq,
    Reply.missedKey?_withoutCounters, Count.misses]

/-- What goes is told by the extents. -/
theorem Regular.evicted_eq (h : store.Regular queue) (h' : other.Regular queue')
    (hstock : store.stock = other.stock) (call : Call) :
    Count.evicted store call = Count.evicted other call := by
  have hagrees := h.agrees h' hstock call
  obtain ⟨_, _, hadvance⟩ := h.queues.apply h.ahead call.now call.operation
  obtain ⟨_, _, hadvance'⟩ := h'.queues.apply h'.ahead call.now call.operation
  have hextent := store.length_lost_add_size call.now call.operation
  have hextent' := other.length_lost_add_size call.now call.operation
  have hsize : store.size = other.size := by rw [h.queues.size_eq, hstock, h'.queues.size_eq]
  have hsize' : (store.apply call.now call.operation).store.size
      = (other.apply call.now call.operation).store.size := by
    rw [hadvance.queues.size_eq, hadvance'.queues.size_eq]
    exact congrArg (fun stock => stock.rows.length) hagrees.stock_eq
  have hcontains : store.entries.contains = other.entries.contains := by
    funext key
    rw [h.queues.contains_eq, hstock, h'.queues.contains_eq]
  rw [hcontains] at hextent
  have hlost : Count.lost store call = Count.lost other call := by
    unfold Count.lost
    omega
  rw [Count.evicted, Count.evicted, hlost]

/-! ### Runs -/

/-- What two stores with the same stock have in common after some calls. -/
theorem Regular.acts_alike (h : store.Regular queue) (h' : other.Regular queue')
    (hstock : store.stock = other.stock) (haffords : store.AffordsAll calls)
    (haffords' : other.AffordsAll calls) :
    store.history calls = other.history calls
      ∧ (store.after calls).stock = (other.after calls).stock
      ∧ store.counted calls = other.counted calls
      ∧ (∃ queue, (store.after calls).Regular queue)
      ∧ ∃ queue, (other.after calls).Regular queue := by
  induction calls generalizing store other queue queue' with
  | nil => exact ⟨rfl, hstock, rfl, ⟨queue, h⟩, ⟨queue', h'⟩⟩
  | cons call calls ih =>
    have hagrees := h.agrees h' hstock call
    obtain ⟨next, hnext⟩ := h.call haffords.1
    obtain ⟨next', hnext'⟩ := h'.call haffords'.1
    obtain ⟨hhistory, hlast, hcounted, hregular, hregular'⟩ :=
      ih hnext hnext' hagrees.stock_eq haffords.2 haffords'.2
    refine ⟨?_, hlast, ?_, hregular, hregular'⟩
    · rw [history, history, hagrees.result_eq, hagrees.events_eq, hhistory]
    · obtain ⟨hhits, hmisses, hevictions⟩ := Tally.mk.inj hcounted
      simp only [counted, total, hhits, hmisses, hevictions, hagrees.hits_eq, hagrees.misses_eq,
        h.evicted_eq h' hstock call]

theorem AffordsAll.of_append {more : List Call} (h : store.AffordsAll (calls ++ more)) :
    store.AffordsAll calls ∧ (store.after calls).AffordsAll more := by
  induction calls generalizing store with
  | nil => exact ⟨trivial, h⟩
  | cons call calls ih =>
    obtain ⟨hcalls, hmore⟩ := ih h.2
    exact ⟨⟨h.1, hcalls⟩, hmore⟩

/-- **Regular stores with the same stock act alike.** -/
theorem Regular.actsLike (h : store.Regular queue) (h' : other.Regular queue')
    (hstock : store.stock = other.stock) (haffords : store.AffordsAll calls)
    (haffords' : other.AffordsAll calls) : store.ActsLike other calls where
  history_eq := (h.acts_alike h' hstock haffords haffords').1
  stock_eq := by
    rintro earlier ⟨later, rfl⟩
    exact (h.acts_alike h' hstock haffords.of_append.1 haffords'.of_append.1).2.1
  tally_eq := by
    rintro earlier later ⟨rest, rfl⟩ hreset
    obtain ⟨hearlier, hlater⟩ := haffords.of_append.1.of_append
    obtain ⟨hearlier', hlater'⟩ := haffords'.of_append.1.of_append
    obtain ⟨-, hmiddle, -, ⟨_, hregular⟩, _, hregular'⟩ :=
      h.acts_alike h' hstock hearlier hearlier'
    have hcounted := (hregular.acts_alike hregular' hmiddle hlater hlater').2.2.1
    refine ⟨hcounted.symm, fun hfits => ?_, fun hfits => ?_⟩
    · rw [after_append]
      exact tally_after hreset hfits
    · rw [hcounted] at hfits ⊢
      rw [after_append]
      exact tally_after hreset hfits
  reset_eq := by
    intro earlier now _
    rw [after_concat, after_concat]
    rfl

/-- A store with the same stock and no later tick affords the same runs. -/
theorem Regular.affordsAll (h : store.Regular queue) (h' : other.Regular queue')
    (hstock : store.stock = other.stock) (hnext : other.recency.next ≤ store.recency.next)
    (haffords : store.AffordsAll calls) : other.AffordsAll calls := by
  induction calls generalizing store other queue queue' with
  | nil => trivial
  | cons call calls ih =>
    obtain ⟨hcall, hcalls⟩ := haffords
    have hagrees := h.agrees h' hstock call
    have hticks := hcall.ticks
    rw [hagrees.usedKey?_eq] at hticks
    obtain ⟨_, _, hadvance⟩ := h.queues.apply h.ahead call.now call.operation
    obtain ⟨_, _, hadvance'⟩ := h'.queues.apply h'.ahead call.now call.operation
    have hheld : (other.call call).store.heldBytes = (store.call call).store.heldBytes :=
      hadvance'.queues.heldBytes_eq.trans
        ((congrArg (fun stock => Stock.bytes stock.rows) hagrees.stock_eq.symm).trans
          hadvance.queues.heldBytes_eq.symm)
    have hcall' : other.Affords call := ⟨by omega, hheld ▸ hcall.bytes⟩
    obtain ⟨_, hlast⟩ := h.call hcall
    obtain ⟨_, hlast'⟩ := h'.call hcall'
    refine ⟨hcall', ih hlast hlast' hagrees.stock_eq ?_ hcalls⟩
    have hafter := h.next_call hcall
    have hafter' := h'.next_call hcall'
    rw [hagrees.usedKey?_eq] at hafter
    omega

/-! ### Dropping everything -/

theorem keysMatching_empty (store : Store) : store.keysMatching "" = store.entries.keys := by
  refine List.filter_eq_self.2 fun key _ => ?_
  exact (Text.contains_eq_true_iff _ _).2 (List.nil_infix)

/-- A store without rows that has come from another one by removals is that store cleared. -/
theorem eq_clear {last : Store} (hempty : last.Queues []) (haccounted : last.Accounted)
    (hnext : last.recency.next = store.recency.next)
    (hstatistics : last.statistics.setSize 0 = store.statistics.setSize 0)
    (hsettings : last.settings = store.settings) : last = store.clear.store := by
  have hrows : last.entries.rows = [] := hempty.perm.nil_eq.symm
  have hentries : last.entries = .empty := Table.eq_of_rows_eq hrows
  have hrecency : last.recency = store.recency.clear := by
    have horder : last.recency.order = [] := hempty.order_eq
    show Recency.mk last.recency.order last.recency.next = _
    rw [horder, hnext, Recency.clear]
  have hused : last.usedBytes = 0 := by
    rw [haccounted.used_eq, hempty.heldBytes_eq, hempty.rows_eq]
    rfl
  have hsame : last.statistics = store.statistics.setSize 0 := by
    have hextent : last.statistics.size = 0 := haccounted.extent_eq.trans hempty.length_eq.symm
    rw [← hstatistics, Statistics.setSize, ← hextent]
  obtain ⟨hbudget, hdefaultTtl⟩ := Prod.mk.inj hsettings
  cases last
  simp only at hentries hrecency hsame hused hbudget hdefaultTtl
  rw [hentries, hrecency, hsame, hused, hbudget, hdefaultTtl, clear]

/-- **The pattern that is part of every key drops everything**, just as a clearing does. -/
theorem Regular.invalidatePattern_empty (h : store.Regular queue) (now : Nat) :
    (store.apply now (.invalidatePattern "")).store = (store.apply now .clear).store := by
  have hqueue := h.queues.foldl (fun h key => h.drop key) (store.keysMatching "")
  have hnone : (queue.filter fun row => !(store.keysMatching "").contains row.1) = [] := by
    refine List.filter_eq_nil_iff.2 fun row hrow => ?_
    have hkey : row.1 ∈ store.entries.keys :=
      (Table.mem_keys_iff _ _).2 ⟨row.2, (h.queues.mem_iff _ _).1 hrow⟩
    rw [keysMatching_empty, List.contains_iff_mem.2 hkey]
    decide
  have hstatistics (store : Store) (key : String) :
      (store.drop key).statistics.setSize 0 = store.statistics.setSize 0 := by
    cases hfind : store.entries.find? key with
    | none => rw [drop_of_find?_eq_none hfind]
    | some entry => rw [drop_of_find? hfind]; rfl
  rw [hnone] at hqueue
  exact eq_clear hqueue ((frees_foldl frees_drop _ store).accounted h.held_le h.accounted)
    (foldl_eq (·.recency.next) next_drop _ store)
    (foldl_eq (·.statistics.setSize 0) hstatistics _ store)
    (foldl_eq settings settings_drop _ store)

theorem Regular.clear (h : store.Regular queue) : store.clear.store.Regular [] where
  queues := ⟨fun _ _ => by simp [Store.clear], rfl, .nil⟩
  ahead := fun _ hrow => absurd hrow List.not_mem_nil
  accounted := (frees_clear store).accounted h.held_le h.accounted
  held_le := Nat.zero_le _

/-- **The future of a store depends on its stock only.**  Two stores that a cache can come to, with
    the same rows in the same order of use and the same limits, give the same replies from then on
    apart from the counters in them, keep the same stock, and count the same.  So a store from which
    everything was dropped, in either way, acts like a fresh one with its limits. -/
theorem acts_by_stock :
    (∀ {store other : Store} {calls : List Call}, store.Reachable → other.Reachable →
      store.stock = other.stock → store.AffordsAll calls → other.AffordsAll calls →
      store.ActsLike other calls)
    ∧ ∀ {store : Store}, store.Reachable → ∀ now,
      (store.apply now (.invalidatePattern "")).store = (store.apply now .clear).store
        ∧ ∀ {calls : List Call}, (store.apply now .clear).store.AffordsAll calls →
          (store.apply now .clear).store.ActsLike (.new store.budget store.defaultTtl) calls := by
  constructor
  · intro store other calls hstore hother hstock haffords haffords'
    obtain ⟨⟨queue, hqueue⟩, -⟩ := hstore.exists_regular
    obtain ⟨⟨queue', hqueue'⟩, -⟩ := hother.exists_regular
    exact hqueue.actsLike hqueue' hstock haffords haffords'
  · intro store hstore now
    obtain ⟨⟨queue, hqueue⟩, hpos, -⟩ := hstore.exists_regular
    refine ⟨hqueue.invalidatePattern_empty now, fun haffords => ?_⟩
    have hfresh := Regular.new store.budget store.defaultTtl
    exact hqueue.clear.actsLike hfresh rfl haffords
      (hqueue.clear.affordsAll hfresh rfl hpos haffords)

/-- Two stores with the same two rows, one of which has seen a third key, a reset and a later read,
    act alike while room is made, a row expires and the counters are reset again. -/
theorem acts_by_stock_two :
    let calls : List Call := [⟨0, .put "a" ⟨[]⟩ 5⟩, ⟨0, .put "b" ⟨[]⟩ 9⟩, ⟨1, .get "a"⟩]
    let others : List Call := [⟨0, .put "c" ⟨[]⟩ 5⟩, ⟨0, .put "b" ⟨[]⟩ 9⟩, ⟨0, .get "d"⟩,
      ⟨0, .resetStatistics⟩, ⟨0, .put "a" ⟨[]⟩ 5⟩, ⟨2, .invalidate "c"⟩, ⟨4, .getWithTtl "a"⟩]
    let more : List Call := [⟨7, .put "d" ⟨[]⟩ 0⟩, ⟨6000, .get "a"⟩, ⟨6000, .resetStatistics⟩,
      ⟨9000, .sweep⟩, ⟨9000, .statistics⟩]
    let store := (Store.new 5 60).after calls
    let other := (Store.new 5 60).after others
    store.stock = other.stock ∧ store.recency.next ≠ other.recency.next ∧ store.tally ≠ other.tally
      ∧ store.ActsLike other more
      ∧ (store.apply 0 .clear).store.ActsLike (.new 5 60) more := by
  intro calls others more store other
  have hcalls : (Store.new 5 60).NoOverflow (calls ++ more) := .of_sum_le (by decide) (by decide)
  have hothers : (Store.new 5 60).NoOverflow (others ++ more) := .of_sum_le (by decide) (by decide)
  have hstore : store.Reachable := reachable_after hcalls.of_append
  have hother : other.Reachable := reachable_after hothers.of_append
  have hclear : (Store.new 5 60).NoOverflow (calls ++ [⟨0, .clear⟩] ++ more) :=
    .of_sum_le (by decide) (by decide)
  have hcleared : (store.apply 0 .clear).store.AffordsAll more := by
    have hafter := affordsAll_after hclear
    rwa [after_concat] at hafter
  obtain ⟨halike, hdropped⟩ := acts_by_stock
  exact ⟨rfl, by decide, by decide,
    halike hstore hother rfl (affordsAll_after hcalls) (affordsAll_after hothers),
    (hdropped hstore 0).2 hcleared⟩

end Store

end BoundedCache
