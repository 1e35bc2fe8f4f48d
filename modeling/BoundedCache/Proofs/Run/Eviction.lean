import BoundedCache.Proofs.Run.Queue

namespace BoundedCache

/-!
# What is evicted

The cache makes room from the front of the lineup of a run, row by row, and stops as soon as the
rest and the incoming bytes fit the budget.  `ShortestCut` says that without the loop: a cut takes
a number of rows from the front, no fewer would do, and it takes all of them only if it has to.

* `MakesRoom.shortestCut` — the loop makes the shortest cut;
* `MakesRoom.evictions_eq` — it counts every row that it takes, once;
* `Store.cuts_lineup` — so a put cuts the lineup of the other keys and appends its own row, and a
  new budget cuts the whole lineup.
-/

/-- `count` is the least number of rows from the front of `rows` that must go to fit `incoming`
    bytes in `budget` beside the others, or the number of all rows if nothing is enough. -/
structure ShortestCut (rows : List Row) (incoming budget count : Nat) : Prop where
  count_le : count ≤ rows.length
  makesRoom : count < rows.length → Word.addSat (totalSize (rows.drop count)) incoming ≤ budget
  noShorter : ∀ fewer < count, budget < Word.addSat (totalSize (rows.drop fewer)) incoming

namespace ShortestCut

variable {rows : List Row} {incoming budget count : Nat}

/-- One more row at the front, where the bytes do not fit beside it. -/
theorem cons (h : ShortestCut rows incoming budget count) {row : Row}
    (hover : budget < Word.addSat (totalSize (row :: rows)) incoming) :
    ShortestCut (row :: rows) incoming budget (count + 1) where
  count_le := Nat.succ_le_succ h.count_le
  makesRoom := fun hlt => h.makesRoom (Nat.lt_of_succ_lt_succ hlt)
  noShorter := by
    intro fewer hfewer
    cases fewer with
    | zero => exact hover
    | succ fewer => exact h.noShorter fewer (Nat.lt_of_succ_lt_succ hfewer)

/-- Bytes that exceed the budget alone leave no row. -/
theorem eq_length (h : ShortestCut rows incoming budget count) (htop : incoming ≤ Word.top)
    (hover : budget < incoming) : count = rows.length := by
  by_contra hcount
  have hfits := h.makesRoom (Nat.lt_of_le_of_ne h.count_le hcount)
  have hincoming : incoming ≤ Word.addSat (totalSize (rows.drop count)) incoming :=
    Nat.le_min.2 ⟨Nat.le_add_left _ _, htop⟩
  omega

end ShortestCut

namespace MakesRoom

open Store

variable {incoming : Nat} {store last : Store} {gone queue : List Row}

/-- **The loop makes the shortest cut** of the queue. -/
theorem shortestCut (h : MakesRoom incoming store gone last) (hqueue : store.Queues queue)
    (haccounted : store.Accounted) (hheld : store.heldBytes ≤ Word.top) :
    ShortestCut queue incoming store.budget gone.length := by
  -- Round by round: what goes is the head of the queue, and the rounds after it cut the tail.
  induction h generalizing queue with
  | @fits store hfits =>
    have hroom : Word.addSat (totalSize queue) incoming ≤ store.budget := by
      rw [hqueue.totalSize_eq, ← haccounted.used_eq]
      exact of_decide_eq_true hfits
    exact ⟨Nat.zero_le _, fun _ => hroom, fun fewer hfewer => absurd hfewer (Nat.not_lt_zero _)⟩
  | @exhausted store hfits hempty =>
    have hnil : queue.length = 0 := hqueue.length_eq.trans (congrArg List.length hempty)
    exact ⟨Nat.zero_le _, fun hlt => absurd hlt (by rw [hnil]; exact Nat.lt_irrefl 0),
      fun fewer hfewer => absurd hfewer (Nat.not_lt_zero _)⟩
  | @evict store last recency row gone hfits hvictim hfind hrest ih =>
    obtain ⟨rest, rfl, hqueues, -⟩ := hqueue.evicting hvictim hfind
    have hfrees := frees_evicting recency hfind
    have hover : store.budget < Word.addSat (totalSize (row :: rest)) incoming := by
      rw [hqueue.totalSize_eq, ← haccounted.used_eq]
      exact Nat.lt_of_not_le (of_decide_eq_false hfits)
    exact (ih hqueues (hfrees.accounted hheld haccounted)
      (Nat.le_trans hfrees.held_le hheld)).cons hover

/-- **Every row that goes is counted once.** -/
theorem evictions_eq (h : MakesRoom incoming store gone last)
    (htop : store.statistics.evictions + store.size ≤ Word.top) :
    last.statistics.evictions = store.statistics.evictions + gone.length := by
  induction h with
  | fits _ => rfl
  | exhausted _ _ => rfl
  | @evict store last recency row gone _ _ hfind _ ih =>
    have hsize := size_evicting recency hfind
    -- There is a row to evict, so the counter is not at the top yet.
    have hnext : store.statistics.evictions + 1 ≤ Word.top := by omega
    have hcounted : (store.evicting recency row).statistics.evictions
        = store.statistics.evictions + 1 := Word.addWrap_eq_add hnext
    rw [ih (by omega), hcounted, List.length_cons]
    omega

end MakesRoom

namespace Store

/-- How the last call of a run cuts `rows` from the front, to fit `incoming` bytes in `budget`: it
    takes `count` of them, keeps the others as they are and appends the rows `newest`.  It reports
    every row that goes, in their order, behind its `warnings`. -/
structure Cuts (start : Store) (calls : List Call) (call : Call) (rows newest : List Row)
    (incoming budget : Nat) (warnings : List Event) (count : Nat) : Prop where
  shortest : ShortestCut rows incoming budget count
  lineup_eq : start.lineup (calls ++ [call]) = rows.drop count ++ newest
  rows_perm : (start.after (calls ++ [call])).entries.rows.Perm (rows.drop count ++ newest)
  evictions_eq : (start.after (calls ++ [call])).statistics.evictions
    = (start.after calls).statistics.evictions + count
  events_eq : ((start.after calls).call call).events
    = warnings ++ (rows.take count).map fun row => .evicted row.1 row.2.size

variable {start : Store} {calls : List Call} {queue : List Row}

/-- **A put cuts the rows of the other keys**, after it has released its own key. -/
theorem Tracked.cuts_put (h : start.Tracked calls queue)
    (hticks : (start.usedKeys calls).length < Word.top)
    (haccounted : (start.after calls).Accounted)
    (hheld : (start.after calls).heldBytes ≤ Word.top) (now : Nat) (key : String)
    (value : Json.Payload) (ttl : Int) :
    ∃ count, start.Cuts calls ⟨now, .put key value ttl⟩ (queue.filter fun row => row.1 != key)
        [(key, (start.after calls).newEntry now value ((start.after calls).effectiveTtl ttl))]
        value.size (start.after calls).budget ((start.after calls).putWarnings key value.size)
        count := by
  obtain ⟨gone, rest, last, hroom, hqueue, hstore, hevents, hadvance⟩ :=
    h.queues.put h.ahead now key value ttl
  -- The released version counts neither for the bytes nor as an eviction.
  have hfrees := frees_drop (start.after calls) key
  have hcut := hroom.shortestCut (h.queues.drop key) (hfrees.accounted hheld haccounted)
    (Nat.le_trans hfrees.held_le hheld)
  have hevictions := h.evictions_le
  have hcounted := hroom.evictions_eq
    (Nat.le_trans (hfrees.evictions_le (by omega)) (by omega))
  have hlineup := h.lineup_concat ⟨now, .put key value ttl⟩ hadvance
  rw [budget_drop] at hcut
  rw [evictions_drop] at hcounted
  refine ⟨gone.length, hcut, ?_, ?_, ?_, ?_⟩
  · rw [hlineup, hqueue, List.drop_left]
  · rw [after_concat, hqueue, List.drop_left]
    exact hadvance.queues.perm.symm
  · rw [after_concat, Store.call, hstore]
    exact hcounted
  · rw [hqueue, List.take_left]
    exact hevents

/-- **A new budget cuts the whole queue.** -/
theorem Tracked.cuts_resize (h : start.Tracked calls queue)
    (hticks : (start.usedKeys calls).length < Word.top)
    (haccounted : (start.after calls).Accounted)
    (hheld : (start.after calls).heldBytes ≤ Word.top) (now : Nat) {operation : Operation}
    {bytes : Nat} (hbytes : operation.newBudget? = some bytes) :
    ∃ count, start.Cuts calls ⟨now, operation⟩ queue [] 0 bytes [] count
      ∧ ((start.after calls).call ⟨now, operation⟩).result.evicted? = some count
      ∧ (start.after (calls ++ [⟨now, operation⟩])).budget = bytes := by
  obtain ⟨gone, rest, last, hroom, hqueue, hstore, hevents, hcount, hadvance⟩ :=
    h.queues.resize now hbytes
  have hcut := hroom.shortestCut (h.queues.congr rfl rfl) (haccounted.congr rfl rfl rfl) hheld
  have hevictions := h.evictions_le
  have hcounted := hroom.evictions_eq (Nat.le_trans hevictions (by omega))
  have hunused := Operation.usedKey?_of_newBudget? hbytes
    ((start.after calls).call ⟨now, operation⟩).result
  have hlineup := h.lineup_concat ⟨now, operation⟩ (hunused ▸ hadvance)
  refine ⟨gone.length, ⟨hcut, ?_, ?_, ?_, ?_⟩, hcount, ?_⟩
  · rw [hlineup, hqueue, List.drop_left]
  · rw [after_concat, hqueue, List.drop_left]
    exact hadvance.queues.perm.symm
  · rw [after_concat]
    exact (congrArg (fun store => store.statistics.evictions) hstore).trans hcounted
  · rw [hqueue, List.take_left]
    exact hevents
  · rw [after_concat]
    exact (congrArg Store.budget hstore).trans (congrArg Prod.fst hroom.settings_eq)

/-- **Evictions cut the lineup as short as possible.**  The lineup lists the stored rows.  A put
    releases its own key, which is no eviction, cuts the rows of the other keys and appends the
    new row; it warns iff its payload exceeds the budget, and then no other row is left.  A new
    budget cuts the whole lineup. -/
theorem cuts_lineup (budget defaultTtl : Nat) (calls : List Call)
    (hfits : (Store.new budget defaultTtl).NoOverflow calls) :
    let start := Store.new budget defaultTtl
    let store := start.after calls
    store.entries.rows.Perm (start.lineup calls)
    ∧ (∀ now key value ttl,
      let others := (start.lineup calls).filter fun row => row.1 != key
      ∃ count, start.Cuts calls ⟨now, .put key value ttl⟩ others
          [(key, .new value value.size now (store.effectiveTtl ttl) store.recency.next)]
          value.size store.budget
          (if store.budget < value.size then [.oversized key value.size store.budget] else []) count
        ∧ (value.size ≤ Word.top → store.budget < value.size → count = others.length))
    ∧ ∀ now operation bytes, Operation.newBudget? operation = some bytes →
      ∃ count, start.Cuts calls ⟨now, operation⟩ (start.lineup calls) [] 0 bytes [] count
        ∧ (store.call ⟨now, operation⟩).result.evicted? = some count
        ∧ (start.after (calls ++ [⟨now, operation⟩])).budget = bytes := by
  intro start store
  obtain ⟨queue, hqueue⟩ := exists_tracked budget defaultTtl calls hfits.ticks
  have haccounted : store.Accounted :=
    accounted_after (accounted_new budget defaultTtl) calls hfits.bytes
  have hheld : store.heldBytes ≤ Word.top := hfits.bytes calls (List.prefix_refl _)
  have hlineup : start.lineup calls = queue := hqueue.lineup_eq
  rw [hlineup]
  refine ⟨hqueue.queues.perm.symm, ?_, ?_⟩
  · intro now key value ttl others
    obtain ⟨count, hcuts⟩ := hqueue.cuts_put hfits.ticks haccounted hheld now key value ttl
    exact ⟨count, hcuts, hcuts.shortest.eq_length⟩
  · intro now operation bytes hbytes
    exact hqueue.cuts_resize hfits.ticks haccounted hheld now hbytes

/-- A read saves the older of two rows: the put and the smaller budget both take the other one
    first. In a budget that no payload fits, a put takes the row before it and warns. -/
theorem cuts_lineup_refreshed :
    let calls : List Call := [⟨0, .put "a" ⟨[]⟩ 5⟩, ⟨1, .put "b" ⟨[]⟩ 5⟩, ⟨2, .get "a"⟩]
    let tight : List Call := [⟨0, .put "a" ⟨[]⟩ 5⟩]
    (Store.new 5 60).NoOverflow calls ∧ (Store.new 1 60).NoOverflow tight
      ∧ ((Store.new 5 60).lineup calls).map Prod.fst = ["b", "a"]
      ∧ (∃ count, (Store.new 5 60).Cuts calls ⟨3, .put "c" ⟨[]⟩ 0⟩ ((Store.new 5 60).lineup calls)
          [("c", .new ⟨[]⟩ 2 3 60 4)] 2 5 [] count)
      ∧ (∃ count, (Store.new 5 60).Cuts calls ⟨3, .setBudget 3⟩ ((Store.new 5 60).lineup calls)
          [] 0 3 [] count ∧ count = 1)
      ∧ ∃ count, (Store.new 1 60).Cuts tight ⟨3, .put "c" ⟨[]⟩ 0⟩ ((Store.new 1 60).lineup tight)
          [("c", .new ⟨[]⟩ 2 3 60 2)] 2 1 [.oversized "c" 2 1] count ∧ count = 1 := by
  intro calls tight
  have hfits : (Store.new 5 60).NoOverflow calls := .of_sum_le (by decide) (by decide)
  have htight : (Store.new 1 60).NoOverflow tight := .of_sum_le (by decide) (by decide)
  obtain ⟨-, hput, hresize⟩ := cuts_lineup 5 60 calls hfits
  obtain ⟨-, hwarn, -⟩ := cuts_lineup 1 60 tight htight
  obtain ⟨count, hcuts, -⟩ := hput 3 "c" ⟨[]⟩ 0
  obtain ⟨fewer, hcuts', hfewer, -⟩ := hresize 3 (.setBudget 3) 3 rfl
  obtain ⟨all, hcuts'', hall⟩ := hwarn 3 "c" ⟨[]⟩ 0
  refine ⟨hfits, htight, by decide +kernel, ⟨count, hcuts⟩, ⟨fewer, hcuts', ?_⟩, all, hcuts'', ?_⟩
  · have hone : (((Store.new 5 60).after calls).call ⟨3, .setBudget 3⟩).result.evicted?
        = some 1 := by decide +kernel
    exact Option.some.inj (hfewer.symm.trans hone)
  · exact hall (by decide) (by decide)

end Store

end BoundedCache
