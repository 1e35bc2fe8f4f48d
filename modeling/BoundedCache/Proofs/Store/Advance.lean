import BoundedCache.Proofs.Store.Operation
import BoundedCache.Proofs.Store.Queue

namespace BoundedCache

/-!
# What an operation does to the queue

Every operation keeps a part of the queue as it is and in its order, and appends at most one row:
that of the key which it uses.  `Store.Advance` says so and `Queues.apply` proves it, one case per
operation.  `Queues.put` and `Queues.resize` add which rows go for the two operations that make
room.
-/

namespace Store

variable {store : Store} {queue : List Row}

/-- What an operation may make of a queue: the rows `kept` stay as they are, and the row of the used
    key is appended under the next tick. -/
structure Advance (store : Store) (queue : List Row) (used : Option String) (store' : Store)
    (kept newest : List Row) : Prop where
  kept_sublist : kept.Sublist queue
  queues : store'.Queues (kept ++ newest)
  newest_eq : newest.map (fun row => (row.2.tick, row.1))
    = used.toList.map fun key => (store.recency.next, key)
  next_eq : store'.recency.next
    = if used.isSome then Word.succWrap store.recency.next else store.recency.next

theorem Advance.of_kept {store' : Store} {kept : List Row} (hkept : kept.Sublist queue)
    (hqueues : store'.Queues kept) (hnext : store'.recency.next = store.recency.next) :
    store.Advance queue none store' kept [] where
  kept_sublist := hkept
  queues := by rw [List.append_nil]; exact hqueues
  newest_eq := rfl
  next_eq := hnext

/-! ### The keys of the queue -/

/-- An advance appends the used key at most. -/
theorem Advance.keys_eq {store store' : Store} {used : Option String} {kept newest : List Row}
    (h : store.Advance queue used store' kept newest) :
    (kept ++ newest).map Prod.fst = kept.map Prod.fst ++ used.toList := by
  have hnewest := congrArg (List.map Prod.snd) h.newest_eq
  rw [List.map_map, List.map_map] at hnewest
  rw [List.map_append]
  simpa [Function.comp_def] using hnewest

theorem Advance.keys_sublist {store store' : Store} {used : Option String}
    {kept newest : List Row} (h : store.Advance queue used store' kept newest)
    {keys : List String} (hkeys : (queue.map Prod.fst).Sublist keys.dedup) :
    ((kept ++ newest).map Prod.fst).Sublist (keys ++ used.toList).dedup := by
  have hnodup := h.queues.nodup_keys
  have hkept : (kept.map Prod.fst).Sublist keys.dedup := (h.kept_sublist.map _).trans hkeys
  rw [h.keys_eq] at hnodup ⊢
  cases used with
  | none => simpa using hkept
  | some key =>
    rw [Option.toList_some] at hnodup ⊢
    -- The used key moves to the end on both sides, and no kept row has it.
    rw [dedup_concat]
    refine List.Sublist.append ?_ (List.Sublist.refl _)
    have hne : ∀ other ∈ kept.map Prod.fst, (other != key) = true := by
      intro other hother
      have := (List.nodup_append.1 hnodup).2.2 other hother key (List.mem_singleton_self _)
      simpa using this
    rw [← List.filter_eq_self.2 hne]
    exact hkept.filter _

/-- The ticks of an advance stay behind the next one. -/
theorem Advance.ahead {store store' : Store} {used : Option String} {kept newest : List Row}
    (h : store.Advance queue used store' kept newest) (hqueue : store.Queues queue)
    (hahead : store.recency.Ahead)
    (hnext : store'.recency.next = store.recency.next + used.toList.length) :
    store'.recency.Ahead := by
  intro ticked hticked
  rw [h.queues.order_eq, List.map_append, List.mem_append, h.newest_eq] at hticked
  rw [hnext]
  -- A kept row is filed under an earlier tick, the newest one under the tick that was next.
  rcases hticked with hticked | hticked
  · obtain ⟨row, hrow, rfl⟩ := List.mem_map.1 hticked
    have := hqueue.tick_lt_next hahead (h.kept_sublist.subset hrow)
    show row.2.tick < _
    omega
  · obtain ⟨key, hkey, rfl⟩ := List.mem_map.1 hticked
    have := List.length_pos_of_mem hkey
    show store.recency.next < _
    omega

/-! ### Operations -/

/-- What a read does to the queue is the same for both kinds of reads. -/
theorem Queues.read (h : store.Queues queue) (hahead : store.recency.Ahead) (now : Nat)
    (key : String) :
    ∃ kept newest, store.Advance queue ((store.read now key).result.map fun _ => key)
      (store.read now key).store kept newest := by
  cases hfind : store.entries.find? key with
  | none =>
    rw [read_of_find?_eq_none now hfind]
    exact ⟨queue, [], .of_kept (List.Sublist.refl _) (h.congr rfl rfl) rfl⟩
  | some entry =>
    by_cases hexpired : entry.expiresAt < now
    · rw [read_of_expired hfind hexpired]
      exact ⟨_, [], .of_kept List.filter_sublist ((h.without hfind).congr rfl rfl) rfl⟩
    · rw [read_of_live hfind (by omega)]
      exact ⟨_, _, List.filter_sublist, h.touched hahead now hfind, rfl, rfl⟩

theorem next_drop (store : Store) (key : String) :
    (store.drop key).recency.next = store.recency.next := by
  cases hfind : store.entries.find? key with
  | none => rw [drop_of_find?_eq_none hfind]
  | some entry => rw [drop_of_find? hfind]; rfl

theorem next_expel (store : Store) (key : String) :
    (store.expel key).recency.next = store.recency.next := by
  cases hfind : store.entries.find? key with
  | none => rw [expel_of_find?_eq_none hfind]
  | some entry => rw [expel_of_find? hfind]; rfl

/-- Making room takes a prefix of the queue without the put key; the new row is appended to the
    rest. -/
theorem Queues.put (h : store.Queues queue) (hahead : store.recency.Ahead) (now : Nat)
    (key : String) (value : Json.Payload) (ttl : Int) :
    ∃ gone rest last, MakesRoom value.size (store.drop key) gone last
      ∧ (queue.filter fun row => row.1 != key) = gone ++ rest
      ∧ (store.apply now (.put key value ttl)).store
        = last.filed now key value (store.effectiveTtl ttl)
      ∧ (store.apply now (.put key value ttl)).events
        = (store.putWarnings key value.size
          ++ gone.map fun row => .evicted row.1 row.2.size)
      ∧ store.Advance queue (some key) (store.apply now (.put key value ttl)).store rest
        [(key, store.newEntry now value (store.effectiveTtl ttl))] := by
  obtain ⟨gone, last, hroom, hnone, hstore, hevents⟩ := exists_put_eq store now key value ttl
  obtain ⟨rest, hqueue, hrest, hnext⟩ := hroom.queues (h.drop key)
  rw [next_drop] at hnext
  have hsub : rest.Sublist queue :=
    (hqueue ▸ List.sublist_append_right gone rest).trans List.filter_sublist
  -- Releasing and evicting draw no ticks, so the next tick is still ahead of what is left.
  have hahead' : last.recency.Ahead := by
    intro ticked hticked
    rw [hrest.order_eq, List.mem_map] at hticked
    obtain ⟨row, hrow, rfl⟩ := hticked
    rw [hnext]
    exact h.tick_lt_next hahead (hsub.subset hrow)
  have hentry : last.newEntry now value (store.effectiveTtl ttl)
      = store.newEntry now value (store.effectiveTtl ttl) := by rw [newEntry, newEntry, hnext]
  refine ⟨gone, rest, last, hroom, hqueue, hstore, hevents, hsub, ?_, rfl, ?_⟩
  · rw [hstore, ← hentry]
    exact hrest.filed hahead' now value _ hnone
  · rw [hstore]
    show Word.succWrap last.recency.next = _
    rw [hnext]
    rfl

/-- Making room for a new budget takes a prefix of the queue. -/
theorem Queues.resize (h : store.Queues queue) (now : Nat) {operation : Operation} {bytes : Nat}
    (hbytes : operation.newBudget? = some bytes) :
    ∃ gone rest last, MakesRoom 0 { store with budget := bytes } gone last
      ∧ queue = gone ++ rest
      ∧ (store.apply now operation).store
        = { last with defaultTtl := operation.newDefaultTtl?.getD last.defaultTtl }
      ∧ (store.apply now operation).events = (gone.map fun row => .evicted row.1 row.2.size)
      ∧ (store.apply now operation).result.evicted? = some gone.length
      ∧ store.Advance queue none (store.apply now operation).store rest [] := by
  obtain ⟨gone, last, hroom, hstore, hevents, hcount⟩ := exists_resize_eq store now hbytes
  have hbudget : ({ store with budget := bytes } : Store).Queues queue := h.congr rfl rfl
  obtain ⟨rest, hqueue, hrest, hnext⟩ := hroom.queues hbudget
  refine ⟨gone, rest, last, hroom, hqueue, hstore, hevents, hcount, ?_⟩
  rw [hstore]
  exact .of_kept (hqueue ▸ List.sublist_append_right gone rest) (hrest.congr rfl rfl) hnext

/-- **An operation keeps a part of the queue and appends the row of the used key.** -/
theorem Queues.apply (h : store.Queues queue) (hahead : store.recency.Ahead) (now : Nat)
    (operation : Operation) :
    ∃ kept newest, store.Advance queue (operation.usedKey? (store.apply now operation).result)
      (store.apply now operation).store kept newest := by
  have hself : store.Advance queue none store queue [] := .of_kept (List.Sublist.refl _) h rfl
  cases operation with
  | get key =>
    obtain ⟨kept, newest, hread⟩ := h.read hahead now key
    refine ⟨kept, newest, ?_⟩
    simp only [Store.apply, Step.map]
    cases hresult : (store.read now key).result <;> rw [hresult] at hread <;> exact hread
  | getWithTtl key =>
    obtain ⟨kept, newest, hread⟩ := h.read hahead now key
    refine ⟨kept, newest, ?_⟩
    simp only [Store.apply, Step.map]
    cases hresult : (store.read now key).result <;> rw [hresult] at hread <;> exact hread
  | put key value ttl =>
    obtain ⟨gone, rest, last, -, -, -, -, hadvance⟩ := h.put hahead now key value ttl
    exact ⟨rest, _, hadvance⟩
  | invalidate key =>
    exact ⟨_, [], .of_kept List.filter_sublist (h.drop key) (next_drop store key)⟩
  | invalidatePattern pattern =>
    exact ⟨_, [], .of_kept List.filter_sublist (h.foldl (fun h key => h.drop key) _)
      (foldl_eq (·.recency.next) next_drop _ store)⟩
  | clear =>
    refine ⟨[], [], .of_kept (List.nil_sublist queue) ⟨?_, rfl, .nil⟩ rfl⟩
    intro key entry
    simp [Store.apply, clear, Step.map]
  | setBudget bytes =>
    obtain ⟨gone, rest, last, -, -, -, -, -, hadvance⟩ :=
      h.resize now (show (Operation.setBudget bytes).newBudget? = some bytes from rfl)
    exact ⟨rest, [], hadvance⟩
  | setBudgetMegabytes megabytes =>
    obtain ⟨gone, rest, last, -, -, -, -, -, hadvance⟩ :=
      h.resize now (show (Operation.setBudgetMegabytes megabytes).newBudget? = some _ from rfl)
    exact ⟨rest, [], hadvance⟩
  | setDefaultTtl seconds => exact ⟨queue, [], .of_kept (List.Sublist.refl _) (h.congr rfl rfl) rfl⟩
  | reconfigure budget defaultTtl =>
    cases budget with
    | none => exact ⟨queue, [], .of_kept (List.Sublist.refl _) (h.congr rfl rfl) rfl⟩
    | some budget =>
      obtain ⟨gone, rest, last, -, -, -, -, -, hadvance⟩ :=
        h.resize now (show (Operation.reconfigure (some budget) defaultTtl).newBudget? = _ from rfl)
      exact ⟨rest, [], hadvance⟩
  | sweep =>
    exact ⟨_, [], .of_kept List.filter_sublist (h.foldl (fun h key => h.expel key) _)
      (foldl_eq (·.recency.next) next_expel _ store)⟩
  | statistics => exact ⟨queue, [], hself⟩
  | resetStatistics => exact ⟨queue, [], .of_kept (List.Sublist.refl _) (h.congr rfl rfl) rfl⟩
  | isEmpty => exact ⟨queue, [], hself⟩
  | hitCount key => exact ⟨queue, [], hself⟩

end Store

end BoundedCache
