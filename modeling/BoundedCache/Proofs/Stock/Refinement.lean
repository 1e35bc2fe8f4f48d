import BoundedCache.Proofs.Stock.Basic
import BoundedCache.Proofs.Store.Advance
import BoundedCache.Proofs.Store.Contents

namespace BoundedCache

/-!
# A store is its stock

Ticks, the index, the running byte count and the order of the table are means; `mirrors_apply` says
that none of them shows.  In a store whose records agree (`Store.Regular`), every operation gives
the reply and the events that it gives on the stock of the store, and leaves the stock that it
leaves there.  There is one square for each kind of operation:

* `Regular.mirrors_read`, `Regular.mirrors_put` — actions on a key;
* `Regular.mirrors_discard` — removals in bulk, whatever the order in which the keys are found;
* `Regular.setBudget_eq` — a new budget.
-/

/-- A step of a store is a response of a stock. -/
structure Response.Mirrors (response : Response) (step : Step Reply) : Prop where
  reply_eq : step.result.withoutCounters = response.reply
  stock_eq : step.store.stock = response.stock
  events_eq : step.events = response.events

namespace Store

/-- A store whose records agree, with its queue. -/
structure Regular (store : Store) (queue : List Row) : Prop where
  queues : store.Queues queue
  ahead : store.recency.Ahead
  accounted : store.Accounted
  held_le : store.heldBytes ≤ Word.top

variable {store : Store} {queue : List Row} {key : String}

/-! ### The stock by the queue -/

/-- **The stock is the queue** without the times of use. -/
theorem Queues.stock_eq (h : store.Queues queue) :
    store.stock = ⟨queue.map Row.content, store.budget, store.defaultTtl⟩ := by
  have hlook (row : Row) (hrow : row ∈ queue) :
      (store.holding? row.1).map (fun held => (row.1, held)) = some row.content := by
    rw [holding?, (h.mem_iff row.1 row.2).1 hrow]
    rfl
  have hrows : store.stock.rows = queue.map Row.content := by
    show store.recency.keys.filterMap _ = _
    rw [h.keys_eq, List.filterMap_map, ← List.filterMap_eq_map]
    exact List.filterMap_congr hlook
  exact congrArg (Stock.mk · _ _) hrows

theorem Queues.rows_eq (h : store.Queues queue) : store.stock.rows = queue.map Row.content :=
  congrArg Stock.rows h.stock_eq

theorem Queues.held?_eq (h : store.Queues queue) (key : String) :
    store.stock.held? key = store.holding? key := by
  have hnodup : ((queue.map Row.content).map Prod.fst).Nodup := by
    rw [List.map_map]
    exact h.nodup_keys
  have htable : store.stock.held? key = (Table.mk _ hnodup).find? key := by
    rw [Stock.held?, h.rows_eq]
    rfl
  ext held
  rw [htable, ← Table.mem_rows_iff, holding?, Option.map_eq_some_iff]
  constructor
  · intro hmem
    obtain ⟨row, hrow, hcontent⟩ := List.mem_map.1 hmem
    obtain ⟨rfl, rfl⟩ := Prod.mk.inj hcontent
    exact ⟨row.2, (h.mem_iff _ _).1 hrow, rfl⟩
  · rintro ⟨entry, hfind, rfl⟩
    exact List.mem_map.2 ⟨(key, entry), (h.mem_iff _ _).2 hfind, rfl⟩

theorem Queues.others_eq (h : store.Queues queue) (key : String) :
    store.stock.others key = (queue.filter fun row => row.1 != key).map Row.content := by
  rw [Stock.others, h.rows_eq, List.filter_map]
  rfl

theorem bytes_content (rows : List Row) : Stock.bytes (rows.map Row.content) = totalSize rows := by
  rw [Stock.bytes, List.map_map]
  rfl

theorem Regular.usedBytes_eq (h : store.Regular queue) :
    store.usedBytes = Stock.bytes (queue.map Row.content) := by
  rw [h.accounted.used_eq, bytes_content, h.queues.totalSize_eq]

theorem Regular.extent_eq (h : store.Regular queue) :
    (Reply.statistics store.snapshot).withoutCounters = .statistics store.stock.extent := by
  have hsize : store.size = (queue.map Row.content).length := by
    rw [List.length_map, h.queues.length_eq]
  rw [Stock.extent, h.queues.rows_eq, ← h.usedBytes_eq, ← hsize]
  rfl

end Store

/-! ### Making room -/

/-- Room is made on the stock as it is in the store. -/
theorem MakesRoom.makeRoom_eq {incoming : Nat} {store last : Store} {gone rest : List Row}
    (h : MakesRoom incoming store gone last) (hqueue : store.Queues (gone ++ rest))
    (haccounted : store.Accounted) (hheld : store.heldBytes ≤ Word.top) :
    Stock.makeRoom store.budget incoming ((gone ++ rest).map Row.content)
      = (gone.map Row.content, rest.map Row.content) := by
  have hfits {store : Store} {queue : List Row} (hqueue : store.Queues queue)
      (haccounted : store.Accounted) : store.fits incoming = decide
        (Word.addSat (Stock.bytes (queue.map Row.content)) incoming ≤ store.budget) := by
    rw [Store.bytes_content, hqueue.totalSize_eq, ← haccounted.used_eq]
    rfl
  induction h with
  | @fits store hfit =>
    rw [hfits hqueue haccounted, decide_eq_true_iff] at hfit
    cases rest with
    | nil => rfl
    | cons row rest => exact if_pos hfit
  | exhausted _ hempty =>
    have hperm := hqueue.perm
    rw [hempty, List.perm_nil] at hperm
    obtain rfl : rest = [] := hperm
    rfl
  | @evict store last recency row gone hover hvictim hfind _ ih =>
    rw [hfits hqueue haccounted, decide_eq_false_iff_not] at hover
    obtain ⟨tail, htail, hqueue', -⟩ := hqueue.evicting hvictim hfind
    obtain rfl : gone ++ rest = tail := (List.cons.inj htail).2
    have hfrees := Store.frees_evicting recency hfind
    have hrest := ih hqueue' (hfrees.accounted hheld haccounted) (hfrees.held_le.trans hheld)
    have hbudget : (store.evicting recency row).budget = store.budget := rfl
    rw [hbudget] at hrest
    exact (if_neg hover).trans (congrArg (fun room => (row.content :: room.1, room.2)) hrest)

namespace Store

variable {store : Store} {queue : List Row} {key : String}

/-! ### Actions on a key -/

theorem withoutCounters_outcome (now defaultTtl : Nat) (held : Option Holding)
    (action : KeyAction) :
    (action.outcome now defaultTtl held).reply.withoutCounters
      = (action.outcome now defaultTtl held).reply := by
  have hread (reply : Option (Json.Payload × Nat) → Reply)
      (hreply : ∀ found, (reply found).withoutCounters = reply found) :
      (readOutcome now reply held).reply.withoutCounters = (readOutcome now reply held).reply := by
    cases held with
    | none => exact hreply _
    | some held => by_cases hexpired : held.expiresAt < now <;> simp [readOutcome, hexpired, hreply]
  cases action with
  | get => exact hread _ fun _ => rfl
  | getWithTtl => exact hread _ fun _ => rfl
  | put value ttl => rfl
  | invalidate => rfl

/-- What a read leaves of the queue. -/
theorem Queues.read_content (h : store.Queues queue) (hahead : store.recency.Ahead) (now : Nat)
    (key : String) (reply : Option (Json.Payload × Nat) → Reply) :
    ∃ newest, (store.read now key).store.Queues
        ((queue.filter fun row => row.1 != key) ++ newest)
      ∧ newest.map Row.content
        = Stock.latest key (readOutcome now reply (store.holding? key)).held := by
  rw [holding?]
  cases hfind : store.entries.find? key with
  | none =>
    rw [read_of_find?_eq_none now hfind, h.filter_eq_self hfind]
    exact ⟨[], by rw [List.append_nil]; exact h.congr rfl rfl, rfl⟩
  | some entry =>
    by_cases hexpired : entry.expiresAt < now
    · rw [read_of_expired hfind hexpired]
      refine ⟨[], by rw [List.append_nil]; exact (h.without hfind).congr rfl rfl, ?_⟩
      simp [readOutcome, Entry.holding, hexpired, Stock.latest]
    · rw [read_of_live hfind (by omega)]
      refine ⟨_, h.touched hahead now hfind, ?_⟩
      simp [readOutcome, Entry.holding, hexpired, Stock.latest, Row.content]
      rfl

/-- An action that puts nothing is mirrored by what its outcome says. -/
theorem Regular.mirrors_act (h : store.Regular queue) {now : Nat} {action : KeyAction}
    {step : Step Reply} {newest : List Row} (hput : ∀ value ttl, action ≠ .put value ttl)
    (hserves : store.Serves now key (action.outcome now store.defaultTtl (store.holding? key)) step)
    (hqueue : step.store.Queues ((queue.filter fun row => row.1 != key) ++ newest))
    (hnewest : newest.map Row.content
      = Stock.latest key (action.outcome now store.defaultTtl (store.holding? key)).held)
    (hsettings : step.store.settings = store.settings) :
    (store.stock.act now key action).Mirrors step := by
  have hact : store.stock.act now key action
      = { reply := (action.outcome now store.defaultTtl (store.holding? key)).reply
          stock := ⟨store.stock.others key ++ Stock.latest key
            (action.outcome now store.defaultTtl (store.holding? key)).held,
            store.budget, store.defaultTtl⟩ } := by
    rw [← h.queues.held?_eq key]
    cases action with
    | put value ttl => exact absurd rfl (hput value ttl)
    | _ => rfl
  rw [hact]
  refine ⟨?_, ?_, hserves.events_eq⟩
  · rw [hserves.reply_eq, withoutCounters_outcome]
  · obtain ⟨hbudget, hdefaultTtl⟩ := Prod.mk.inj hsettings
    rw [hqueue.stock_eq, h.queues.others_eq, List.map_append, hnewest, hbudget, hdefaultTtl]

theorem Regular.mirrors_read (h : store.Regular queue) (now : Nat) (key : String)
    (action : KeyAction) (reply : Option (Json.Payload × Nat) → Reply)
    (hput : ∀ value ttl, action ≠ .put value ttl)
    (hread : action.outcome now store.defaultTtl (store.holding? key)
      = readOutcome now reply (store.holding? key)) :
    (store.stock.act now key action).Mirrors ((store.read now key).map reply) := by
  obtain ⟨newest, hqueue, hnewest⟩ := h.queues.read_content h.ahead now key reply
  rw [← hread] at hnewest
  have hserves := store.serves_read now key reply
  rw [← hread] at hserves
  exact h.mirrors_act hput hserves hqueue hnewest (settings_read store now key)

theorem Regular.mirrors_put (h : store.Regular queue) (now : Nat) (key : String)
    (value : Json.Payload) (ttl : Int) :
    (store.stock.act now key (.put value ttl)).Mirrors (store.apply now (.put key value ttl)) := by
  obtain ⟨gone, rest, last, hroom, hqueue, hstore, hevents, hadvance⟩ :=
    h.queues.put h.ahead now key value ttl
  have hdrop : (store.drop key).Queues (gone ++ rest) := hqueue ▸ h.queues.drop key
  have hfrees := frees_drop store key
  have hmakeRoom := hroom.makeRoom_eq hdrop (hfrees.accounted h.held_le h.accounted)
    (hfrees.held_le.trans h.held_le)
  rw [budget_drop, ← hqueue, ← h.queues.others_eq] at hmakeRoom
  have hbudget : store.stock.budget = store.budget := rfl
  have hsettings : (store.apply now (.put key value ttl)).store.settings = store.settings :=
    settings_apply store now _
  obtain ⟨hbudget', hdefaultTtl⟩ := Prod.mk.inj hsettings
  simp only [Stock.act, hbudget, hmakeRoom]
  refine ⟨rfl, ?_, ?_⟩
  · rw [hadvance.queues.stock_eq, List.map_append, hbudget', hdefaultTtl]
    rfl
  · rw [hevents, Stock.evictions, List.map_map]
    rfl

/-! ### Removals in bulk -/

/-- **The order in which keys are found does not matter** when the rows of a kind are dropped. -/
theorem Regular.mirrors_discard (h : store.Regular queue) {kind : String × Holding → Bool}
    {keys : List String}
    (hkeys : keys.Perm ((queue.filter fun row => kind row.content).map Prod.fst))
    {remove : Store → String → Store}
    (hremove : ∀ {store : Store} {queue : List Row}, store.Queues queue → ∀ key,
      (remove store key).Queues (queue.filter fun row => row.1 != key))
    (hsettings : ∀ store key, (remove store key).settings = store.settings) :
    (store.stock.discard kind).Mirrors
      { result := .count keys.length, store := keys.foldl remove store } := by
  have hqueue := h.queues.foldl hremove keys
  -- A row is of the kind as soon as its key is, for it is the only row of its key.
  have hkind : ∀ row ∈ queue, (!keys.contains row.1) = !kind row.content := by
    intro row hrow
    rw [hkeys.contains_eq,
      contains_keys_of_kind h.queues.nodup_keys (fun row => kind row.content) hrow]
  obtain ⟨hbudget, hdefaultTtl⟩ := Prod.mk.inj (foldl_eq settings hsettings keys store)
  rw [List.filter_congr hkind] at hqueue
  refine ⟨?_, ?_, rfl⟩
  · rw [Stock.discard, h.queues.rows_eq, List.filter_map, List.length_map, hkeys.length_eq,
      List.length_map]
    rfl
  · have hrows : (queue.filter fun row => !kind row.content).map Row.content
        = (queue.map Row.content).filter fun row => !kind row := by
      rw [List.filter_map]
      rfl
    rw [hqueue.stock_eq, hbudget, hdefaultTtl, hrows, ← h.queues.rows_eq]
    rfl

/-! ### Budgets -/

/-- **A new budget**, with the rows that go for it and what the stock says of them. -/
theorem Regular.setBudget_eq (h : store.Regular queue) (budget : Nat) :
    ∃ (gone rest : List Row) (last : Store), store.setBudget budget
        = { result := gone.length, store := last
            events := gone.map fun row => .evicted row.1 row.2.size }
      ∧ last.Queues rest ∧ last.settings = (budget, store.defaultTtl)
      ∧ last.usedBytes = Stock.bytes (rest.map Row.content)
      ∧ Stock.makeRoom budget 0 store.stock.rows
        = (gone.map Row.content, rest.map Row.content) := by
  obtain ⟨gone, last, hroom, hevict⟩ :=
    ({ store with budget } : Store).evictUntilFits_makesRoom 0
  have hqueue : ({ store with budget } : Store).Queues queue := h.queues.congr rfl rfl
  have haccounted : ({ store with budget } : Store).Accounted := h.accounted.congr rfl rfl rfl
  obtain ⟨rest, rfl, hrest, -⟩ := hroom.queues hqueue
  have hmakeRoom := hroom.makeRoom_eq hqueue haccounted h.held_le
  refine ⟨gone, rest, last, hevict, hrest, hroom.settings_eq, ?_, ?_⟩
  · rw [(hroom.frees.accounted h.held_le haccounted).used_eq, bytes_content, hrest.totalSize_eq]
  · rw [h.queues.rows_eq]
    exact hmakeRoom

theorem Regular.mirrors_setBudget (h : store.Regular queue) (budget : Nat) :
    (store.stock.resize budget fun evicted _ => .count evicted).Mirrors
      ((store.setBudget budget).map .count) := by
  obtain ⟨gone, rest, last, hset, hrest, hsettings, -, hmakeRoom⟩ := h.setBudget_eq budget
  obtain ⟨hbudget, hdefaultTtl⟩ := Prod.mk.inj hsettings
  rw [hset]
  simp only [Stock.resize, hmakeRoom, List.length_map]
  refine ⟨rfl, ?_, ?_⟩
  · refine hrest.stock_eq.trans ?_
    rw [hbudget, hdefaultTtl]
    rfl
  · rw [Stock.evictions, List.map_map]
    rfl

theorem Regular.mirrors_reconfigure (h : store.Regular queue) (budget defaultTtl : Option Nat) :
    (store.stock.reconfigure budget defaultTtl).Mirrors
      ((store.reconfigure budget defaultTtl).map .limits) := by
  cases budget with
  | none =>
    refine ⟨?_, rfl, rfl⟩
    show Reply.limits ⟨store.budget, _, store.usedBytes, 0⟩ = .limits ⟨store.budget, _, _, 0⟩
    rw [h.usedBytes_eq, ← h.queues.rows_eq]
    rfl
  | some budget =>
    obtain ⟨gone, rest, last, hset, hrest, hsettings, hused, hmakeRoom⟩ := h.setBudget_eq budget
    obtain ⟨hbudget, hdefaultTtl⟩ := Prod.mk.inj hsettings
    have hlast : ({ last with defaultTtl := defaultTtl.getD last.defaultTtl } : Store).Queues
        rest := hrest.congr rfl rfl
    simp only [reconfigure, hset, Step.map, Stock.reconfigure, Stock.resize, hmakeRoom,
      List.length_map]
    refine ⟨?_, ?_, ?_⟩
    · rw [hused, hbudget, hdefaultTtl]
      rfl
    · rw [hlast.stock_eq, hbudget, hdefaultTtl]
      rfl
    · rw [Stock.evictions, List.map_map]
      rfl

/-! ### All operations -/

/-- **A store is its stock**: every operation is what it is on the stock. -/
theorem Regular.mirrors_apply (h : store.Regular queue) (now : Nat) (operation : Operation) :
    (store.stock.apply now operation).Mirrors (store.apply now operation) := by
  cases operation with
  | get key =>
    exact h.mirrors_read now key .get (fun found => .payload (found.map Prod.fst)) (by simp) rfl
  | getWithTtl key => exact h.mirrors_read now key .getWithTtl .payloadWithTtl (by simp) rfl
  | put key value ttl => exact h.mirrors_put now key value ttl
  | invalidate key =>
    have hqueue := h.queues.drop key
    rw [← List.append_nil (queue.filter _)] at hqueue
    exact h.mirrors_act (by simp) (store.serves_on now key .invalidate trivial) hqueue rfl
      (settings_drop store key)
  | invalidatePattern pattern =>
    refine h.mirrors_discard ?_ (fun h key => h.drop key) settings_drop
    rw [keysMatching, Table.keys, List.filter_map]
    exact (h.queues.perm.symm.filter _).map _
  | clear => exact ⟨rfl, rfl, rfl⟩
  | setBudget bytes => exact h.mirrors_setBudget bytes
  | setBudgetMegabytes megabytes => exact h.mirrors_setBudget _
  | setDefaultTtl seconds => exact ⟨rfl, rfl, rfl⟩
  | reconfigure budget defaultTtl => exact h.mirrors_reconfigure budget defaultTtl
  | sweep =>
    refine h.mirrors_discard ?_ (fun h key => h.expel key) settings_expel
    exact (h.queues.perm.symm.filter _).map _
  | statistics => exact ⟨h.extent_eq, rfl, rfl⟩
  | resetStatistics => exact ⟨h.extent_eq, rfl, rfl⟩
  | isEmpty =>
    refine ⟨congrArg Reply.flag ?_, rfl, rfl⟩
    rw [h.queues.rows_eq, List.isEmpty_map]
    exact h.queues.perm.symm.isEmpty_eq
  | hitCount key =>
    refine ⟨congrArg Reply.hitCount ?_, rfl, rfl⟩
    rw [h.queues.held?_eq, holding?, Option.map_map]
    rfl

end Store

end BoundedCache
