import BoundedCache.Proofs.Run.Eviction
import BoundedCache.Proofs.Run.Removal

namespace BoundedCache

/-!
# The rounds that make room

The loop that makes room has ways out for a store whose records disagree: if the index is empty or
names a key without an entry, it takes any key, and if there is no key at all, it gives up.  In the
stores that a cache can come to, it needs none of them.

* `TakesOldest` — a round that takes the oldest key of the index, with its entry, and nothing else;
* `OldestFirst` — a loop of such rounds, which ends where the bytes fit or no entry is left.  It has
  no bound on its rounds;
* `Progresses` — what such a loop says of `evictUntilFits`: the bound on the rounds is never what
  ends it, and its result counts the entries, the index, the evictions and the events alike.

`room_making_progresses` is the result, at the places where the cache makes room: after a put has
released its key, and with a new budget.
-/

namespace Store

/-- **A round that takes the oldest key.** -/
structure TakesOldest (store : Store) (row : Row) (next : Store) : Prop where
  /-- The index names the key. -/
  popped : store.recency.popOldest?.map Prod.fst = some row.1
  /-- The key has an entry, so no other key is looked for. -/
  contained : store.entries.contains row.1 = true
  /-- The entry is removed. -/
  evicted : store.evictOne? = some (row.1, row.2, next)
  /-- It is the only one that leaves the table. -/
  rows_perm : store.entries.rows.Perm (row :: next.entries.rows)
  /-- Its tick is the only one that leaves the index. -/
  order_eq : store.recency.order = (row.2.tick, row.1) :: next.recency.order
  evictions_eq : next.statistics.evictions = store.statistics.evictions + 1

/-- `OldestFirst incoming store rows last`: the loop that makes room for `incoming` bytes takes the
    oldest row in each of its rounds, the rows `rows` one after another, and ends at `last`. -/
inductive OldestFirst (incoming : Nat) : Store → List Row → Store → Prop
  /-- The bytes fit, or no entry is left. -/
  | ends {store : Store} (hends : store.fits incoming = true ∨ store.isEmpty = true) :
      OldestFirst incoming store [] store
  /-- One more round. -/
  | round {store next last : Store} {row : Row} {rows : List Row}
      (hover : store.fits incoming = false) (hentries : store.isEmpty = false)
      (htakes : store.TakesOldest row next) (hrest : OldestFirst incoming next rows last) :
      OldestFirst incoming store (row :: rows) last

namespace OldestFirst

variable {incoming : Nat} {store last : Store} {rows : List Row}

theorem size_eq (h : OldestFirst incoming store rows last) :
    last.size + rows.length = store.size := by
  induction h with
  | ends _ => rfl
  | @round store next last row rows _ _ htakes _ ih =>
    have hsize : store.size = next.size + 1 := htakes.rows_perm.length_eq
    rw [List.length_cons, hsize]
    omega

theorem index_eq (h : OldestFirst incoming store rows last) :
    last.recency.size + rows.length = store.recency.size := by
  induction h with
  | ends _ => rfl
  | @round store next last row rows _ _ htakes _ ih =>
    have hsize : store.recency.size = next.recency.size + 1 := congrArg List.length htakes.order_eq
    rw [List.length_cons, hsize]
    omega

theorem evictions_eq (h : OldestFirst incoming store rows last) :
    last.statistics.evictions = store.statistics.evictions + rows.length := by
  induction h with
  | ends _ => rfl
  | round _ _ htakes _ ih =>
    have hone := htakes.evictions_eq
    rw [List.length_cons]
    omega

theorem fits_or_isEmpty (h : OldestFirst incoming store rows last) :
    last.fits incoming = true ∨ last.isEmpty = true := by
  induction h with
  | ends hends => exact hends
  | round _ _ _ _ ih => exact ih

end OldestFirst

/-! ### Where the records agree -/

variable {store : Store} {queue : List Row}

/-- **The row at the head of the queue is taken.** -/
theorem Queues.takesOldest {first : Row} {rest : List Row} (h : store.Queues (first :: rest))
    (htop : store.statistics.evictions + store.size ≤ Word.top) :
    store.TakesOldest first (store.evicting (store.afterFirst rest) first) := by
  have hfirst : store.entries.find? first.1 = some first.2 := (h.mem_iff _ _).1 List.mem_cons_self
  have hnext := h.evicting_first
  have hsize := size_evicting (store.afterFirst rest) hfirst
  refine ⟨?_, ?_, evictOne?_of_victim h.victim?_eq hfirst, ?_, ?_, ?_⟩
  · simp [Recency.popOldest?, h.order_eq]
  · rw [Table.contains, hfirst, Option.isSome_some]
  · exact Table.perm_cons_erase hfirst
  · rw [h.order_eq, hnext.order_eq, List.map_cons]
  · -- There is an entry to evict, so the counter is not at the top yet.
    have hnext : store.statistics.evictions + 1 ≤ Word.top := by omega
    exact Word.addWrap_eq_add hnext

end Store

open Store in
/-- **The rounds of the loop take the oldest key each.** -/
theorem MakesRoom.oldestFirst {incoming : Nat} {store last : Store} {gone queue : List Row}
    (h : MakesRoom incoming store gone last) (hqueue : store.Queues queue)
    (htop : store.statistics.evictions + store.size ≤ Word.top) :
    OldestFirst incoming store gone last := by
  induction h generalizing queue with
  | fits hfits => exact .ends (.inl hfits)
  | exhausted _ hempty => exact .ends (.inr (List.isEmpty_iff.2 hempty))
  | @evict store last recency row gone hover hvictim hfind _ ih =>
    have hentries : store.isEmpty = false := by
      refine List.isEmpty_eq_false_iff.2 fun hempty => ?_
      have hrow := (Table.mem_rows_iff _ _ _).2 hfind
      rw [hempty] at hrow
      exact List.not_mem_nil hrow
    obtain ⟨rest, rfl, hrest, -⟩ := hqueue.evicting hvictim hfind
    -- What the loop has found is what the head of the queue says.
    have hnext : store.evicting (store.afterFirst rest) row = store.evicting recency row := by
      have hsame := hqueue.victim?_eq.symm.trans hvictim
      rw [Option.some.injEq, Prod.mk.injEq] at hsame
      rw [hsame.2]
    have htakes := hqueue.takesOldest htop
    rw [hnext] at htakes
    have hle := (frees_evicting recency hfind).evictions_le htop
    exact .round hover hentries htakes (ih hrest (hle.trans htop))

namespace Store

/-- **Room is made round by round**, one round for each of the rows `rows`. -/
structure Progresses (store : Store) (incoming : Nat) (rows : List Row) : Prop where
  oldestFirst : OldestFirst incoming store rows (store.evictUntilFits incoming).store
  rounds_le : rows.length ≤ store.size
  /-- As many rounds are enough, and more change nothing. -/
  enough : ∀ rounds, rows.length ≤ rounds →
    evictRounds incoming rounds store = store.evictUntilFits incoming
  result_eq : (store.evictUntilFits incoming).result = rows.length
  size_eq : (store.evictUntilFits incoming).store.size + rows.length = store.size
  index_eq : (store.evictUntilFits incoming).store.recency.size + rows.length = store.recency.size
  evictions_eq : (store.evictUntilFits incoming).store.statistics.evictions
    = store.statistics.evictions + rows.length
  events_eq : (store.evictUntilFits incoming).events = rows.map fun row => .evicted row.1 row.2.size
  fits_or_empty :
    Word.addSat (store.evictUntilFits incoming).store.usedBytes incoming ≤ store.budget
      ∨ (store.evictUntilFits incoming).store.isEmpty = true
        ∧ (store.evictUntilFits incoming).store.usedBytes = 0

variable {store : Store} {queue : List Row}

/-- **Where the records agree, room is made round by round.** -/
theorem Queues.exists_progresses (h : store.Queues queue) (haccounted : store.Accounted)
    (hheld : store.heldBytes ≤ Word.top)
    (htop : store.statistics.evictions + store.size ≤ Word.top) (incoming : Nat) :
    ∃ rows, store.Progresses incoming rows := by
  obtain ⟨rows, last, hroom, hevict⟩ := store.evictUntilFits_makesRoom incoming
  have holdest := hroom.oldestFirst h htop
  have hlast : last.Accounted := hroom.frees.accounted hheld haccounted
  have hbudget : last.budget = store.budget := congrArg Prod.fst hroom.settings_eq
  have hsize := holdest.size_eq
  refine ⟨rows, ?_⟩
  constructor
  case oldestFirst => rw [hevict]; exact holdest
  case rounds_le => omega
  case enough => intro rounds hrounds; rw [hevict]; exact hroom.evictRounds_eq hrounds
  case result_eq => rw [hevict]
  case size_eq => rw [hevict]; exact hsize
  case index_eq => rw [hevict]; exact holdest.index_eq
  case evictions_eq => rw [hevict]; exact holdest.evictions_eq
  case events_eq => rw [hevict]
  case fits_or_empty =>
    rw [hevict, ← hbudget]
    rcases holdest.fits_or_isEmpty with hfits | hempty
    · exact .inl (of_decide_eq_true hfits)
    · refine .inr ⟨hempty, ?_⟩
      rw [hlast.used_eq, heldBytes, List.isEmpty_iff.1 hempty, totalSize_nil]

/-- **Making room progresses.**  In every store that a cache can come to, after a put has released
    its key there, and with any new budget, the loop that makes room takes the oldest key of the
    index in each of its rounds, with the entry of that key and nothing else; it needs no other key
    and never gives up.  So it ends after as many rounds as entries go, and stops where the bytes
    fit or the store is empty. -/
theorem room_making_progresses (h : store.Reachable) (incoming : Nat) :
    (∃ rows, store.Progresses incoming rows)
      ∧ (∀ key, ∃ rows, (store.drop key).Progresses incoming rows)
      ∧ ∀ budget, ∃ rows, ({ store with budget } : Store).Progresses incoming rows := by
  obtain ⟨⟨queue, hqueue⟩, -, -⟩ := h.exists_regular
  have htop := h.evictions_le
  refine ⟨?_, fun key => ?_, fun budget => ?_⟩
  · exact hqueue.queues.exists_progresses hqueue.accounted hqueue.held_le htop incoming
  · have hfrees := frees_drop store key
    exact (hqueue.queues.drop key).exists_progresses
      (hfrees.accounted hqueue.held_le hqueue.accounted) (hfrees.held_le.trans hqueue.held_le)
      ((hfrees.evictions_le htop).trans htop) incoming
  · have hqueues : ({ store with budget } : Store).Queues queue := hqueue.queues.congr rfl rfl
    exact hqueues.exists_progresses (hqueue.accounted.congr rfl rfl rfl) hqueue.held_le htop
      incoming

/-- Three entries of two bytes, the first of which was read last: four more bytes take the other
    two, take one of them once the third key is released, and take all three in a budget of 0. -/
theorem room_making_progresses_three :
    let store := (Store.new 6 60).after
      [⟨0, .put "a" ⟨[]⟩ 5⟩, ⟨0, .put "b" ⟨[]⟩ 5⟩, ⟨0, .put "c" ⟨[]⟩ 5⟩, ⟨1, .get "a"⟩]
    store.Reachable
      ∧ (store.evictUntilFits 4).events = [.evicted "b" 2, .evicted "c" 2]
      ∧ (∃ rows, store.Progresses 4 rows ∧ rows.length = 2)
      ∧ (∃ rows, (store.drop "c").Progresses 4 rows ∧ rows.length = 1)
      ∧ ∃ rows, ({ store with budget := 0 } : Store).Progresses 4 rows ∧ rows.length = 3 := by
  intro store
  have hreachable : store.Reachable := reachable_after (.of_sum_le (by decide) (by decide))
  obtain ⟨⟨two, htwo⟩, hdrop, hbudget⟩ := room_making_progresses hreachable 4
  obtain ⟨one, hone⟩ := hdrop "c"
  obtain ⟨all, hall⟩ := hbudget 0
  refine ⟨hreachable, by decide, ⟨two, htwo, ?_⟩, ⟨one, hone, ?_⟩, all, hall, ?_⟩
  · exact htwo.result_eq.symm.trans (by decide)
  · exact hone.result_eq.symm.trans (by decide)
  · exact hall.result_eq.symm.trans (by decide)

end Store

end BoundedCache
