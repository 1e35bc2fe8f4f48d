import BoundedCache.Proofs.Recency
import BoundedCache.Proofs.Store.Accounting
import Mathlib.Data.List.Pairwise

namespace BoundedCache

/-!
# The queue for eviction

`store.Queues queue` says that `queue` lists the rows of a store in the order of use, the least
recently used one first, and that the tick index agrees with it: the index files every key under the
tick of its entry, names no other key, and its ticks ascend.  The queue is all that evictions depend
on, so every change of the store has one lemma that says what becomes of its queue:

* `Queues.drop`, `Queues.expel`, `Queues.foldl` — removals filter it;
* `Queues.touched` — a successful read moves one row to its end;
* `Queues.filed` — an insertion appends one row;
* `Queues.makesRoom` — what has to go is a prefix of it.
-/

namespace Store

/-- The rows of a store in the order of use, with an index that agrees with it. -/
structure Queues (store : Store) (queue : List Row) : Prop where
  mem_iff : ∀ key entry, (key, entry) ∈ queue ↔ store.entries.find? key = some entry
  order_eq : store.recency.order = queue.map fun row => (row.2.tick, row.1)
  ascending : queue.Pairwise fun row later => row.2.tick < later.2.tick

theorem queues_new (budget defaultTtl : Nat) : (Store.new budget defaultTtl).Queues [] where
  mem_iff := fun key entry => by simp [Store.new]
  order_eq := rfl
  ascending := .nil

variable {store : Store} {queue : List Row} {key : String} {entry : Entry}

/-- Only the entries and the index matter. -/
theorem Queues.congr {store' : Store} (h : store.Queues queue)
    (hentries : store'.entries = store.entries)
    (horder : store'.recency.order = store.recency.order) : store'.Queues queue where
  mem_iff := by rw [hentries]; exact h.mem_iff
  order_eq := by rw [horder]; exact h.order_eq
  ascending := h.ascending

/-! ### The queue and the table -/

theorem Queues.nodup_ticks (h : store.Queues queue) : (queue.map fun row => row.2.tick).Nodup :=
  List.pairwise_map.2 (h.ascending.imp fun hlt => Nat.ne_of_lt hlt)

theorem Queues.perm (h : store.Queues queue) : queue.Perm store.entries.rows :=
  (List.perm_ext_iff_of_nodup h.nodup_ticks.of_map store.entries.nodup_rows).2 fun row =>
    (h.mem_iff row.1 row.2).trans (Table.mem_rows_iff _ _ _).symm

theorem Queues.nodup_keys (h : store.Queues queue) : (queue.map Prod.fst).Nodup :=
  (h.perm.map Prod.fst).nodup_iff.2 store.entries.nodup

theorem Queues.length_eq (h : store.Queues queue) : queue.length = store.size :=
  h.perm.length_eq

theorem Queues.totalSize_eq (h : store.Queues queue) : totalSize queue = store.heldBytes :=
  totalSize_perm h.perm

/-- No two rows share a tick. -/
theorem Queues.eq_of_tick_eq (h : store.Queues queue) {row other : Row} (hrow : row ∈ queue)
    (hother : other ∈ queue) (htick : row.2.tick = other.2.tick) : row = other :=
  List.inj_on_of_nodup_map h.nodup_ticks hrow hother htick

theorem Queues.keys_eq (h : store.Queues queue) : store.recency.keys = queue.map Prod.fst := by
  rw [Recency.keys, h.order_eq, List.map_map]
  rfl

theorem Queues.tick_lt_next (h : store.Queues queue) (hahead : store.recency.Ahead) {row : Row}
    (hrow : row ∈ queue) : row.2.tick < store.recency.next := by
  refine hahead (row.2.tick, row.1) ?_
  rw [h.order_eq]
  exact List.mem_map_of_mem hrow

/-! ### Removals -/

theorem Queues.without (h : store.Queues queue) (hfind : store.entries.find? key = some entry) :
    (store.without key entry).Queues (queue.filter fun row => row.1 != key) where
  mem_iff := by
    intro other found
    show _ ↔ (store.entries.erase key).find? other = some found
    rw [List.mem_filter, h.mem_iff, Table.find?_erase]
    by_cases hkey : other = key <;> simp [hkey]
  order_eq := by
    have hrow : (key, entry) ∈ queue := (h.mem_iff _ _).2 hfind
    -- The index looks for the tick, the queue for the key; in the queue these are the same rows.
    have hsame : ∀ row ∈ queue, (row.2.tick != entry.tick) = (row.1 != key) := by
      intro row hmem
      rw [Bool.eq_iff_iff, bne_iff_ne, bne_iff_ne, not_iff_not]
      constructor
      · intro htick
        exact congrArg Prod.fst (h.eq_of_tick_eq hmem hrow htick)
      · intro hkey
        have hfound := (h.mem_iff row.1 row.2).1 hmem
        rw [hkey, hfind, Option.some.injEq] at hfound
        rw [hfound]
    show (store.recency.order.filter fun row => row.1 != entry.tick) = _
    rw [h.order_eq, List.filter_map, ← List.filter_congr hsame]
    rfl
  ascending := h.ascending.filter _

theorem Queues.filter_eq_self (h : store.Queues queue)
    (hnone : store.entries.find? key = none) : (queue.filter fun row => row.1 != key) = queue := by
  refine List.filter_eq_self.2 fun row hrow => bne_iff_ne.2 ?_
  rintro rfl
  rw [(h.mem_iff _ _).1 hrow] at hnone
  exact absurd hnone (Option.some_ne_none _)

theorem Queues.drop (h : store.Queues queue) (key : String) :
    (store.drop key).Queues (queue.filter fun row => row.1 != key) := by
  cases hfind : store.entries.find? key with
  | none => rw [drop_of_find?_eq_none hfind, h.filter_eq_self hfind]; exact h
  | some entry => rw [drop_of_find? hfind]; exact h.without hfind

theorem Queues.expel (h : store.Queues queue) (key : String) :
    (store.expel key).Queues (queue.filter fun row => row.1 != key) := by
  cases hfind : store.entries.find? key with
  | none => rw [expel_of_find?_eq_none hfind, h.filter_eq_self hfind]; exact h
  | some entry => rw [expel_of_find? hfind]; exact (h.without hfind).congr rfl rfl

/-- Where keys are distinct, those of the rows of a kind tell which rows are of the kind. -/
theorem contains_keys_of_kind {rows : List Row} (hnodup : (rows.map Prod.fst).Nodup)
    (kind : Row → Bool) {row : Row} (hrow : row ∈ rows) :
    ((rows.filter kind).map Prod.fst).contains row.1 = kind row := by
  rw [Bool.eq_iff_iff, List.contains_iff_mem, List.mem_map]
  constructor
  · rintro ⟨other, hother, hkey⟩
    rw [List.mem_filter] at hother
    rw [← List.inj_on_of_nodup_map hnodup hother.1 hrow hkey]
    exact hother.2
  · exact fun hkind => ⟨row, List.mem_filter.2 ⟨hrow, hkind⟩, rfl⟩

/-- Removals one after another filter for all their keys. -/
theorem Queues.foldl {remove : Store → String → Store}
    (hremove : ∀ {store : Store} {queue : List Row}, store.Queues queue → ∀ key,
      (remove store key).Queues (queue.filter fun row => row.1 != key))
    (keys : List String) (h : store.Queues queue) :
    (keys.foldl remove store).Queues (queue.filter fun row => !keys.contains row.1) := by
  -- One filter after another is the filter for both.
  induction keys generalizing store queue with
  | nil => simpa using h
  | cons key keys ih =>
    have hrest := ih (hremove h key)
    rw [List.filter_filter] at hrest
    have hsame : (fun row : Row => !keys.contains row.1 && row.1 != key)
        = fun row => !(key :: keys).contains row.1 := by
      funext row
      rw [List.contains_cons, Bool.not_or, Bool.and_comm]
      rfl
    rwa [hsame] at hrest

/-! ### Reads -/

theorem Queues.touched (h : store.Queues queue) (hahead : store.recency.Ahead) (now : Nat)
    (hfind : store.entries.find? key = some entry) :
    (store.touched now key entry).Queues
      ((queue.filter fun row => row.1 != key) ++ [(key, entry.touch now store.recency.next)]) where
  mem_iff := by
    intro other found
    show _ ↔ (store.entries.modify key _).find? other = some found
    rw [List.mem_append, List.mem_filter, h.mem_iff, List.mem_singleton, Table.find?_modify]
    by_cases hkey : other = key
    · simp [hkey, hfind, eq_comm]
    · simp [hkey]
  order_eq := by
    have hwithout := (h.without hfind).order_eq
    show ((store.recency.remove entry.tick).add key).order = _
    rw [Recency.order_add (Recency.ahead_remove hahead _), List.map_append, ← hwithout]
    rfl
  ascending := by
    rw [List.pairwise_append]
    refine ⟨h.ascending.filter _, List.pairwise_singleton _ _, ?_⟩
    intro row hrow later hlater
    rw [List.mem_singleton] at hlater
    rw [hlater]
    exact h.tick_lt_next hahead (List.mem_filter.1 hrow).1

/-! ### Insertions -/

theorem Queues.filed (h : store.Queues queue) (hahead : store.recency.Ahead) (now : Nat)
    (value : Json.Payload) (lifetime : Nat) (hnone : store.entries.find? key = none) :
    (store.filed now key value lifetime).Queues
      (queue ++ [(key, store.newEntry now value lifetime)]) where
  mem_iff := by
    intro other found
    show _ ↔ (store.entries.insert key _).find? other = some found
    rw [List.mem_append, h.mem_iff, List.mem_singleton, Table.find?_insert]
    by_cases hkey : other = key
    · simp [hkey, hnone, eq_comm]
    · simp [hkey]
  order_eq := by
    show (store.recency.add key).order = _
    rw [Recency.order_add hahead, List.map_append, ← h.order_eq]
    rfl
  ascending := by
    rw [List.pairwise_append]
    refine ⟨h.ascending, List.pairwise_singleton _ _, ?_⟩
    intro row hrow later hlater
    rw [List.mem_singleton] at hlater
    rw [hlater]
    exact h.tick_lt_next hahead hrow

/-! ### Evictions -/

/-- The index without the row at the front of the queue. -/
def afterFirst (store : Store) (rest : List Row) : Recency :=
  { store.recency with order := rest.map fun row => (row.2.tick, row.1) }

/-- **The victim heads the queue.** -/
theorem Queues.victim?_eq {first : Row} {rest : List Row} (h : store.Queues (first :: rest)) :
    store.victim? = some (first.1, store.afterFirst rest) := by
  have hfirst : store.entries.find? first.1 = some first.2 := (h.mem_iff _ _).1 List.mem_cons_self
  have horder := h.order_eq
  rw [List.map_cons] at horder
  have hpop : store.recency.popOldest? = some (first.1, store.afterFirst rest) := by
    simp only [Recency.popOldest?, horder, afterFirst]
  have hcontains : store.entries.contains first.1 = true := by
    rw [Table.contains, hfirst, Option.isSome_some]
  simp only [victim?, hpop, hcontains, if_true]

/-- Evicting the head of the queue leaves its tail. -/
theorem Queues.evicting_first {first : Row} {rest : List Row} (h : store.Queues (first :: rest)) :
    (store.evicting (store.afterFirst rest) first).Queues rest where
  mem_iff := by
    intro other found
    have hkeys := h.nodup_keys
    rw [List.map_cons, List.nodup_cons] at hkeys
    show _ ↔ (store.entries.erase first.1).find? other = some found
    rw [Table.find?_erase]
    by_cases hother : other = first.1
    · have habsent : (other, found) ∉ rest := fun hmem =>
        hkeys.1 (hother ▸ List.mem_map_of_mem (f := Prod.fst) hmem)
      rw [if_pos hother]
      exact iff_of_false habsent (Option.some_ne_none found).symm
    · have hne : (other, found) ≠ first := fun heq => hother (congrArg Prod.fst heq)
      rw [if_neg hother, ← h.mem_iff, List.mem_cons, or_iff_right hne]
  order_eq := by
    have hhead : ∀ other ∈ rest, first.2.tick < other.2.tick := (List.pairwise_cons.1 h.ascending).1
    -- The index has lost the row already, so removing its tick once more changes nothing.
    show ((rest.map fun row => (row.2.tick, row.1)).filter fun row => row.1 != first.2.tick) = _
    refine List.filter_eq_self.2 fun ticked hticked => bne_iff_ne.2 ?_
    obtain ⟨other, hother, rfl⟩ := List.mem_map.1 hticked
    exact Nat.ne_of_gt (hhead other hother)
  ascending := (List.pairwise_cons.1 h.ascending).2

theorem Queues.evicting (h : store.Queues queue) {recency : Recency} {row : Row}
    (hvictim : store.victim? = some (row.1, recency))
    (hfind : store.entries.find? row.1 = some row.2) :
    ∃ rest, queue = row :: rest ∧ (store.evicting recency row).Queues rest
      ∧ recency.next = store.recency.next := by
  cases queue with
  | nil => exact absurd ((h.mem_iff _ _).2 hfind) List.not_mem_nil
  | cons first rest =>
    have hfirst : store.entries.find? first.1 = some first.2 :=
      (h.mem_iff _ _).1 List.mem_cons_self
    rw [h.victim?_eq, Option.some.injEq, Prod.mk.injEq] at hvictim
    obtain ⟨hkey, rfl⟩ := hvictim
    rw [hkey, hfind, Option.some.injEq] at hfirst
    obtain rfl : first = row := Prod.ext hkey hfirst.symm
    exact ⟨rest, rfl, h.evicting_first, rfl⟩

end Store

namespace MakesRoom

variable {incoming : Nat} {store last : Store} {gone queue : List Row}

/-- **What goes is a prefix of the queue.** -/
theorem queues (h : MakesRoom incoming store gone last) (hqueue : store.Queues queue) :
    ∃ rest, queue = gone ++ rest ∧ last.Queues rest ∧ last.recency.next = store.recency.next := by
  induction h generalizing queue with
  | fits _ => exact ⟨queue, rfl, hqueue, rfl⟩
  | exhausted _ _ => exact ⟨queue, rfl, hqueue, rfl⟩
  | @evict store last recency row gone _ hvictim hfind _ ih =>
    obtain ⟨tail, rfl, htail, hnext⟩ := hqueue.evicting hvictim hfind
    obtain ⟨rest, rfl, hrest, hnext'⟩ := ih htail
    refine ⟨rest, rfl, hrest, hnext'.trans ?_⟩
    exact hnext

end MakesRoom

end BoundedCache
