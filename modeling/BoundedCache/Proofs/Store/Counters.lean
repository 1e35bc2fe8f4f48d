import BoundedCache.Proofs.Store.Contents
import BoundedCache.Proofs.Store.Descent

namespace BoundedCache

/-!
# What an operation counts

An operation counts in three ways, and each of them has one equation over all operations:

* `length_lost_add_size` — the entries that it takes away and the one that it may bring in make up
  the difference in extent;
* `record_apply` — reads count as hits and misses, and the largest extent is noted by puts only;
* `evictions_apply` — every entry that goes counts as an eviction, unless its key was withdrawn:
  dropped on request, or put again.
-/

/-- The key for which an operation finds no payload, as its reply tells. -/
def Operation.missedKey? : Operation → Reply → Option String
  | .get key, .payload none => some key
  | .getWithTtl key, .payloadWithTtl none => some key
  | _, _ => none

/-- Whether an operation drops entries on request. -/
def Operation.isWithdrawal : Operation → Bool
  | .invalidate _ => true
  | .invalidatePattern _ => true
  | .clear => true
  | _ => false

namespace Store

variable {store : Store} {now : Nat} {operation : Operation} {key : String}

/-! ### Entries lost and gained -/

/-- The keys that an operation takes away. -/
def lost (store : Store) (now : Nat) (operation : Operation) : List String :=
  store.entries.keys.filter fun key => !(store.apply now operation).store.entries.contains key

/-- An operation brings in the key that it puts, and no other one. -/
theorem mem_keys_apply (hnew : key ∉ store.entries.keys) :
    key ∈ (store.apply now operation).store.entries.keys ↔ operation.putKey? = some key := by
  constructor
  · intro hkey
    obtain ⟨entry, hentry⟩ := (Table.mem_keys_iff _ _).1 hkey
    cases descends_apply hentry with
    | kept hfind => exact absurd ((Table.mem_keys_iff _ _).2 ⟨_, hfind⟩) hnew
    | touched hfind => exact absurd ((Table.mem_keys_iff _ _).2 ⟨_, hfind⟩) hnew
    | filed lifetime tick hput => rw [hput]; rfl
  · intro hput
    obtain ⟨value, ttl, rfl⟩ := Operation.eq_put_of_putKey? hput
    obtain ⟨entry, hentry, -⟩ := lease?_eq_some_iff.1 (lease?_put store now key value ttl)
    exact (Table.mem_keys_iff _ _).2 ⟨entry, hentry⟩

/-- **The extent** changes by the entries that go and the new one. -/
theorem length_lost_add_size (store : Store) (now : Nat) (operation : Operation) :
    (store.lost now operation).length + (store.apply now operation).store.size = store.size
      + (operation.putKey?.toList.filter fun key => !store.entries.contains key).length := by
  have hgained : ((store.apply now operation).store.entries.keys.filter
        fun key => !store.entries.contains key).Perm
      (operation.putKey?.toList.filter fun key => !store.entries.contains key) := by
    have hnodup : operation.putKey?.toList.Nodup := by cases operation.putKey? <;> simp
    refine (List.perm_ext_iff_of_nodup (Table.nodup _ |>.filter _) (hnodup.filter _)).2 ?_
    intro key
    simp only [List.mem_filter, Bool.not_eq_true', Option.mem_toList]
    refine and_congr_left fun hnew => mem_keys_apply ?_
    rwa [← Table.contains_iff, Bool.not_eq_true]
  rw [← hgained.length_eq]
  exact Table.length_lost_add_size _ _

/-! ### Reads and the largest extent -/

/-- The counters of the reads and the largest extent. -/
def record (store : Store) : Nat × Nat × Nat :=
  (store.statistics.hits, store.statistics.misses, store.statistics.maxSizeObserved)

theorem record_drop (store : Store) (key : String) : (store.drop key).record = store.record := by
  cases hfind : store.entries.find? key with
  | none => rw [drop_of_find?_eq_none hfind]
  | some entry => rw [drop_of_find? hfind]; rfl

theorem record_expel (store : Store) (key : String) :
    (store.expel key).record = store.record := by
  cases hfind : store.entries.find? key with
  | none => rw [expel_of_find?_eq_none hfind]
  | some entry => rw [expel_of_find? hfind]; rfl

end Store

theorem MakesRoom.record_eq {incoming : Nat} {store last : Store} {gone : List Row}
    (h : MakesRoom incoming store gone last) : last.record = store.record := by
  induction h with
  | fits _ => rfl
  | exhausted _ _ => rfl
  | evict _ _ _ _ ih => exact ih

namespace Store

variable {store : Store} {now : Nat} {operation : Operation} {key : String}

/-- A read is a hit or a miss. -/
theorem record_read (store : Store) (now : Nat) (key : String) :
    (store.read now key).store.record
      = (if (store.read now key).result.isSome then Word.succWrap store.statistics.hits
          else store.statistics.hits,
        if (store.read now key).result.isSome then store.statistics.misses
          else Word.succWrap store.statistics.misses,
        store.statistics.maxSizeObserved) := by
  cases hfind : store.entries.find? key with
  | none => rw [read_of_find?_eq_none now hfind]; rfl
  | some entry =>
    by_cases hexpired : entry.expiresAt < now
    · rw [read_of_expired hfind hexpired]; rfl
    · rw [read_of_live hfind (by omega)]; rfl

theorem missedKey?_get (store : Store) (now : Nat) (other : String) :
    (Operation.get other).missedKey? (store.apply now (.get other)).result
      = if (store.read now other).result.isSome then none else some other := by
  simp only [apply, Step.map]
  cases (store.read now other).result <;> rfl

theorem missedKey?_getWithTtl (store : Store) (now : Nat) (other : String) :
    (Operation.getWithTtl other).missedKey? (store.apply now (.getWithTtl other)).result
      = if (store.read now other).result.isSome then none else some other := by
  simp only [apply, Step.map]
  cases (store.read now other).result <;> rfl

/-- **What an operation counts beside evictions.** -/
theorem record_apply (store : Store) (now : Nat) (hreset : operation ≠ .resetStatistics) :
    (store.apply now operation).store.record
      = (if (operation.foundKey? (store.apply now operation).result).isSome
          then Word.succWrap store.statistics.hits else store.statistics.hits,
        if (operation.missedKey? (store.apply now operation).result).isSome
          then Word.succWrap store.statistics.misses else store.statistics.misses,
        if operation.putKey?.isSome
          then max store.statistics.maxSizeObserved (store.apply now operation).store.size
          else store.statistics.maxSizeObserved) := by
  cases hbytes : operation.newBudget? with
  | some bytes =>
    obtain ⟨gone, last, hroom, hstore, -, -⟩ := exists_resize_eq store now hbytes
    have hrecord : last.record = store.record := hroom.record_eq
    have hlast : (store.apply now operation).store.record = last.record := by rw [hstore]; rfl
    rw [hlast, hrecord]
    cases operation <;>
      simp [Operation.newBudget?, Operation.foundKey?, Operation.missedKey?, Operation.putKey?,
        record] at hbytes ⊢
  | none =>
    cases operation with
    | get other =>
      rw [foundKey?_get, missedKey?_get, Option.isSome_map]
      refine (record_read store now other).trans ?_
      cases (store.read now other).result <;> rfl
    | getWithTtl other =>
      rw [foundKey?_getWithTtl, missedKey?_getWithTtl, Option.isSome_map]
      refine (record_read store now other).trans ?_
      cases (store.read now other).result <;> rfl
    | put other value ttl =>
      obtain ⟨gone, last, hroom, -, hstore, -⟩ := exists_put_eq store now other value ttl
      have hrecord : last.record = store.record :=
        hroom.record_eq.trans (record_drop store other)
      simp only [record, Prod.mk.injEq] at hrecord
      obtain ⟨hhits, hmisses, hlargest⟩ := hrecord
      rw [hstore, ← hhits, ← hmisses, ← hlargest]
      rfl
    | invalidate other => exact record_drop store other
    | invalidatePattern pattern => exact foldl_eq record record_drop _ store
    | setBudget bytes => simp [Operation.newBudget?] at hbytes
    | setBudgetMegabytes megabytes => simp [Operation.newBudget?] at hbytes
    | reconfigure budget defaultTtl =>
      obtain rfl : budget = none := hbytes
      rfl
    | sweep => exact foldl_eq record record_expel _ store
    | resetStatistics => exact absurd rfl hreset
    | _ => rfl

/-! ### Evictions -/

/-- `store.Evicts store'`: on the way to `store'` no entry comes in, and every entry that goes
    counts as an eviction. -/
structure Evicts (store store' : Store) : Prop where
  size_le : store'.size ≤ store.size
  counted : store.statistics.evictions + (store.size - store'.size) ≤ Word.top →
    store'.statistics.evictions = store.statistics.evictions + (store.size - store'.size)

theorem Evicts.of_eq {store store' : Store} (hentries : store'.entries = store.entries)
    (hevictions : store'.statistics.evictions = store.statistics.evictions) :
    store.Evicts store' := by
  have hsize : store'.size = store.size := by rw [size, size, hentries]
  exact ⟨Nat.le_of_eq hsize, fun _ => by rw [hevictions, hsize, Nat.sub_self, Nat.add_zero]⟩

theorem Evicts.refl (store : Store) : store.Evicts store := .of_eq rfl rfl

theorem Evicts.trans {store store' store'' : Store} (h : store.Evicts store')
    (h' : store'.Evicts store'') : store.Evicts store'' where
  size_le := Nat.le_trans h'.size_le h.size_le
  counted := fun htop => by
    have hsize := h.size_le
    have hsize' := h'.size_le
    -- The first part counts no more than both, so it does not reach the top either.
    have hcounted := h.counted (by omega)
    have hcounted' := h'.counted (by omega)
    omega

theorem evicts_countEviction {entry : Entry} (hfind : store.entries.find? key = some entry) :
    store.Evicts (store.without key entry).countEviction where
  size_le := by
    have hsize := size_without hfind
    show (store.without key entry).size ≤ _
    omega
  counted := fun htop => by
    have hsize := size_without hfind
    have hone : store.size - (store.without key entry).countEviction.size = 1 := by
      show store.size - (store.without key entry).size = 1
      omega
    rw [hone] at htop ⊢
    exact Word.addWrap_eq_add htop

theorem evicts_expel (store : Store) (key : String) : store.Evicts (store.expel key) := by
  cases hfind : store.entries.find? key with
  | none => rw [expel_of_find?_eq_none hfind]; exact .refl _
  | some entry => rw [expel_of_find? hfind]; exact evicts_countEviction hfind

theorem evicts_foldl (keys : List String) (store : Store) :
    store.Evicts (keys.foldl expel store) := by
  induction keys generalizing store with
  | nil => exact .refl _
  | cons key keys ih => exact (evicts_expel store key).trans (ih _)

theorem evicts_read (store : Store) (now : Nat) (key : String) :
    store.Evicts (store.read now key).store := by
  cases hfind : store.entries.find? key with
  | none => rw [read_of_find?_eq_none now hfind]; exact .of_eq rfl rfl
  | some entry =>
    by_cases hexpired : entry.expiresAt < now
    · rw [read_of_expired hfind hexpired]
      exact (evicts_countEviction hfind).trans (.of_eq rfl rfl)
    · rw [read_of_live hfind (by omega)]
      have hsize := size_touched store now key entry
      exact ⟨Nat.le_of_eq hsize, fun _ => by rw [hsize, Nat.sub_self]; rfl⟩

end Store

theorem MakesRoom.evicts {incoming : Nat} {store last : Store} {gone : List Row}
    (h : MakesRoom incoming store gone last) : store.Evicts last := by
  induction h with
  | fits _ => exact .refl _
  | exhausted _ _ => exact .refl _
  | @evict store _ recency row _ _ _ hfind _ ih =>
    have hrecency : store.Evicts { store with recency } := .of_eq rfl rfl
    have hone : ({ store with recency } : Store).Evicts (store.evicting recency row) :=
      Store.evicts_countEviction hfind
    exact hrecency.trans (hone.trans ih)

namespace Store

variable {store : Store} {now : Nat} {operation : Operation} {key : String}

/-- A withdrawal counts no eviction. -/
theorem evictions_withdrawal (store : Store) (now : Nat)
    (hwithdrawal : operation.isWithdrawal = true) :
    (store.apply now operation).store.statistics.evictions = store.statistics.evictions := by
  cases operation with
  | invalidate other => exact evictions_drop store other
  | invalidatePattern pattern => exact foldl_eq (·.statistics.evictions) evictions_drop _ store
  | clear => rfl
  | _ => simp [Operation.isWithdrawal] at hwithdrawal

/-- Beside withdrawals and puts, every operation counts what goes. -/
theorem evicts_apply (store : Store) (now : Nat) (hput : operation.putKey? = none)
    (hwithdrawal : operation.isWithdrawal = false) (hreset : operation ≠ .resetStatistics) :
    store.Evicts (store.apply now operation).store := by
  cases hbytes : operation.newBudget? with
  | some bytes =>
    obtain ⟨gone, last, hroom, hstore, -, -⟩ := exists_resize_eq store now hbytes
    have hbudget : store.Evicts { store with budget := bytes } := .of_eq rfl rfl
    rw [hstore]
    exact hbudget.trans (hroom.evicts.trans (.of_eq rfl rfl))
  | none =>
    cases operation with
    | get other => exact evicts_read store now other
    | getWithTtl other => exact evicts_read store now other
    | put other value ttl => simp [Operation.putKey?] at hput
    | invalidate other => simp [Operation.isWithdrawal] at hwithdrawal
    | invalidatePattern pattern => simp [Operation.isWithdrawal] at hwithdrawal
    | clear => simp [Operation.isWithdrawal] at hwithdrawal
    | setBudget bytes => simp [Operation.newBudget?] at hbytes
    | setBudgetMegabytes megabytes => simp [Operation.newBudget?] at hbytes
    | reconfigure budget defaultTtl =>
      obtain rfl : budget = none := hbytes
      exact .of_eq rfl rfl
    | sweep => exact evicts_foldl _ store
    | resetStatistics => exact absurd rfl hreset
    | _ => exact .of_eq rfl rfl

/-- The release of a key takes its own row at most. -/
theorem size_drop (store : Store) (key : String) : (store.drop key).size
      + (if store.entries.contains key then 1 else 0) = store.size := by
  rw [Table.contains]
  cases hfind : store.entries.find? key with
  | none => rw [drop_of_find?_eq_none hfind]; rfl
  | some entry => rw [drop_of_find? hfind]; exact size_without hfind

/-- **Every entry that goes counts as an eviction**, unless its key was withdrawn. -/
theorem evictions_apply (store : Store) (now : Nat) (hreset : operation ≠ .resetStatistics)
    (htop : store.statistics.evictions
      + (if operation.isWithdrawal then 0 else (store.lost now operation).length) ≤ Word.top) :
    (store.apply now operation).store.statistics.evictions = store.statistics.evictions
      + (if operation.isWithdrawal then 0 else (store.lost now operation).length) := by
  have hextent := store.length_lost_add_size now operation
  cases hwithdrawal : operation.isWithdrawal with
  | true => exact evictions_withdrawal store now hwithdrawal
  | false =>
    simp only [hwithdrawal, Bool.false_eq_true, if_false] at htop ⊢
    cases hput : operation.putKey? with
    | none =>
      have hevicts := evicts_apply store now hput hwithdrawal hreset
      rw [hput] at hextent
      simp only [Option.toList_none, List.filter_nil, List.length_nil, Nat.add_zero] at hextent
      have hlost : store.size - (store.apply now operation).store.size
          = (store.lost now operation).length := by omega
      have hcounted := hevicts.counted
      rw [hlost] at hcounted
      exact hcounted htop
    | some key =>
      obtain ⟨value, ttl, rfl⟩ := Operation.eq_put_of_putKey? hput
      obtain ⟨gone, last, hroom, hnone, hstore, -⟩ := exists_put_eq store now key value ttl
      have hevicts := hroom.evicts
      have hreleased := size_drop store key
      have hfiled := size_filed now value (store.effectiveTtl ttl) hnone
      rw [← hstore] at hfiled
      -- What goes is what the loop takes: the released version comes back as the new one.
      have hlost : (store.drop key).size - last.size
          = (store.lost now (.put key value ttl)).length := by
        have hle := hevicts.size_le
        simp only [Operation.putKey?, Option.toList_some] at hextent
        cases hcontains : store.entries.contains key with
        | true =>
          simp [hcontains] at hextent hreleased
          omega
        | false =>
          simp [hcontains] at hextent hreleased
          omega
      have hcounted := hevicts.counted
      rw [hlost, evictions_drop] at hcounted
      rw [hstore]
      exact hcounted htop

end Store

end BoundedCache
