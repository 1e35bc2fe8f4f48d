import BoundedCache.Proofs.Store.Operation
import Mathlib.Data.List.Infix

namespace BoundedCache

/-!
# What an operation does to the payload of a key

`store.lease? key` is what a store grants for a key: the stored payload and the last reading at
which it can be read.  Reads show nothing else of an entry (`read_result`).

A put of the key makes a new lease (`lease?_put`).  Every other operation keeps the lease as it
is, or takes it away in one of two ways (`lease?_apply`): it ends it (`Operation.Ends`), or it
evicts the key to make room and reports so.
-/

theorem Text.contains_eq_true_iff (part text : List Char) :
    Text.contains part text = true ↔ part <:+: text := by
  induction text with
  | nil => rw [Text.contains, List.isEmpty_iff, List.infix_nil]
  | cons c rest ih =>
    rw [Text.contains, Bool.or_eq_true, List.isPrefixOf_iff_prefix, ih, List.infix_cons_iff]

/-- Whether an operation at a reading ends the lease of a key that can be read up to `expiry`.  A
    sweep does at that instant already, a read of the key only after it. -/
def Operation.Ends (now : Nat) (key : String) (expiry : Nat) : Operation → Prop
  | .get other => other = key ∧ expiry < now
  | .getWithTtl other => other = key ∧ expiry < now
  | .invalidate other => other = key
  | .invalidatePattern pattern => Text.lowercase pattern.toList <:+: Text.lowercase key.toList
  | .clear => True
  | .sweep => expiry ≤ now
  | _ => False

namespace Store

/-- The payload that is stored for a key, with the last reading at which it can be read. -/
def lease? (store : Store) (key : String) : Option (Json.Payload × Nat) :=
  (store.entries.find? key).map fun entry => (entry.value, entry.expiresAt)

variable {store : Store} {key : String} {value : Json.Payload} {expiry : Nat}

theorem lease?_eq_some_iff : store.lease? key = some (value, expiry) ↔
    ∃ entry, store.entries.find? key = some entry ∧ entry.value = value
      ∧ entry.expiresAt = expiry := by
  simp only [lease?, Option.map_eq_some_iff, Prod.mk.injEq]

/-- Where rows only go, leases only go. -/
theorem lease?_iff_of_find? {store' : Store} {gone : Prop} [Decidable gone]
    (hfind : store'.entries.find? key = if gone then none else store.entries.find? key) :
    store'.lease? key = some (value, expiry) ↔
      store.lease? key = some (value, expiry) ∧ ¬ gone := by
  rw [lease?, hfind]
  by_cases hgone : gone
  · simp [hgone]
  · simp [hgone, lease?]

/-! ### Reads -/

/-- **A read shows the lease** until it expires. -/
theorem read_result (store : Store) (now : Nat) (key : String) (value : Json.Payload)
    (left : Nat) : (store.read now key).result = some (value, left) ↔
      ∃ expiry, store.lease? key = some (value, expiry) ∧ now ≤ expiry ∧ left = expiry - now := by
  cases hfind : store.entries.find? key with
  | none => simp [read_of_find?_eq_none now hfind, lease?, hfind]
  | some entry =>
    by_cases hexpired : entry.expiresAt < now
    · rw [read_of_expired hfind hexpired]
      refine iff_of_false (Option.some_ne_none _).symm ?_
      rintro ⟨expiry, hlease, hlive, -⟩
      simp only [lease?, hfind, Option.map_some, Option.some.injEq, Prod.mk.injEq] at hlease
      omega
    · rw [read_of_live hfind (by omega)]
      simp only [lease?, hfind, Option.map_some, Option.some.injEq, Prod.mk.injEq]
      constructor
      · rintro ⟨rfl, rfl⟩
        exact ⟨entry.expiresAt, ⟨rfl, rfl⟩, by omega, rfl⟩
      · rintro ⟨expiry, ⟨rfl, rfl⟩, -, rfl⟩
        exact ⟨rfl, rfl⟩

/-- A read that finds nothing leaves nothing. -/
theorem lease?_read_of_none {now : Nat} (hnone : (store.read now key).result = none) :
    (store.read now key).store.lease? key = none := by
  cases hfind : store.entries.find? key with
  | none => rw [read_of_find?_eq_none now hfind, lease?, countMiss, hfind, Option.map_none]
  | some entry =>
    by_cases hexpired : entry.expiresAt < now
    · rw [read_of_expired hfind hexpired]
      show ((store.entries.erase key).find? key).map _ = none
      rw [Table.find?_erase, if_pos rfl, Option.map_none]
    · rw [read_of_live hfind (by omega)] at hnone
      exact absurd hnone (Option.some_ne_none _)

theorem lease?_touched (now : Nat) {other : String} (entry : Entry) :
    (store.touched now other entry).lease? key = store.lease? key := by
  show ((store.entries.modify other _).find? key).map _ = _
  rw [Table.find?_modify, lease?]
  by_cases hkey : key = other
  · rw [if_pos hkey, Option.map_map]
    rfl
  · rw [if_neg hkey]

theorem lease?_read (now : Nat) (other : String) :
    (store.read now other).store.lease? key = some (value, expiry) ↔
      store.lease? key = some (value, expiry) ∧ ¬ (other = key ∧ expiry < now) := by
  -- A read takes a row away only if it is that of the key itself and has expired.
  cases hfind : store.entries.find? other with
  | none =>
    rw [read_of_find?_eq_none now hfind]
    refine (and_iff_left_of_imp fun hlease => ?_).symm
    rintro ⟨rfl, -⟩
    rw [lease?, countMiss, hfind] at hlease
    exact Option.some_ne_none _ hlease.symm
  | some entry =>
    by_cases hexpired : entry.expiresAt < now
    · rw [read_of_expired hfind hexpired]
      have herase : (store.without other entry).countEviction.countMiss.entries.find? key
          = if key = other then none else store.entries.find? key := Table.find?_erase _ _ _
      rw [lease?_iff_of_find? herase]
      refine and_congr_right fun hlease => not_congr ⟨?_, fun h => h.1.symm⟩
      rintro rfl
      simp only [lease?, hfind, Option.map_some, Option.some.injEq, Prod.mk.injEq] at hlease
      exact ⟨rfl, hlease.2 ▸ hexpired⟩
    · rw [read_of_live hfind (by omega), lease?_touched]
      refine (and_iff_left_of_imp fun hlease => ?_).symm
      rintro ⟨rfl, hlate⟩
      simp only [lease?, hfind, Option.map_some, Option.some.injEq, Prod.mk.injEq] at hlease
      omega

/-! ### Removals -/

theorem mem_keysMatching_iff (store : Store) (pattern key : String) :
    key ∈ store.keysMatching pattern ↔ key ∈ store.entries.keys
      ∧ Text.lowercase pattern.toList <:+: Text.lowercase key.toList := by
  rw [keysMatching, List.mem_filter, Text.contains_eq_true_iff]

theorem mem_keysDue_iff (store : Store) (now : Nat) (key : String) :
    key ∈ store.keysDue now ↔
      ∃ entry, store.entries.find? key = some entry ∧ entry.expiresAt ≤ now := by
  simp only [keysDue, List.mem_map, List.mem_filter, Prod.exists, Entry.isDue, decide_eq_true_iff]
  constructor
  · rintro ⟨name, entry, ⟨hrow, hdue⟩, rfl⟩
    exact ⟨entry, (Table.mem_rows_iff _ _ _).1 hrow, hdue⟩
  · rintro ⟨entry, hfind, hdue⟩
    exact ⟨key, entry, ⟨(Table.mem_rows_iff _ _ _).2 hfind, hdue⟩, rfl⟩

/-- The evictions that are reported are those of the rows that go. -/
theorem evicted_not_mem_iff (gone : List Row) (key : String) :
    (∀ size, Event.evicted key size ∉ gone.map fun row => .evicted row.1 row.2.size)
      ↔ key ∉ gone.map Prod.fst := by
  simp only [List.mem_map, Event.evicted.injEq, not_exists, not_and]
  constructor
  · intro h row hrow hkey
    exact h _ row hrow hkey rfl
  · intro h _ row hrow hkey
    exact absurd hkey (h row hrow)

/-! ### Operations -/

/-- **A put of the key makes a new lease.** -/
theorem lease?_put (store : Store) (now : Nat) (key : String) (value : Json.Payload) (ttl : Int) :
    (store.apply now (.put key value ttl)).store.lease? key
      = some (value, Entry.expiry now (store.effectiveTtl ttl)) := by
  obtain ⟨gone, last, -, -, hstore, -⟩ := exists_put_eq store now key value ttl
  rw [hstore, lease?]
  show ((last.entries.insert key _).find? key).map _ = _
  rw [Table.find?_insert, if_pos rfl]
  rfl

/-- A put of another key takes the lease away only if it evicts the key. -/
theorem lease?_put_of_ne (store : Store) (now : Nat) {other : String} (payload : Json.Payload)
    (ttl : Int) (hkey : key ≠ other) :
    (store.apply now (.put other payload ttl)).store.lease? key = some (value, expiry) ↔
      store.lease? key = some (value, expiry)
        ∧ ∀ size, .evicted key size ∉ (store.apply now (.put other payload ttl)).events := by
  obtain ⟨gone, last, hroom, -, hstore, hevents⟩ := exists_put_eq store now other payload ttl
  have hfind : (store.apply now (.put other payload ttl)).store.entries.find? key
      = if key ∈ gone.map Prod.fst then none else store.entries.find? key := by
    rw [hstore]
    show (last.entries.insert other _).find? key = _
    rw [Table.find?_insert, if_neg hkey, hroom.find?_eq, find?_drop, if_neg hkey]
  have hwarnings : ∀ size, Event.evicted key size ∉ store.putWarnings other payload.size := by
    intro size
    unfold putWarnings
    split <;> simp
  rw [lease?_iff_of_find? hfind, hevents, ← evicted_not_mem_iff]
  simp only [List.mem_append, not_or, hwarnings, not_false_eq_true, true_and]

/-- A new budget takes the lease away only if it evicts the key. -/
theorem lease?_resize (store : Store) (now : Nat) {operation : Operation} {bytes : Nat}
    (hbytes : operation.newBudget? = some bytes) :
    (store.apply now operation).store.lease? key = some (value, expiry) ↔
      store.lease? key = some (value, expiry)
        ∧ ∀ size, .evicted key size ∉ (store.apply now operation).events := by
  obtain ⟨gone, last, hroom, hstore, hevents, -⟩ := exists_resize_eq store now hbytes
  have hfind : (store.apply now operation).store.entries.find? key
      = if key ∈ gone.map Prod.fst then none else store.entries.find? key := by
    rw [hstore]
    exact hroom.find?_eq key
  rw [lease?_iff_of_find? hfind, hevents, evicted_not_mem_iff]

/-- An operation that makes no room takes the lease away only if it ends it. -/
theorem lease?_apply_of_quiet (store : Store) (now : Nat) {operation : Operation}
    (hput : operation.putKey? = none) (hbytes : operation.newBudget? = none) :
    (store.apply now operation).store.lease? key = some (value, expiry) ↔
      store.lease? key = some (value, expiry) ∧ ¬ operation.Ends now key expiry := by
  cases operation with
  | get other => exact lease?_read now other
  | getWithTtl other => exact lease?_read now other
  | put other payload ttl => simp [Operation.putKey?] at hput
  | invalidate other =>
    have hfind : (store.drop other).entries.find? key
        = if key = other then none else store.entries.find? key := find?_drop store other key
    exact (lease?_iff_of_find? hfind).trans (and_congr_right fun _ => not_congr eq_comm)
  | invalidatePattern pattern =>
    have hfind := find?_foldl find?_drop (store.keysMatching pattern) store key
    refine (lease?_iff_of_find? hfind).trans (and_congr_right fun hlease => not_congr ?_)
    -- Only stored keys are matched, and the key of a lease is one of them.
    obtain ⟨entry, hentry, -, -⟩ := lease?_eq_some_iff.1 hlease
    have hkey : key ∈ store.entries.keys := (Table.mem_keys_iff _ _).2 ⟨entry, hentry⟩
    rw [mem_keysMatching_iff, and_iff_right hkey]
    rfl
  | clear => exact iff_of_false (Option.some_ne_none _).symm fun h => h.2 trivial
  | sweep =>
    have hfind := find?_foldl find?_expel (store.keysDue now) store key
    refine (lease?_iff_of_find? hfind).trans (and_congr_right fun hlease => not_congr ?_)
    obtain ⟨entry, hentry, -, rfl⟩ := lease?_eq_some_iff.1 hlease
    rw [mem_keysDue_iff]
    simp [hentry, Operation.Ends]
  | setBudget bytes => simp [Operation.newBudget?] at hbytes
  | setBudgetMegabytes megabytes => simp [Operation.newBudget?] at hbytes
  | reconfigure budget defaultTtl =>
    obtain rfl : budget = none := hbytes
    exact (and_iff_left id).symm
  | setDefaultTtl seconds => exact (and_iff_left id).symm
  | statistics => exact (and_iff_left id).symm
  | resetStatistics => exact (and_iff_left id).symm
  | isEmpty => exact (and_iff_left id).symm
  | hitCount other => exact (and_iff_left id).symm

/-- **Every other operation keeps the lease, ends it or evicts the key.** -/
theorem lease?_apply (store : Store) (now : Nat) {operation : Operation}
    (hput : operation.putKey? ≠ some key) :
    (store.apply now operation).store.lease? key = some (value, expiry) ↔
      store.lease? key = some (value, expiry) ∧ ¬ operation.Ends now key expiry
        ∧ ∀ size, .evicted key size ∉ (store.apply now operation).events := by
  -- Puts and new budgets end nothing, and nothing else evicts.
  cases hother : operation.putKey? with
  | some other =>
    obtain ⟨payload, ttl, rfl⟩ := Operation.eq_put_of_putKey? hother
    have hkey : key ≠ other := fun heq => hput (heq ▸ rfl)
    rw [lease?_put_of_ne store now payload ttl hkey]
    exact and_congr_right fun _ => (and_iff_right id).symm
  | none =>
    cases hbytes : operation.newBudget? with
    | some bytes =>
      have hends : ¬ operation.Ends now key expiry := by
        cases operation <;> simp [Operation.Ends, Operation.newBudget?] at hbytes ⊢
      rw [lease?_resize store now hbytes, and_iff_right hends]
    | none =>
      rw [lease?_apply_of_quiet store now hother hbytes, events_apply store now hother hbytes]
      simp

end Store

end BoundedCache
