import BoundedCache.Proofs.Store.Accounting

namespace BoundedCache

/-!
# What an operation does to a store

Facts about `Store.apply`, one case per operation, from which invariants of whole runs follow:

* `exists_put_eq`, `exists_resize_eq` — the operations that make room, with the rows that go;
* `settings_apply` — the limits are those that were set last;
* `frees_apply` — no operation but a put brings bytes in (`accounted_apply` adds the put).
-/

/-- The key that an operation uses, as its reply tells: a put uses its key, and a read does if it
    finds a payload. -/
def Operation.usedKey? : Operation → Reply → Option String
  | .put key _ _, _ => some key
  | .get key, .payload (some _) => some key
  | .getWithTtl key, .payloadWithTtl (some _) => some key
  | _, _ => none

/-- The byte budget that an operation sets. -/
def Operation.newBudget? : Operation → Option Nat
  | .setBudget bytes => some bytes
  | .setBudgetMegabytes megabytes => some (Word.mulSat megabytes Store.megabyte)
  | .reconfigure budget _ => budget
  | _ => none

/-- The default time to live that an operation sets. -/
def Operation.newDefaultTtl? : Operation → Option Nat
  | .setDefaultTtl seconds => some seconds
  | .reconfigure _ defaultTtl => defaultTtl
  | _ => none

/-- To set a budget is no use of a key. -/
theorem Operation.usedKey?_of_newBudget? {operation : Operation} {bytes : Nat}
    (hbytes : operation.newBudget? = some bytes) (reply : Reply) :
    operation.usedKey? reply = none := by
  cases operation with
  | setBudget bytes => rfl
  | setBudgetMegabytes megabytes => rfl
  | reconfigure budget defaultTtl => rfl
  | _ => simp [newBudget?] at hbytes

/-- The evictions that the reply to a new budget tells of. -/
def Reply.evicted? : Reply → Option Nat
  | .count n => some n
  | .limits inForce => some inForce.evicted
  | _ => none

/-- The key that an operation stores a payload for. -/
def Operation.putKey? : Operation → Option String
  | .put key _ _ => some key
  | _ => none

theorem Operation.eq_put_of_putKey? {operation : Operation} {key : String}
    (hput : operation.putKey? = some key) : ∃ value ttl, operation = .put key value ttl := by
  cases operation with
  | put other value ttl =>
    obtain rfl : other = key := Option.some.inj hput
    exact ⟨value, ttl, rfl⟩
  | _ => simp [putKey?] at hput

theorem Operation.putKey?_of_newBudget? {operation : Operation} {bytes : Nat}
    (hbytes : operation.newBudget? = some bytes) : operation.putKey? = none := by
  cases operation with
  | put key value ttl => simp [newBudget?] at hbytes
  | _ => rfl

namespace Store

variable {store : Store}

/-! ### Operations that make room -/

/-- **A put**, with the rows that go for it. -/
theorem exists_put_eq (store : Store) (now : Nat) (key : String) (value : Json.Payload)
    (ttl : Int) :
    ∃ gone last, MakesRoom value.size (store.drop key) gone last
      ∧ last.entries.find? key = none
      ∧ (store.apply now (.put key value ttl)).store
        = last.filed now key value (store.effectiveTtl ttl)
      ∧ (store.apply now (.put key value ttl)).events
        = store.putWarnings key value.size
          ++ gone.map fun row => .evicted row.1 row.2.size := by
  obtain ⟨gone, last, hroom, hevict⟩ := (store.drop key).evictUntilFits_makesRoom value.size
  have hnone : last.entries.find? key = none := by
    rw [hroom.find?_eq, find?_drop]
    simp
  have hput := put_eq store now key value ttl
  rw [hevict] at hput
  exact ⟨gone, last, hroom, hnone, congrArg Step.store hput, congrArg Step.events hput⟩

/-- **A new budget**, with the rows that go for it. -/
theorem exists_resize_eq (store : Store) (now : Nat) {operation : Operation} {bytes : Nat}
    (hbytes : operation.newBudget? = some bytes) :
    ∃ gone last, MakesRoom 0 { store with budget := bytes } gone last
      ∧ (store.apply now operation).store
        = { last with defaultTtl := operation.newDefaultTtl?.getD last.defaultTtl }
      ∧ (store.apply now operation).events = (gone.map fun row => .evicted row.1 row.2.size)
      ∧ (store.apply now operation).result.evicted? = some gone.length := by
  obtain ⟨gone, last, hroom, hevict⟩ :=
    ({ store with budget := bytes } : Store).evictUntilFits_makesRoom 0
  have hset : store.setBudget bytes
      = { result := gone.length, store := last
          events := gone.map fun row => .evicted row.1 row.2.size } := hevict
  cases operation with
  | setBudget budget =>
    obtain rfl : budget = bytes := Option.some.inj hbytes
    refine ⟨gone, last, hroom, ?_⟩
    simp only [apply, Step.map, hset, Operation.newDefaultTtl?, Option.getD_none,
      Reply.evicted?, and_self]
  | setBudgetMegabytes megabytes =>
    obtain rfl : Word.mulSat megabytes megabyte = bytes := Option.some.inj hbytes
    refine ⟨gone, last, hroom, ?_⟩
    simp only [apply, Step.map, setBudgetMegabytes, hset, Operation.newDefaultTtl?,
      Option.getD_none, Reply.evicted?, and_self]
  | reconfigure budget defaultTtl =>
    obtain rfl : budget = some bytes := hbytes
    refine ⟨gone, last, hroom, ?_⟩
    simp only [apply, Step.map, reconfigure, hset, Operation.newDefaultTtl?, Reply.evicted?,
      and_self]
  | _ => exact absurd hbytes (by simp [Operation.newBudget?])

/-- Nothing else reports anything. -/
theorem events_apply (store : Store) (now : Nat) {operation : Operation}
    (hput : operation.putKey? = none) (hbytes : operation.newBudget? = none) :
    (store.apply now operation).events = [] := by
  have hread (key : String) : (store.read now key).events = [] := by
    unfold read
    split
    · rfl
    · split <;> rfl
  cases operation with
  | get key => exact hread key
  | getWithTtl key => exact hread key
  | put key value ttl => simp [Operation.putKey?] at hput
  | setBudget bytes => simp [Operation.newBudget?] at hbytes
  | setBudgetMegabytes megabytes => simp [Operation.newBudget?] at hbytes
  | reconfigure budget defaultTtl =>
    obtain rfl : budget = none := hbytes
    rfl
  | _ => rfl

/-! ### Limits -/

/-- What no removal changes, several removals do not change either. -/
theorem foldl_eq {α : Type} (view : Store → α) {remove : Store → String → Store}
    (hremove : ∀ store key, view (remove store key) = view store) (keys : List String)
    (store : Store) : view (keys.foldl remove store) = view store := by
  induction keys generalizing store with
  | nil => rfl
  | cons key keys ih => rw [List.foldl_cons, ih, hremove]

/-- **The limits are those that were set last.** -/
theorem settings_apply (store : Store) (now : Nat) (operation : Operation) :
    (store.apply now operation).store.settings
      = (operation.newBudget?.getD store.budget,
        operation.newDefaultTtl?.getD store.defaultTtl) := by
  cases hbytes : operation.newBudget? with
  | some bytes =>
    obtain ⟨gone, last, hroom, hstore, -, -⟩ := exists_resize_eq store now hbytes
    have hsettings : last.settings = (bytes, store.defaultTtl) := hroom.settings_eq
    rw [settings, Prod.mk.injEq] at hsettings
    rw [hstore, settings, hsettings.1, hsettings.2]
    rfl
  | none =>
    cases operation with
    | get key => exact settings_read store now key
    | getWithTtl key => exact settings_read store now key
    | put key value ttl =>
      obtain ⟨gone, last, hroom, -, hstore, -⟩ := exists_put_eq store now key value ttl
      rw [hstore]
      exact hroom.settings_eq.trans (settings_drop store key)
    | invalidate key => exact settings_drop store key
    | invalidatePattern pattern => exact foldl_eq settings settings_drop _ store
    | setBudget bytes => simp [Operation.newBudget?] at hbytes
    | setBudgetMegabytes megabytes => simp [Operation.newBudget?] at hbytes
    | reconfigure budget defaultTtl =>
      obtain rfl : budget = none := hbytes
      rfl
    | sweep => exact foldl_eq settings settings_expel _ store
    | _ => rfl

/-! ### Bytes -/

/-- **No operation but a put brings bytes in.** -/
theorem frees_apply (store : Store) (now : Nat) {operation : Operation}
    (hput : operation.putKey? = none) : store.Frees (store.apply now operation).store := by
  -- A new budget makes room; the other operations are removals, reads and changes of the limits.
  cases hbytes : operation.newBudget? with
  | some bytes =>
    obtain ⟨gone, last, hroom, hstore, -, -⟩ := exists_resize_eq store now hbytes
    have hbudget : store.Frees { store with budget := bytes } := .of_eq rfl rfl rfl (Nat.le_refl _)
    rw [hstore]
    exact hbudget.trans (hroom.frees.trans (.of_eq rfl rfl rfl (Nat.le_refl _)))
  | none =>
    cases operation with
    | get key => exact frees_read store now key
    | getWithTtl key => exact frees_read store now key
    | put key value ttl => simp [Operation.putKey?] at hput
    | invalidate key => exact frees_drop store key
    | invalidatePattern pattern => exact frees_foldl frees_drop _ store
    | clear => exact frees_clear store
    | setBudget bytes => simp [Operation.newBudget?] at hbytes
    | setBudgetMegabytes megabytes => simp [Operation.newBudget?] at hbytes
    | setDefaultTtl seconds => exact .of_eq rfl rfl rfl (Nat.le_refl _)
    | reconfigure budget defaultTtl =>
      obtain rfl : budget = none := hbytes
      exact .of_eq rfl rfl rfl (Nat.le_refl _)
    | sweep => exact frees_foldl frees_expel _ store
    | statistics => exact .refl store
    | resetStatistics => exact .of_eq rfl rfl rfl (Nat.zero_le _)
    | isEmpty => exact .refl store
    | hitCount key => exact .refl store

/-- A put files a row in a store that holds no more than before; all other operations just free. -/
theorem frees_or_files (store : Store) (now : Nat) (operation : Operation) :
    store.Frees (store.apply now operation).store
      ∨ ∃ key value ttl last, operation = .put key value ttl ∧ store.Frees last
          ∧ last.entries.find? key = none
          ∧ (store.apply now operation).store
            = last.filed now key value (store.effectiveTtl ttl) := by
  cases hput : operation.putKey? with
  | none => exact .inl (frees_apply store now hput)
  | some key =>
    obtain ⟨value, ttl, rfl⟩ := Operation.eq_put_of_putKey? hput
    obtain ⟨gone, last, hroom, hnone, hstore, -⟩ := exists_put_eq store now key value ttl
    exact .inr ⟨key, value, ttl, last, rfl, (frees_drop store key).trans hroom.frees, hnone, hstore⟩

/-- The accounting stays right as long as the bytes fit a word. -/
theorem accounted_apply (h : store.Accounted) (hheld : store.heldBytes ≤ Word.top) (now : Nat)
    (operation : Operation) (hheld' : (store.apply now operation).store.heldBytes ≤ Word.top) :
    (store.apply now operation).store.Accounted := by
  rcases frees_or_files store now operation with
    hfrees | ⟨key, value, ttl, last, -, hfrees, hnone, hstore⟩
  · exact hfrees.accounted hheld h
  · rw [hstore] at hheld' ⊢
    exact (hfrees.accounted hheld h).filed now value _ hnone hheld'

/-- A call counts no more evictions than it takes entries away and stores. -/
theorem evictions_apply_le (store : Store) (now : Nat) (operation : Operation)
    (htop : store.statistics.evictions + store.size ≤ Word.top) :
    (store.apply now operation).store.statistics.evictions + (store.apply now operation).store.size
      ≤ store.statistics.evictions + store.size
        + (operation.usedKey? (store.apply now operation).result).toList.length := by
  rcases frees_or_files store now operation with
    hfrees | ⟨key, value, ttl, last, rfl, hfrees, hnone, hstore⟩
  · exact Nat.le_add_right_of_le (hfrees.evictions_le htop)
  · have hle := hfrees.evictions_le htop
    have hsize := size_filed now value (store.effectiveTtl ttl) hnone
    -- The row that is filed counts for one use, and a put is one.
    rw [hstore, hsize]
    show last.statistics.evictions + (last.size + 1) ≤ _ + 1
    omega

end Store

end BoundedCache
