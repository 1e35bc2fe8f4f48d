import BoundedCache.Proofs.Run.Reads
import BoundedCache.Proofs.Store.Counters

namespace BoundedCache

/-!
# Tallies of a run

`start.total count calls` adds up over a run what `count` says of each call, in the store that the
call is made on.  The counts are read off replies and off which entries are there before and after a
call; none of them looks at the counters of the store.

* `counter_after` — a counter that grows by `count` with every call grows by the total of `count`;
* `puts_call`, `puts_after` — every entry that was put is still there, or left in exactly one way.
-/

namespace Count

/-- Reads that find a payload. -/
def hits (store : Store) (call : Call) : Nat :=
  (call.operation.foundKey? (store.call call).result).isSome.toNat

/-- Reads that find none. -/
def misses (store : Store) (call : Call) : Nat :=
  (call.operation.missedKey? (store.call call).result).isSome.toNat

/-- Reads that find a payload for a key. -/
def hitsOf (key : String) (store : Store) (call : Call) : Nat :=
  if call.operation.foundKey? (store.call call).result = some key then 1 else 0

/-- Entries that are there before a call and not after it. -/
def lost (store : Store) (call : Call) : Nat := (store.lost call.now call.operation).length

/-- Entries that go to make room for a payload or a new budget. -/
def lostToBudget (store : Store) (call : Call) : Nat :=
  if call.operation.putKey?.isSome || call.operation.newBudget?.isSome then lost store call else 0

/-- Entries that a sweep takes away. -/
def lostToSweep (store : Store) (call : Call) : Nat :=
  match call.operation with
  | .sweep => lost store call
  | _ => 0

/-- Entries that a read finds expired. -/
def lostToRead (store : Store) (call : Call) : Nat :=
  match call.operation.readKey? with
  | some key => if (store.entries.find? key).any (·.isExpired call.now) then 1 else 0
  | none => 0

/-- Puts. -/
def puts (_store : Store) (call : Call) : Nat := call.operation.putKey?.isSome.toNat

/-- Puts of keys that are stored already. -/
def replaced (store : Store) (call : Call) : Nat :=
  (call.operation.putKey?.any store.entries.contains).toNat

/-- Invalidations that tell of an entry. -/
def invalidated (store : Store) (call : Call) : Nat :=
  match call.operation, (store.call call).result with
  | .invalidate _, .flag true => 1
  | _, _ => 0

/-- The entries that the invalidation of a pattern tells of. -/
def matched (store : Store) (call : Call) : Nat :=
  match call.operation, (store.call call).result with
  | .invalidatePattern _, .count n => n
  | _, _ => 0

/-- Entries that are there when everything is dropped. -/
def cleared (store : Store) (call : Call) : Nat :=
  match call.operation with
  | .clear => store.size
  | _ => 0

end Count

namespace Store

/-- The sum of a count over some calls. -/
def total (count : Store → Call → Nat) (store : Store) : List Call → Nat
  | [] => 0
  | call :: calls => count store call + (store.call call).store.total count calls

theorem total_concat (count : Store → Call → Nat) (store : Store) (calls : List Call)
    (call : Call) :
    store.total count (calls ++ [call])
      = store.total count calls + count (store.after calls) call := by
  induction calls generalizing store with
  | nil => exact Nat.add_comm _ _
  | cons first calls ih => rw [List.cons_append, total, ih, total, after, Nat.add_assoc]

theorem total_add (count count' : Store → Call → Nat) (store : Store) (calls : List Call) :
    store.total (fun store call => count store call + count' store call) calls
      = store.total count calls + store.total count' calls := by
  induction calls generalizing store with
  | nil => rfl
  | cons call calls ih =>
    rw [total, total, total, ih]
    omega

/-! ### Counters -/

/-- **A counter that every call but a reset increases by a count** increases by its total. -/
theorem counter_after {counter : Store → Nat} {count : Store → Call → Nat}
    (hstep : ∀ store call, call.operation ≠ .resetStatistics →
      counter store + count store call ≤ Word.top →
      counter (store.call call).store = counter store + count store call)
    {store : Store} {calls : List Call} (hreset : ∀ call ∈ calls, call.operation ≠ .resetStatistics)
    (htop : counter store + store.total count calls ≤ Word.top) :
    counter (store.after calls) = counter store + store.total count calls := by
  induction calls generalizing store with
  | nil => rfl
  | cons call calls ih =>
    rw [total] at htop ⊢
    have hcall := hstep store call (hreset call List.mem_cons_self) (by omega)
    have hcalls := ih (fun other hother => hreset other (List.mem_cons_of_mem _ hother))
      (by rw [hcall]; omega)
    rw [after, hcalls, hcall, Nat.add_assoc]

/-- A counter that takes the next word where something happens counts it. -/
theorem ite_succWrap {n : Nat} {b : Bool} (htop : n + b.toNat ≤ Word.top) :
    (if b then Word.succWrap n else n) = n + b.toNat := by
  cases b with
  | false => rfl
  | true => exact Word.addWrap_eq_add htop

theorem hits_call (store : Store) (call : Call) (hreset : call.operation ≠ .resetStatistics)
    (htop : store.statistics.hits + Count.hits store call ≤ Word.top) :
    (store.call call).store.statistics.hits
      = store.statistics.hits + Count.hits store call :=
  (congrArg Prod.fst (record_apply store call.now hreset)).trans (ite_succWrap htop)

theorem misses_call (store : Store) (call : Call) (hreset : call.operation ≠ .resetStatistics)
    (htop : store.statistics.misses + Count.misses store call ≤ Word.top) :
    (store.call call).store.statistics.misses
      = store.statistics.misses + Count.misses store call :=
  (congrArg (·.2.1) (record_apply store call.now hreset)).trans (ite_succWrap htop)

/-! ### Losses -/

/-- An operation that neither stores nor changes the extent takes nothing away. -/
theorem length_lost_of_size_eq {store : Store} {now : Nat} {operation : Operation}
    (hput : operation.putKey? = none)
    (hsize : (store.apply now operation).store.size = store.size) :
    (store.lost now operation).length = 0 := by
  have hextent := store.length_lost_add_size now operation
  rw [hput] at hextent
  simp only [Option.toList_none, List.filter_nil, List.length_nil, Nat.add_zero] at hextent
  omega

theorem size_read (store : Store) (now : Nat) (key : String) :
    (store.read now key).store.size
        + (if (store.entries.find? key).any (·.isExpired now) then 1 else 0) = store.size := by
  cases hfind : store.entries.find? key with
  | none => rw [read_of_find?_eq_none now hfind]; rfl
  | some entry =>
    rw [Option.any_some, Entry.isExpired]
    by_cases hexpired : entry.expiresAt < now
    · rw [read_of_expired hfind hexpired, decide_eq_true hexpired, if_pos rfl]
      exact size_without hfind
    · rw [read_of_live hfind (by omega), decide_eq_false hexpired]
      exact size_touched store now key entry

/-- A read takes away what it finds expired. -/
theorem length_lost_read {store : Store} {now : Nat} {operation : Operation} {key : String}
    (hput : operation.putKey? = none)
    (hstore : (store.apply now operation).store = (store.read now key).store) :
    (store.lost now operation).length
      = if (store.entries.find? key).any (·.isExpired now) then 1 else 0 := by
  have hextent := store.length_lost_add_size now operation
  have hsize := store.size_read now key
  rw [hput, hstore] at hextent
  simp only [Option.toList_none, List.filter_nil, List.length_nil, Nat.add_zero] at hextent
  omega

/-- An invalidation takes away the entry that it tells of. -/
theorem length_lost_invalidate (store : Store) (now : Nat) (other : String) :
    (store.lost now (.invalidate other)).length
      = Count.invalidated store ⟨now, .invalidate other⟩ := by
  have hextent := store.length_lost_add_size now (.invalidate other)
  have hsize : (store.apply now (.invalidate other)).store.size
      + (if store.entries.contains other then 1 else 0) = store.size := size_drop store other
  have hflag : Count.invalidated store ⟨now, .invalidate other⟩
      = if store.entries.contains other then 1 else 0 := by
    simp only [Count.invalidated, Store.call, apply, Step.map, invalidate]
    cases store.entries.contains other <;> rfl
  simp only [Operation.putKey?, Option.toList_none, List.filter_nil, List.length_nil] at hextent
  omega

/-- The invalidation of a pattern takes away the entries that it tells of. -/
theorem lost_invalidatePattern (store : Store) (now : Nat) (pattern : String) :
    store.lost now (.invalidatePattern pattern) = store.keysMatching pattern := by
  refine List.filter_congr fun key hkey => ?_
  have hfind : (store.apply now (.invalidatePattern pattern)).store.entries.find? key
      = if key ∈ store.keysMatching pattern then none else store.entries.find? key :=
    find?_foldl find?_drop _ store key
  have hmatch : key ∈ store.keysMatching pattern ↔
      Text.contains (Text.lowercase pattern.toList) (Text.lowercase key.toList) = true := by
    rw [keysMatching, List.mem_filter, and_iff_right hkey]
  have hcontains := (Table.contains_iff _ _).2 hkey
  rw [Table.contains] at hcontains ⊢
  -- Of the stored keys, exactly those go that the pattern matches.
  rw [hfind, Bool.eq_iff_iff, ← hmatch]
  by_cases hgone : key ∈ store.keysMatching pattern <;> simp [hgone, hcontains]

theorem lost_clear (store : Store) (now : Nat) :
    store.lost now .clear = store.entries.keys :=
  List.filter_eq_self.2 fun _ _ => rfl

/-- **Every loss has one cause**: the budget, a sweep, a read or a withdrawal. -/
theorem lost_call (store : Store) (call : Call) :
    Count.lost store call
      = Count.lostToBudget store call + Count.lostToSweep store call + Count.lostToRead store call
        + (Count.invalidated store call + Count.matched store call
          + Count.cleared store call) := by
  obtain ⟨now, operation⟩ := call
  have hquiet (hput : operation.putKey? = none)
      (hsize : (store.apply now operation).store.size = store.size) :
      Count.lost store ⟨now, operation⟩ = 0 := length_lost_of_size_eq hput hsize
  -- In each case, all counts but one are 0.
  cases operation with
  | get key => exact (length_lost_read rfl rfl).trans (Nat.zero_add _).symm
  | getWithTtl key => exact (length_lost_read rfl rfl).trans (Nat.zero_add _).symm
  | put key value ttl => rfl
  | invalidate key => exact (length_lost_invalidate store now key).trans (Nat.zero_add _).symm
  | invalidatePattern pattern =>
    have hlost := congrArg List.length (store.lost_invalidatePattern now pattern)
    refine hlost.trans ?_
    show _ = 0 + (0 + (store.keysMatching pattern).length)
    rw [Nat.zero_add, Nat.zero_add]
  | clear =>
    have hlost : Count.lost store ⟨now, .clear⟩ = store.size :=
      (congrArg List.length (store.lost_clear now)).trans (List.length_map _)
    refine hlost.trans ?_
    show _ = 0 + (0 + store.size)
    rw [Nat.zero_add, Nat.zero_add]
  | setBudget bytes => rfl
  | setBudgetMegabytes megabytes => rfl
  | setDefaultTtl seconds => exact hquiet rfl rfl
  | reconfigure budget defaultTtl =>
    cases budget with
    | none => exact hquiet rfl rfl
    | some bytes => rfl
  | sweep => exact (Nat.zero_add _).symm
  | statistics => exact hquiet rfl rfl
  | resetStatistics => exact hquiet rfl rfl
  | isEmpty => exact hquiet rfl rfl
  | hitCount key => exact hquiet rfl rfl

/-- The entries that count as evictions are those that are not withdrawn. -/
theorem evicted_call (store : Store) (call : Call) :
    (if call.operation.isWithdrawal then 0 else Count.lost store call)
      = Count.lostToBudget store call + Count.lostToSweep store call
        + Count.lostToRead store call := by
  have hlost := lost_call store call
  obtain ⟨now, operation⟩ := call
  cases operation <;> first | exact hlost | rfl

theorem evictions_call (store : Store) (call : Call) (hreset : call.operation ≠ .resetStatistics)
    (htop : store.statistics.evictions + (Count.lostToBudget store call
      + Count.lostToSweep store call + Count.lostToRead store call) ≤ Word.top) :
    (store.call call).store.statistics.evictions = store.statistics.evictions
      + (Count.lostToBudget store call + Count.lostToSweep store call
        + Count.lostToRead store call) := by
  rw [← evicted_call] at htop ⊢
  exact evictions_apply store call.now hreset htop

/-! ### Puts -/

/-- **Where a put entry is.** It adds to the extent, or it replaces one; and what the extent loses
    has gone for one of the causes. -/
theorem puts_call (store : Store) (call : Call) :
    Count.puts store call + store.size
      = (store.call call).store.size
        + (Count.lostToBudget store call + Count.lostToSweep store call
          + Count.lostToRead store call)
        + Count.replaced store call + Count.invalidated store call
        + Count.matched store call + Count.cleared store call := by
  have hextent := store.length_lost_add_size call.now call.operation
  have hlost := lost_call store call
  have hput : Count.puts store call = Count.replaced store call
      + (call.operation.putKey?.toList.filter fun key => !store.entries.contains key).length := by
    unfold Count.puts Count.replaced
    cases call.operation.putKey? with
    | none => rfl
    | some key => cases hcontains : store.entries.contains key <;> simp [hcontains]
  unfold Count.lost at hlost
  rw [Store.call]
  omega

theorem puts_after (store : Store) (calls : List Call) :
    store.total Count.puts calls + store.size
      = (store.after calls).size
        + (store.total Count.lostToBudget calls + store.total Count.lostToSweep calls
          + store.total Count.lostToRead calls)
        + store.total Count.replaced calls + store.total Count.invalidated calls
        + store.total Count.matched calls + store.total Count.cleared calls := by
  induction calls generalizing store with
  | nil => simp only [total, after]; omega
  | cons call calls ih =>
    have hcall := puts_call store call
    have hcalls := ih (store.call call).store
    simp only [total, after]
    omega

end Store

end BoundedCache
