import BoundedCache.Proofs.Store.Operation
import Mathlib.Data.List.Dedup
import Mathlib.Data.List.Induction

namespace BoundedCache

/-!
# Runs

A run is a list of calls, each an operation at a clock reading of its own; readings may also go back
from one call to the next.  `store.after calls` is the store at the end of a run and
`store.events calls` what was reported on the way.

`store.lineup calls` lists the stored rows by the position in the run of the latest use of their
keys, where a put and a successful read are uses.  It is read off the history of the run and knows
nothing of ticks.

`NoOverflow` is the condition that neither ticks nor byte counts come round: it bounds the uses of a
run and the bytes that are held at any time of it.
-/

/-- An operation at a clock reading. -/
structure Call where
  now : Nat
  operation : Operation

/-- The bytes that a call brings in. -/
def Call.bytes (call : Call) : Nat :=
  match call.operation with
  | .put _ value _ => value.size
  | _ => 0

/-- The last of the values that some calls set, or the initial one if none of them sets any. -/
def lastSet (initial : Nat) (set? : Operation → Option Nat) (calls : List Call) : Nat :=
  (calls.filterMap fun call => set? call.operation).getLastD initial

theorem lastSet_concat (initial : Nat) (set? : Operation → Option Nat) (calls : List Call)
    (call : Call) :
    lastSet initial set? (calls ++ [call])
      = (set? call.operation).getD (lastSet initial set? calls) := by
  unfold lastSet
  rw [List.filterMap_append]
  cases hset : set? call.operation with
  | none => simp [hset]
  | some n => simp [hset]

/-- Calls that set nothing leave the last value as it is. -/
theorem lastSet_append (initial : Nat) (set? : Operation → Option Nat) (calls : List Call)
    {more : List Call} (hmore : ∀ call ∈ more, set? call.operation = none) :
    lastSet initial set? (calls ++ more) = lastSet initial set? calls := by
  unfold lastSet
  rw [List.filterMap_append, List.filterMap_eq_nil_iff.2 hmore, List.append_nil]

namespace Store

/-- What a call gives. -/
def call (store : Store) (call : Call) : Step Reply := store.apply call.now call.operation

/-- The store after some calls. -/
def after (store : Store) : List Call → Store
  | [] => store
  | call :: calls => (store.call call).store.after calls

/-- The events of some calls. -/
def events (store : Store) : List Call → List Event
  | [] => []
  | call :: calls => (store.call call).events ++ (store.call call).store.events calls

/-- The keys that some calls use, one for each use. -/
def usedKeys (store : Store) : List Call → List String
  | [] => []
  | call :: calls => (call.operation.usedKey? (store.call call).result).toList
      ++ (store.call call).store.usedKeys calls

theorem after_append (store : Store) (calls more : List Call) :
    store.after (calls ++ more) = (store.after calls).after more := by
  induction calls generalizing store with
  | nil => rfl
  | cons call calls ih => exact ih _

theorem events_append (store : Store) (calls more : List Call) :
    store.events (calls ++ more) = store.events calls ++ (store.after calls).events more := by
  induction calls generalizing store with
  | nil => rfl
  | cons call calls ih => rw [List.cons_append, events, ih, events, after, List.append_assoc]

theorem usedKeys_append (store : Store) (calls more : List Call) :
    store.usedKeys (calls ++ more)
      = store.usedKeys calls ++ (store.after calls).usedKeys more := by
  induction calls generalizing store with
  | nil => rfl
  | cons call calls ih => rw [List.cons_append, usedKeys, ih, usedKeys, after, List.append_assoc]

/-- The last call of a run works on what the calls before it leave. -/
theorem after_concat (store : Store) (calls : List Call) (call : Call) :
    store.after (calls ++ [call]) = ((store.after calls).call call).store := store.after_append _ _

theorem events_concat (store : Store) (calls : List Call) (call : Call) :
    store.events (calls ++ [call])
      = store.events calls ++ ((store.after calls).call call).events := by
  rw [events_append, events, events, List.append_nil]

theorem usedKeys_concat (store : Store) (calls : List Call) (call : Call) :
    store.usedKeys (calls ++ [call]) = store.usedKeys calls
      ++ (call.operation.usedKey? ((store.after calls).call call).result).toList := by
  rw [usedKeys_append, usedKeys, usedKeys, List.append_nil]

/-- **The limits after a run** are those that its calls set last. -/
theorem settings_after (store : Store) (calls : List Call) :
    (store.after calls).settings = (lastSet store.budget Operation.newBudget? calls,
      lastSet store.defaultTtl Operation.newDefaultTtl? calls) := by
  induction calls using List.reverseRecOn with
  | nil => rfl
  | append_singleton calls call ih =>
    rw [settings, Prod.mk.injEq] at ih
    rw [after_concat, Store.call, settings_apply, ih.1, ih.2, lastSet_concat, lastSet_concat]

theorem budget_call (store : Store) (call : Call) :
    (store.call call).store.budget = call.operation.newBudget?.getD store.budget :=
  congrArg Prod.fst (store.settings_apply call.now call.operation)

theorem budget_after (store : Store) (calls : List Call) :
    (store.after calls).budget = lastSet store.budget Operation.newBudget? calls :=
  congrArg Prod.fst (store.settings_after calls)

theorem defaultTtl_after (store : Store) (calls : List Call) :
    (store.after calls).defaultTtl = lastSet store.defaultTtl Operation.newDefaultTtl? calls :=
  congrArg Prod.snd (store.settings_after calls)

/-- The stored rows by the latest use of their keys, the least recently used one first; `dedup`
    keeps the last one of several occurrences. -/
def lineup (store : Store) (calls : List Call) : List Row :=
  (store.usedKeys calls).dedup.filterMap fun key =>
    ((store.after calls).entries.find? key).map fun entry => (key, entry)

/-- **No word overflows**: a run has fewer uses than there are ticks, and what the cache holds
    fits a word before, between and after its calls. -/
structure NoOverflow (store : Store) (calls : List Call) : Prop where
  ticks : (store.usedKeys calls).length < Word.top
  bytes : ∀ earlier, earlier <+: calls → (store.after earlier).heldBytes ≤ Word.top

/-- What holds of a run holds of its beginning. -/
theorem NoOverflow.of_append {store : Store} {calls more : List Call}
    (h : store.NoOverflow (calls ++ more)) : store.NoOverflow calls where
  ticks := by
    have hticks := h.ticks
    rw [usedKeys_append, List.length_append] at hticks
    omega
  bytes := fun earlier hearlier => h.bytes earlier (hearlier.trans (List.prefix_append _ _))

/-! ### Bytes along a run -/

/-- **The accounting is right after every run** whose bytes fit a word all the time. -/
theorem accounted_after {store : Store} (h : store.Accounted) (calls : List Call)
    (hbytes : ∀ earlier, earlier <+: calls → (store.after earlier).heldBytes ≤ Word.top) :
    (store.after calls).Accounted := by
  induction calls using List.reverseRecOn with
  | nil => exact h
  | append_singleton calls call ih =>
    have hcalls := ih fun earlier hearlier =>
      hbytes earlier (hearlier.trans (List.prefix_append _ _))
    have hbefore := hbytes calls (List.prefix_append _ _)
    have hafter := hbytes (calls ++ [call]) (List.prefix_refl _)
    rw [after_concat] at hafter ⊢
    exact accounted_apply hcalls hbefore call.now call.operation hafter

/-! ### A sufficient condition -/

theorem heldBytes_call_le (store : Store) (call : Call) :
    (store.call call).store.heldBytes ≤ store.heldBytes + call.bytes := by
  obtain ⟨now, operation⟩ := call
  rcases frees_or_files store now operation with
    hfrees | ⟨key, value, ttl, last, rfl, hfrees, hnone, hstore⟩
  · exact Nat.le_add_right_of_le hfrees.held_le
  · show (store.apply now (.put key value ttl)).store.heldBytes ≤ _
    rw [hstore, heldBytes_filed now value _ hnone]
    exact Nat.add_le_add_right hfrees.held_le _

theorem heldBytes_after_le (store : Store) (calls : List Call) :
    (store.after calls).heldBytes ≤ store.heldBytes + (calls.map Call.bytes).sum := by
  induction calls generalizing store with
  | nil => exact Nat.le_refl _
  | cons call calls ih =>
    have hcall := store.heldBytes_call_le call
    have hcalls := ih (store.call call).store
    rw [after, List.map_cons, List.sum_cons]
    omega

theorem length_usedKeys_le (store : Store) (calls : List Call) :
    (store.usedKeys calls).length ≤ calls.length := by
  induction calls generalizing store with
  | nil => exact Nat.le_refl _
  | cons call calls ih =>
    have hcalls := ih (store.call call).store
    rw [usedKeys, List.length_append, List.length_cons]
    cases call.operation.usedKey? (store.call call).result <;> simp <;> omega

/-- **A short run of small payloads does not overflow.** -/
theorem NoOverflow.of_sum_le {budget defaultTtl : Nat} {calls : List Call}
    (hcount : calls.length < Word.top) (hbytes : (calls.map Call.bytes).sum ≤ Word.top) :
    (Store.new budget defaultTtl).NoOverflow calls where
  ticks := Nat.lt_of_le_of_lt (length_usedKeys_le _ calls) hcount
  bytes := by
    rintro earlier ⟨later, rfl⟩
    -- At no time the store holds more than was put up to then.
    have hheld := heldBytes_after_le (Store.new budget defaultTtl) earlier
    have hfresh : (Store.new budget defaultTtl).heldBytes = 0 := rfl
    rw [List.map_append, List.sum_append] at hbytes
    omega

end Store

end BoundedCache
