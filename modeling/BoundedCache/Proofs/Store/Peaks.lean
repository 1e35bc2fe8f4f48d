import BoundedCache.Proofs.Store.Holding
import Mathlib.Algebra.Order.BigOperators.Group.List
import Mathlib.Data.List.Dedup
import Mathlib.Data.List.MinMax

namespace BoundedCache

/-!
# Room for the largest sizes

When the largest sizes that the keys ever have fit the budget together, nothing ever has to go.
`store.peak calls key` is the largest size of a key, and `store.keysWith calls` are the keys that
have one: those that are stored and those that are put.

`Spacious` is the invariant.  It gives every put its room (`Spacious.hasRoom`), and every action on
a key keeps it (`Spacious.apply`).
-/

/-! ### Calls and their sizes -/

/-- An action with the key that it is on. -/
structure KeyCall where
  key : String
  action : KeyAction

/-- A call as an operation. -/
def KeyCall.operation (call : KeyCall) : Operation := call.action.on call.key

/-- The bytes that a call puts, if it is a put. -/
def KeyCall.size? (call : KeyCall) : Option Nat :=
  match call.action with
  | .put value _ => some value.size
  | _ => none

/-- What an action leaves for its key has the size of what it puts, or of what was there. -/
theorem KeyAction.size_of_outcome {now defaultTtl : Nat} {held : Option Holding}
    {action : KeyAction} {found : Holding}
    (hfound : (action.outcome now defaultTtl held).held = some found) :
    (∃ value ttl, action = .put value ttl ∧ found.size = value.size)
      ∨ ∃ old, held = some old ∧ found.size = old.size := by
  have hread (reply : Option (Json.Payload × Nat) → Reply)
      (hread : (readOutcome now reply held).held = some found) :
      ∃ old, held = some old ∧ found.size = old.size := by
    cases held with
    | none => exact absurd hread (by simp [readOutcome])
    | some old =>
      rw [readOutcome] at hread
      split at hread
      · exact absurd hread (by simp)
      · exact ⟨old, rfl, by rw [← Option.some.inj hread]; rfl⟩
  cases action with
  | get => exact .inr (hread _ hfound)
  | getWithTtl => exact .inr (hread _ hfound)
  | put value ttl => exact .inl ⟨value, ttl, rfl, by rw [← Option.some.inj hfound]; rfl⟩
  | invalidate => exact absurd hfound (by simp [outcome])

namespace Store

/-- The sizes of a key: what it has in the store, and what some calls put. -/
def sizesOf (store : Store) (calls : List KeyCall) (key : String) : List Nat :=
  ((store.holding? key).map Holding.size).toList
    ++ (calls.filter fun call => call.key = key).filterMap KeyCall.size?

/-- The largest size of a key. -/
def peak (store : Store) (calls : List KeyCall) (key : String) : Nat :=
  (store.sizesOf calls key).foldr max 0

/-- The keys that are stored or that some calls put. -/
def keysWith (store : Store) (calls : List KeyCall) : List String :=
  (store.entries.keys ++ (calls.filter fun call => call.size?.isSome).map KeyCall.key).dedup

/-! ### The sum of the largest sizes -/

/-- Rows with distinct keys out of `keys`, none of them larger than the bound of its key, count for
    no more than all bounds together. -/
theorem totalSize_le_sum {rows : List Row} {keys : List String} {bound : String → Nat}
    (hnodup : (rows.map Prod.fst).Nodup)
    (hrows : ∀ row ∈ rows, row.1 ∈ keys ∧ row.2.size ≤ bound row.1) :
    totalSize rows ≤ (keys.map bound).sum := by
  have hsubset : rows.map Prod.fst ⊆ keys := by
    intro key hkey
    obtain ⟨row, hrow, rfl⟩ := List.mem_map.1 hkey
    exact (hrows row hrow).1
  obtain ⟨part, hperm, hsublist⟩ := List.subperm_of_subset hnodup hsubset
  calc totalSize rows
      ≤ (rows.map fun row => bound row.1).sum :=
        List.sum_le_sum fun row hrow => (hrows row hrow).2
    _ = ((rows.map Prod.fst).map bound).sum := by rw [List.map_map]; rfl
    _ = (part.map bound).sum := ((hperm.map bound).sum_eq).symm
    _ ≤ (keys.map bound).sum := (hsublist.map bound).sum_le_sum fun _ _ => Nat.zero_le _

/-- Whether all that a store holds is of certain keys and within a bound for each of them. -/
def BoundedBy (store : Store) (keys : List String) (bound : String → Nat) : Prop :=
  ∀ key held, store.holding? key = some held → key ∈ keys ∧ held.size ≤ bound key

variable {store : Store} {keys : List String} {bound : String → Nat}

theorem BoundedBy.heldBytes_le (h : store.BoundedBy keys bound) :
    store.heldBytes ≤ (keys.map bound).sum :=
  totalSize_le_sum store.entries.nodup fun row hrow =>
    h row.1 row.2.holding (by rw [holding?, (Table.mem_rows_iff _ _ _).1 hrow, Option.map_some])

theorem BoundedBy.of_holding? {store' : Store} (h : store.BoundedBy keys bound) (key : String)
    (held : Option Holding)
    (hholding : ∀ other, store'.holding? other = if other = key then held else store.holding? other)
    (hheld : ∀ found, held = some found → key ∈ keys ∧ found.size ≤ bound key) :
    store'.BoundedBy keys bound := by
  intro other found hfound
  rw [hholding] at hfound
  split at hfound
  · next heq => rw [heq]; exact hheld found hfound
  · exact h other found hfound

theorem BoundedBy.drop (h : store.BoundedBy keys bound) (key : String) :
    (store.drop key).BoundedBy keys bound := by
  refine h.of_holding? key none (fun other => ?_) (by simp)
  rw [holding?, find?_drop]
  split <;> rfl

theorem BoundedBy.filed (h : store.BoundedBy keys bound) (now : Nat) {key : String}
    {value : Json.Payload} (lifetime : Nat) (hkey : key ∈ keys) (hsize : value.size ≤ bound key) :
    (store.filed now key value lifetime).BoundedBy keys bound := by
  refine h.of_holding? key (some (.new value now lifetime)) (fun other => ?_) ?_
  · refine (congrArg (Option.map Entry.holding) (Table.find?_insert _ _ _ _)).trans ?_
    split <;> rfl
  · intro found hfound
    rw [← Option.some.inj hfound]
    exact ⟨hkey, hsize⟩

/-! ### The invariant -/

/-- Whether what a call puts is of one of some keys and within the bound for it. -/
def Admits (keys : List String) (bound : String → Nat) (call : KeyCall) : Prop :=
  ∀ size, call.size? = some size → call.key ∈ keys ∧ size ≤ bound call.key

/-- **There is room for everything**: what is held keeps within bounds that fit the budget
    together, and the byte count is right. -/
structure Spacious (store : Store) (keys : List String) (bound : String → Nat) : Prop where
  bounded : store.BoundedBy keys bound
  sum_le : (keys.map bound).sum ≤ store.budget
  budget_le : store.budget ≤ Word.top
  accounted : store.Accounted

theorem Spacious.heldBytes_le (h : store.Spacious keys bound) : store.heldBytes ≤ Word.top :=
  h.bounded.heldBytes_le.trans (h.sum_le.trans h.budget_le)

theorem Spacious.hasRoom (h : store.Spacious keys bound) {call : KeyCall}
    (hcall : Admits keys bound call) : store.HasRoom call.key call.action := by
  obtain ⟨key, action⟩ := call
  cases action with
  | put value ttl =>
    obtain ⟨hkey, hsize⟩ := hcall value.size rfl
    have hnone : (store.drop key).entries.find? key = none := by rw [find?_drop, if_pos rfl]
    -- The store with the payload is within the bounds as well.
    have hfiled := ((h.bounded.drop key).filed 0 0 hkey hsize).heldBytes_le
    rw [heldBytes_filed 0 value 0 hnone] at hfiled
    have hused := ((frees_drop store key).accounted h.heldBytes_le h.accounted).used_eq
    have hsum := h.sum_le
    have hbudget := budget_drop store key
    refine ⟨decide_eq_true ?_, by omega⟩
    rw [hused, hbudget]
    exact (Nat.min_le_left _ _).trans (by omega)
  | get => trivial
  | getWithTtl => trivial
  | invalidate => trivial

theorem settings_on (store : Store) (now : Nat) (call : KeyCall) :
    (store.apply now call.operation).store.settings = store.settings := by
  obtain ⟨key, action⟩ := call
  rw [settings_apply]
  cases action <;> rfl

/-- **Every call keeps the room.** -/
theorem Spacious.apply (h : store.Spacious keys bound) (now : Nat) {call : KeyCall}
    (hcall : Admits keys bound call) :
    (store.apply now call.operation).store.Spacious keys bound := by
  have hserves := store.serves_on now call.key call.action (h.hasRoom hcall)
  have hbudget : (store.apply now call.operation).store.budget = store.budget :=
    congrArg Prod.fst (store.settings_on now call)
  have hbounded : (store.apply now call.operation).store.BoundedBy keys bound := by
    refine h.bounded.of_holding? _ _ hserves.holding_eq fun found hfound => ?_
    rcases KeyAction.size_of_outcome hfound with ⟨value, ttl, haction, hsize⟩ | ⟨old, hold, hsize⟩
    · rw [hsize]
      exact hcall value.size (by rw [KeyCall.size?, haction])
    · rw [hsize]
      exact h.bounded _ _ hold
  refine ⟨hbounded, hbudget ▸ h.sum_le, hbudget ▸ h.budget_le, ?_⟩
  refine accounted_apply h.accounted h.heldBytes_le now call.operation ?_
  exact hbounded.heldBytes_le.trans (h.sum_le.trans h.budget_le)

/-! ### The largest sizes as bounds -/

theorem admits_peak (store : Store) {calls : List KeyCall} {call : KeyCall} (hcall : call ∈ calls) :
    Admits (store.keysWith calls) (store.peak calls) call := by
  intro size hsize
  constructor
  · rw [keysWith, List.mem_dedup, List.mem_append]
    exact .inr (List.mem_map_of_mem (List.mem_filter.2 ⟨hcall, by rw [hsize]; rfl⟩))
  · refine List.le_max_of_le' 0 (List.mem_append.2 (.inr (List.mem_filterMap.2 ⟨call, ?_, hsize⟩)))
      (Nat.le_refl _)
    exact List.mem_filter.2 ⟨hcall, decide_eq_true rfl⟩

theorem boundedBy_peak (store : Store) (calls : List KeyCall) :
    store.BoundedBy (store.keysWith calls) (store.peak calls) := by
  intro key held hheld
  constructor
  · obtain ⟨entry, hentry, -⟩ := Option.map_eq_some_iff.1 hheld
    rw [keysWith, List.mem_dedup, List.mem_append, Table.mem_keys_iff]
    exact .inl ⟨entry, hentry⟩
  · refine List.le_max_of_le' 0 (List.mem_append.2 (.inl ?_)) (Nat.le_refl held.size)
    rw [hheld]
    exact List.mem_singleton_self _

end Store

end BoundedCache
