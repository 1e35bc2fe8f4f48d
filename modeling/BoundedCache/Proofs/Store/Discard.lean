import BoundedCache.Proofs.Store.Removal

namespace BoundedCache

/-!
# Removals as discarded rows

Invalidations and sweeps only take entries away: an `Operation.isRemoval` takes exactly the rows
that it hits (`Operation.takes`).  They differ in what they count, and in nothing else:

* `withoutEvictions_removal` — a removal discards the rows that it hits, if the counter of evictions
  is left out of account;
* `discard_discard` — to discard rows of one kind and then of another is to discard the rows of
  either kind, so nothing depends on which comes first;
* `removed_removal`, `evictions_removal` — what the reply tells, and what is counted.
-/

namespace Operation

/-- Whether an operation does nothing but take entries away, and not all of them. -/
def isRemoval : Operation → Bool
  | .invalidate _ => true
  | .invalidatePattern _ => true
  | .sweep => true
  | _ => false

/-- Whether an operation is a sweep. -/
def isSweep : Operation → Bool
  | .sweep => true
  | _ => false

/-- Whether a removal at a clock reading hits a row. -/
def takes (now : Nat) : Operation → Row → Bool
  | .invalidate key, row => row.1 == key
  | .invalidatePattern pattern, row =>
    Text.contains (Text.lowercase pattern.toList) (Text.lowercase row.1.toList)
  | .sweep, row => row.2.isDue now
  | _, _ => false

/-- A removal is no use of a key. -/
theorem usedKey?_removal {operation : Operation} (hremoval : operation.isRemoval = true)
    (reply : Reply) : operation.usedKey? reply = none := by
  cases operation with
  | invalidate key => rfl
  | invalidatePattern pattern => rfl
  | sweep => rfl
  | _ => simp [isRemoval] at hremoval

end Operation

/-- The number of entries that the reply to a removal tells of; a flag that is set tells of one. -/
def Reply.removed : Reply → Nat
  | .flag b => b.toNat
  | .count n => n
  | _ => 0

/-! ### Filters one after another -/

section Filters

variable {α : Type} (p q : α → Bool) (l : List α)

/-- What one filter finds, and what another one finds in the rest, is what either of them finds. -/
theorem filter_append_filter_perm :
    (l.filter p ++ (l.filter fun x => !p x).filter q).Perm (l.filter fun x => p x || q x) := by
  have hfirst : (l.filter fun x => p x || q x).filter p = l.filter p := by
    rw [List.filter_filter]
    exact List.filter_congr fun x _ => by cases p x <;> simp
  have hsecond : ((l.filter fun x => p x || q x).filter fun x => !p x)
      = (l.filter fun x => !p x).filter q := by
    rw [List.filter_filter, List.filter_filter]
    exact List.filter_congr fun x _ => by cases p x <;> simp
  rw [← hfirst, ← hsecond]
  exact List.filter_append_perm p _

theorem length_filter_add_length_filter :
    (l.filter p).length + ((l.filter fun x => !p x).filter q).length
      = (l.filter fun x => p x || q x).length := by
  rw [← List.length_append, (filter_append_filter_perm p q l).length_eq]

/-- What a filter finds is counted or not, and what a later one finds in the rest is counted. -/
theorem length_filter_and_add (counts : Bool) :
    (l.filter fun x => counts && p x).length + ((l.filter fun x => !p x).filter q).length
      = (l.filter fun x => (counts && p x) || (!p x && q x)).length := by
  rw [← length_filter_add_length_filter]
  have hrest : ((l.filter fun x => !(counts && p x)).filter fun x => !p x && q x)
      = (l.filter fun x => !p x).filter q := by
    rw [List.filter_filter, List.filter_filter]
    exact List.filter_congr fun x _ => by cases p x <;> simp
  rw [hrest]

/-- If each element of one kind is of one of two others, it is counted with them. -/
theorem length_filter_le_add {r : α → Bool} (h : ∀ x, r x = true → p x = true ∨ q x = true) :
    (l.filter r).length ≤ (l.filter p).length + (l.filter q).length := by
  have hsub : (l.filter r).length ≤ (l.filter fun x => p x || q x).length :=
    (List.monotone_filter_right l fun x hx => by simpa using h x hx).length_le
  have hsplit := length_filter_add_length_filter p q l
  have hrest : ((l.filter fun x => !p x).filter q).length ≤ (l.filter q).length :=
    (List.filter_sublist.filter q).length_le
  omega

end Filters

namespace Store

variable {store : Store} {now : Nat} {operation : Operation}

/-! ### Discarding -/

/-- The store without the rows of a kind. -/
def discard (store : Store) (kind : Row → Bool) : Store :=
  (store.removeKind drop kind store.entries.rows).store

theorem rows_discard (store : Store) (kind : Row → Bool) :
    (store.discard kind).entries.rows = store.entries.rows.filter fun row => !kind row :=
  removal_drop.rows_removeKind store kind

theorem discard_none (store : Store) : (store.discard fun _ => false) = store := by
  simp [discard, removeKind]

/-- **One kind after another** is either kind at once. -/
theorem discard_discard (store : Store) (kind kind' : Row → Bool) :
    (store.discard kind).discard kind' = store.discard fun row => kind row || kind' row := by
  have hkeys := (filter_append_filter_perm kind kind' store.entries.rows).map Prod.fst
  rw [List.map_append] at hkeys
  calc (store.discard kind).discard kind'
      = (((store.entries.rows.filter fun row => !kind row).filter kind').map Prod.fst).foldl drop
          (store.discard kind) := by
        rw [← rows_discard]
        rfl
    _ = ((store.entries.rows.filter kind).map Prod.fst
          ++ ((store.entries.rows.filter fun row => !kind row).filter kind').map Prod.fst).foldl
            drop store := by
        rw [List.foldl_append]
        rfl
    _ = store.discard fun row => kind row || kind' row :=
        hkeys.foldl_eq' (fun key _ other _ store => removal_drop.right_comm store key other) store

/-- The row of a key, if there is one, is the rows of the kind that has this key. -/
theorem drop_eq_discard (store : Store) (key : String) :
    store.drop key = store.discard fun row => row.1 == key := by
  simp only [discard, removeKind, Table.filter_key_eq]
  cases hfind : store.entries.find? key with
  | none => exact drop_of_find?_eq_none hfind
  | some entry => rfl

/-! ### The counter of evictions left out -/

/-- The store as it is when no eviction has been counted. -/
def withoutEvictions (store : Store) : Store :=
  { store with statistics := { store.statistics with evictions := 0 } }

theorem withoutEvictions_drop (store : Store) (key : String) :
    (store.drop key).withoutEvictions = store.withoutEvictions.drop key := by
  cases hfind : store.entries.find? key with
  | none =>
    rw [drop_of_find?_eq_none hfind, drop_of_find?_eq_none]
    exact hfind
  | some entry =>
    have hfind' : store.withoutEvictions.entries.find? key = some entry := hfind
    rw [drop_of_find? hfind, drop_of_find? hfind']
    rfl

/-- A removal that counts is a removal that does not. -/
theorem withoutEvictions_expel (store : Store) (key : String) :
    (store.expel key).withoutEvictions = store.withoutEvictions.drop key := by
  rw [← withoutEvictions_drop]
  cases hfind : store.entries.find? key with
  | none => rw [expel_of_find?_eq_none hfind, drop_of_find?_eq_none hfind]
  | some entry =>
    rw [expel_of_find? hfind, drop_of_find? hfind]
    rfl

theorem withoutEvictions_removeKind {remove : Store → String → Store}
    (hremove : ∀ store key, (remove store key).withoutEvictions = store.withoutEvictions.drop key)
    (store : Store) (kind : Row → Bool) :
    (store.removeKind remove kind store.entries.rows).store.withoutEvictions
      = store.withoutEvictions.discard kind :=
  (List.foldl_hom withoutEvictions fun store key => (hremove store key).symm).symm

/-! ### One removal -/

/-- **A removal discards the rows that it hits.** -/
theorem withoutEvictions_removal (store : Store) (now : Nat)
    (hremoval : operation.isRemoval = true) :
    (store.apply now operation).store.withoutEvictions
      = store.withoutEvictions.discard (operation.takes now) := by
  cases operation with
  | invalidate key => exact (withoutEvictions_drop store key).trans (drop_eq_discard _ key)
  | invalidatePattern pattern =>
    simp only [apply, Step.map, invalidatePattern_eq]
    exact withoutEvictions_removeKind withoutEvictions_drop store _
  | sweep => exact withoutEvictions_removeKind withoutEvictions_expel store _
  | _ => simp [Operation.isRemoval] at hremoval

theorem rows_removal (store : Store) (now : Nat) (hremoval : operation.isRemoval = true) :
    (store.apply now operation).store.entries.rows
      = store.entries.rows.filter fun row => !operation.takes now row := by
  have hentries := congrArg entries (withoutEvictions_removal store now hremoval)
  exact (congrArg Table.rows hentries).trans (rows_discard _ _)

/-- The reply tells of the rows that are hit. -/
theorem removed_removal (store : Store) (now : Nat) (hremoval : operation.isRemoval = true) :
    (store.apply now operation).result.removed
      = (store.entries.rows.filter (operation.takes now)).length := by
  cases operation with
  | invalidate key =>
    show (store.entries.contains key).toNat = (store.entries.rows.filter fun row => _).length
    simp only [Operation.takes, Table.filter_key_eq, Table.contains]
    cases store.entries.find? key <;> rfl
  | invalidatePattern pattern =>
    simp only [apply, Step.map, invalidatePattern_eq]
    exact List.length_map _
  | sweep => exact List.length_map _
  | _ => simp [Operation.isRemoval] at hremoval

/-- A sweep counts the rows that it hits, and an invalidation counts none. -/
theorem evictions_removal (now : Nat) (hremoval : operation.isRemoval = true)
    (htop : store.statistics.evictions + store.size ≤ Word.top) :
    (store.apply now operation).store.statistics.evictions = store.statistics.evictions
      + (store.entries.rows.filter fun row =>
          operation.isSweep && operation.takes now row).length := by
  cases operation with
  | invalidate key =>
    simp only [Operation.isSweep, Bool.false_and, List.filter_false, List.length_nil, Nat.add_zero]
    exact evictions_drop store key
  | invalidatePattern pattern =>
    simp only [Operation.isSweep, Bool.false_and, List.filter_false, List.length_nil, Nat.add_zero]
    exact foldl_eq (·.statistics.evictions) evictions_drop _ store
  | sweep =>
    simp only [Operation.isSweep, Bool.true_and]
    have hresult := removed_removal store now hremoval
    have hresult_add : (store.sweep now).result + (store.sweep now).store.size = store.size := by
      have hrows := congrArg List.length (rows_removal store now hremoval)
      have hlength := List.length_eq_length_filter_add (l := store.entries.rows)
        (Operation.sweep.takes now)
      change (store.sweep now).store.size = _ at hrows
      change (store.sweep now).result = _ at hresult
      rw [hresult, hrows]
      exact hlength.symm
    rw [← hresult]
    exact evictions_sweep store now htop hresult_add
  | _ => simp [Operation.isRemoval] at hremoval

end Store

end BoundedCache
