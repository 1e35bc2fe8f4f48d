import BoundedCache.Proofs.Store.Change
import Mathlib.Algebra.BigOperators.Group.List.Basic
import Mathlib.Algebra.Order.Ring.Nat

namespace BoundedCache

/-!
# The byte count is exact

`Accounted store` says that a store counts its bytes and its entries right:

* `used_eq` — the running byte count is the sum over the entries;
* `size_eq` — every entry counts for the bytes of its payload's text;
* `extent_eq` — the statistics know the number of entries.

None of it depends on the order of use, so it survives even where ticks have come round.  The only
thing it needs is that sums fit a word.  `store.Frees store'` collects what holds of every change
but an insertion: it brings no bytes in, so it keeps the accounting right without a further
condition.
-/

/-- The bytes that rows count for together. -/
def totalSize (rows : List Row) : Nat := (rows.map fun row => row.2.size).sum

@[simp] theorem totalSize_nil : totalSize [] = 0 := rfl

@[simp] theorem totalSize_cons (row : Row) (rows : List Row) :
    totalSize (row :: rows) = row.2.size + totalSize rows := by
  simp only [totalSize, List.map_cons, List.sum_cons]

theorem totalSize_append (rows more : List Row) :
    totalSize (rows ++ more) = totalSize rows + totalSize more := by
  simp only [totalSize, List.map_append, List.sum_append]

theorem totalSize_perm {rows rows' : List Row} (hperm : rows.Perm rows') :
    totalSize rows = totalSize rows' := (hperm.map _).sum_eq

namespace Store

/-- The bytes that the entries of a store count for together. -/
def heldBytes (store : Store) : Nat := totalSize store.entries.rows

/-- What a store says about its own extent is right. -/
structure Accounted (store : Store) : Prop where
  used_eq : store.usedBytes = store.heldBytes
  size_eq : ∀ key entry, store.entries.find? key = some entry → entry.size = entry.value.size
  extent_eq : store.statistics.size = store.size

theorem accounted_new (budget defaultTtl : Nat) : (Store.new budget defaultTtl).Accounted where
  used_eq := rfl
  size_eq := fun key entry hfind => by simp [Store.new] at hfind
  extent_eq := rfl

variable {store : Store} {key : String} {entry : Entry}

/-- Only the entries, the byte count and the noted extent matter. -/
theorem Accounted.congr {store' : Store} (h : store.Accounted)
    (hentries : store'.entries = store.entries) (hused : store'.usedBytes = store.usedBytes)
    (hextent : store'.statistics.size = store.statistics.size) : store'.Accounted where
  used_eq := by rw [hused, h.used_eq, heldBytes, heldBytes, hentries]
  size_eq := by rw [hentries]; exact h.size_eq
  extent_eq := by rw [hextent, h.extent_eq, size, size, hentries]

/-! ### Removals -/

theorem heldBytes_without (hfind : store.entries.find? key = some entry) :
    (store.without key entry).heldBytes + entry.size = store.heldBytes := by
  rw [heldBytes, heldBytes, totalSize_perm (Table.perm_cons_erase hfind), totalSize_cons,
    Nat.add_comm]
  rfl

theorem Accounted.without (h : store.Accounted) (hheld : store.heldBytes ≤ Word.top)
    (hfind : store.entries.find? key = some entry) : (store.without key entry).Accounted where
  used_eq := by
    have hheld' := heldBytes_without hfind
    -- The entry is part of the sum, so the difference does not come round.
    show Word.subWrap store.usedBytes entry.size = _
    rw [h.used_eq, Word.subWrap_eq_sub hheld (by omega)]
    omega
  size_eq := by
    intro other found hother
    have hother' : (store.entries.erase key).find? other = some found := hother
    rw [Table.find?_erase] at hother'
    by_cases hkey : other = key
    · simp [hkey] at hother'
    · rw [if_neg hkey] at hother'
      exact h.size_eq other found hother'
  extent_eq := rfl

/-- `store.Frees store'`: on the way to `store'` no bytes come in, the accounting stays right, and
    no eviction is counted unless an entry goes for it. -/
structure Frees (store store' : Store) : Prop where
  held_le : store'.heldBytes ≤ store.heldBytes
  accounted : store.heldBytes ≤ Word.top → store.Accounted → store'.Accounted
  evictions_le : store.statistics.evictions + store.size ≤ Word.top →
    store'.statistics.evictions + store'.size ≤ store.statistics.evictions + store.size

theorem Frees.refl (store : Store) : store.Frees store :=
  ⟨Nat.le_refl _, fun _ h => h, fun _ => Nat.le_refl _⟩

theorem Frees.trans {store store' store'' : Store} (h : store.Frees store')
    (h' : store'.Frees store'') : store.Frees store'' where
  held_le := Nat.le_trans h'.held_le h.held_le
  accounted := fun hheld haccounted =>
    h'.accounted (Nat.le_trans h.held_le hheld) (h.accounted hheld haccounted)
  evictions_le := fun htop =>
    have hle := h.evictions_le htop
    Nat.le_trans (h'.evictions_le (Nat.le_trans hle htop)) hle

/-- A change that leaves the entries and what is said about them alone frees nothing. -/
theorem Frees.of_eq {store' : Store} (hentries : store'.entries = store.entries)
    (hused : store'.usedBytes = store.usedBytes)
    (hextent : store'.statistics.size = store.statistics.size)
    (hevictions : store'.statistics.evictions ≤ store.statistics.evictions) :
    store.Frees store' where
  held_le := Nat.le_of_eq (by rw [heldBytes, heldBytes, hentries])
  accounted := fun _ h => h.congr hentries hused hextent
  evictions_le := fun _ => by
    rw [size, size, hentries]
    omega

theorem frees_without (hfind : store.entries.find? key = some entry) :
    store.Frees (store.without key entry) where
  held_le := by
    have hheld := heldBytes_without hfind
    omega
  accounted := fun hheld h => h.without hheld hfind
  evictions_le := fun _ => by
    have hsize := size_without hfind
    show store.statistics.evictions + (store.without key entry).size ≤ _
    omega

/-- An eviction counts as the entry that goes for it. -/
theorem frees_countEviction (hfind : store.entries.find? key = some entry) :
    store.Frees (store.without key entry).countEviction where
  held_le := (frees_without hfind).held_le
  accounted := fun hheld h => (h.without hheld hfind).congr rfl rfl rfl
  evictions_le := fun htop => by
    have hsize := size_without hfind
    -- One entry less pays for one eviction more.
    show Word.succWrap store.statistics.evictions + (store.without key entry).size ≤ _
    rw [Word.succWrap, Word.addWrap_eq_add (by omega)]
    omega

theorem frees_drop (store : Store) (key : String) : store.Frees (store.drop key) := by
  cases hfind : store.entries.find? key with
  | none => rw [drop_of_find?_eq_none hfind]; exact .refl _
  | some entry => rw [drop_of_find? hfind]; exact frees_without hfind

theorem evictions_drop (store : Store) (key : String) :
    (store.drop key).statistics.evictions = store.statistics.evictions := by
  cases hfind : store.entries.find? key with
  | none => rw [drop_of_find?_eq_none hfind]
  | some entry => rw [drop_of_find? hfind]; rfl

theorem frees_expel (store : Store) (key : String) : store.Frees (store.expel key) := by
  cases hfind : store.entries.find? key with
  | none => rw [expel_of_find?_eq_none hfind]; exact .refl _
  | some entry => rw [expel_of_find? hfind]; exact frees_countEviction hfind

theorem frees_foldl {remove : Store → String → Store}
    (hfrees : ∀ store key, Frees store (remove store key)) (keys : List String) (store : Store) :
    store.Frees (keys.foldl remove store) := by
  induction keys generalizing store with
  | nil => exact .refl _
  | cons key keys ih => exact (hfrees store key).trans (ih _)

theorem frees_clear (store : Store) : store.Frees store.clear.store where
  held_le := Nat.zero_le _
  evictions_le := fun _ => Nat.add_le_add_left (Nat.zero_le _) _
  accounted := fun _ _ =>
    { used_eq := rfl
      size_eq := fun key entry hfind => by simp [clear] at hfind
      extent_eq := rfl }

/-! ### Reads -/

theorem heldBytes_touched (now : Nat) (hfind : store.entries.find? key = some entry) :
    (store.touched now key entry).heldBytes = store.heldBytes := by
  have hafter := totalSize_perm (Table.perm_modify hfind (·.touch now store.recency.next))
  have hbefore := totalSize_perm (Table.perm_cons_erase hfind)
  rw [totalSize_cons] at hafter hbefore
  exact hafter.trans hbefore.symm

theorem size_touched (store : Store) (now : Nat) (key : String) (entry : Entry) :
    (store.touched now key entry).size = store.size := List.length_map _

theorem frees_touched (now : Nat) (hfind : store.entries.find? key = some entry) :
    store.Frees (store.touched now key entry) where
  held_le := Nat.le_of_eq (heldBytes_touched now hfind)
  accounted := fun _ h =>
    { used_eq := by rw [heldBytes_touched now hfind, ← h.used_eq]; rfl
      size_eq := by
        intro other found hother
        have hother' : (store.entries.modify key (·.touch now store.recency.next)).find? other
            = some found := hother
        rw [Table.find?_modify] at hother'
        -- A read changes neither the payload nor the size of the entry that it touches.
        split at hother'
        · rw [Option.map_eq_some_iff] at hother'
          obtain ⟨before, hbefore, rfl⟩ := hother'
          exact h.size_eq other before hbefore
        · exact h.size_eq other found hother'
      extent_eq := h.extent_eq.trans (size_touched store now key entry).symm }
  evictions_le := fun _ => Nat.le_of_eq (congrArg _ (size_touched store now key entry))

theorem frees_read (store : Store) (now : Nat) (key : String) :
    store.Frees (store.read now key).store := by
  cases hfind : store.entries.find? key with
  | none => rw [read_of_find?_eq_none now hfind]; exact .of_eq rfl rfl rfl (Nat.le_refl _)
  | some entry =>
    by_cases hexpired : entry.expiresAt < now
    · rw [read_of_expired hfind hexpired]
      exact (frees_countEviction hfind).trans (.of_eq rfl rfl rfl (Nat.le_refl _))
    · rw [read_of_live hfind (by omega)]
      exact frees_touched now hfind

/-! ### Evictions -/

theorem frees_evicting (recency : Recency) {row : Row}
    (hfind : store.entries.find? row.1 = some row.2) : store.Frees (store.evicting recency row) :=
  have hrecency : store.Frees { store with recency } := .of_eq rfl rfl rfl (Nat.le_refl _)
  have hcount : ({ store with recency } : Store).Frees (store.evicting recency row) :=
    frees_countEviction hfind
  hrecency.trans hcount

end Store

namespace MakesRoom

open Store

variable {incoming : Nat} {store last : Store} {gone : List Row}

theorem frees (h : MakesRoom incoming store gone last) : store.Frees last := by
  induction h with
  | fits _ => exact .refl _
  | exhausted _ _ => exact .refl _
  | evict _ _ hfind _ ih => exact (frees_evicting _ hfind).trans ih

end MakesRoom

namespace Store

variable {store : Store} {key : String}

/-! ### Insertions -/

theorem heldBytes_filed (now : Nat) (value : Json.Payload) (lifetime : Nat)
    (hnone : store.entries.find? key = none) :
    (store.filed now key value lifetime).heldBytes = store.heldBytes + value.size := by
  show totalSize ((store.entries.erase key).rows ++ [(key, store.newEntry now value lifetime)]) = _
  rw [Table.erase_rows_of_find?_eq_none hnone, totalSize_append, totalSize_cons, totalSize_nil]
  rfl

theorem size_filed (now : Nat) (value : Json.Payload) (lifetime : Nat)
    (hnone : store.entries.find? key = none) :
    (store.filed now key value lifetime).size = store.size + 1 := by
  show ((store.entries.erase key).rows ++ [(key, store.newEntry now value lifetime)]).length = _
  rw [Table.erase_rows_of_find?_eq_none hnone, List.length_append]
  rfl

theorem Accounted.filed (h : store.Accounted) (now : Nat) (value : Json.Payload) (lifetime : Nat)
    (hnone : store.entries.find? key = none)
    (hheld : (store.filed now key value lifetime).heldBytes ≤ Word.top) :
    (store.filed now key value lifetime).Accounted where
  used_eq := by
    rw [heldBytes_filed now value lifetime hnone] at hheld ⊢
    show Word.addWrap store.usedBytes value.size = _
    rw [h.used_eq, Word.addWrap_eq_add hheld]
  size_eq := by
    intro other found hother
    have hother' : (store.entries.insert key (store.newEntry now value lifetime)).find? other
        = some found := hother
    rw [Table.find?_insert] at hother'
    split at hother'
    · rw [Option.some.injEq] at hother'
      rw [← hother']
      rfl
    · exact h.size_eq other found hother'
  extent_eq := rfl

end Store

end BoundedCache
