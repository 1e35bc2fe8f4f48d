import BoundedCache.Proofs.Table
import BoundedCache.Store.Operation

namespace BoundedCache

/-!
# The changes that operations are made of

Every operation of the cache is put together from a few changes of the store:

* `Store.without` — the row of a key goes, from the table, the order of use and the byte count;
* `Store.touched` — a row is marked as used by a read;
* `Store.filed` — a row is added as the latest one;
* `MakesRoom` — least recently used rows go, one after another, until something fits.

The equations `read_of_*`, `drop_of_*`, `expel_of_*`, `put_eq` and `evictUntilFits_makesRoom` say
how.  What holds of all states is proved of these changes, and no later proof opens an operation.
-/

/-- A key and its entry. -/
abbrev Row := String × Entry

namespace Store

/-! ### Removals -/

/-- The store without the row of a key. -/
def without (store : Store) (key : String) (entry : Entry) : Store :=
  { store with
    entries := store.entries.erase key
    recency := store.recency.remove entry.tick
    usedBytes := Word.subWrap store.usedBytes entry.size
    statistics := store.statistics.setSize (store.entries.erase key).size }

variable {store : Store} {key : String} {entry : Entry}

theorem remove?_of_find? (hfind : store.entries.find? key = some entry) :
    store.remove? key = some (entry, store.without key entry) := by
  simp only [remove?, hfind, Option.map_some]
  rfl

theorem remove?_of_find?_eq_none (hnone : store.entries.find? key = none) :
    store.remove? key = none := by
  simp only [remove?, hnone, Option.map_none]

theorem drop_of_find? (hfind : store.entries.find? key = some entry) :
    store.drop key = store.without key entry := by
  simp only [drop, remove?_of_find? hfind]

theorem drop_of_find?_eq_none (hnone : store.entries.find? key = none) :
    store.drop key = store := by
  simp only [drop, remove?_of_find?_eq_none hnone]

theorem size_without (hfind : store.entries.find? key = some entry) :
    (store.without key entry).size + 1 = store.size :=
  (Table.perm_cons_erase hfind).length_eq.symm

theorem find?_drop (store : Store) (key other : String) :
    (store.drop key).entries.find? other
      = if other = key then none else store.entries.find? other := by
  cases hfind : store.entries.find? key with
  | none =>
    rw [drop_of_find?_eq_none hfind]
    by_cases hkey : other = key
    · rw [if_pos hkey, hkey, hfind]
    · rw [if_neg hkey]
  | some entry =>
    rw [drop_of_find? hfind]
    exact Table.find?_erase _ _ _

/-- The store with one more eviction counted. -/
def countEviction (store : Store) : Store :=
  { store with statistics := store.statistics.recordEviction }

theorem expel_of_find? (hfind : store.entries.find? key = some entry) :
    store.expel key = (store.without key entry).countEviction := by
  simp only [expel, remove?_of_find? hfind]
  rfl

theorem expel_of_find?_eq_none (hnone : store.entries.find? key = none) :
    store.expel key = store := by
  simp only [expel, remove?_of_find?_eq_none hnone]

theorem find?_expel (store : Store) (key other : String) :
    (store.expel key).entries.find? other
      = if other = key then none else store.entries.find? other := by
  rw [← find?_drop]
  cases hfind : store.entries.find? key with
  | none => rw [expel_of_find?_eq_none hfind, drop_of_find?_eq_none hfind]
  | some entry => rw [expel_of_find? hfind, drop_of_find? hfind]; rfl

/-- Several removals take exactly the rows of their keys. -/
theorem find?_foldl {remove : Store → String → Store}
    (hremove : ∀ store key other, (remove store key).entries.find? other
      = if other = key then none else store.entries.find? other)
    (keys : List String) (store : Store) (other : String) :
    (keys.foldl remove store).entries.find? other
      = if other ∈ keys then none else store.entries.find? other := by
  induction keys generalizing store with
  | nil => simp
  | cons key keys ih =>
    rw [List.foldl_cons, ih, hremove]
    by_cases hkeys : other ∈ keys <;> by_cases hkey : other = key <;> simp [hkeys, hkey]

/-! ### Reads -/

/-- The store after a successful read of a row. -/
def touched (store : Store) (now : Nat) (key : String) (entry : Entry) : Store :=
  { store with
    recency := (store.recency.remove entry.tick).add key
    entries := store.entries.modify key (·.touch now store.recency.next)
    statistics := store.statistics.recordHit }

/-- The store with one more miss counted. -/
def countMiss (store : Store) : Store := { store with statistics := store.statistics.recordMiss }

theorem read_of_find?_eq_none (now : Nat) (hnone : store.entries.find? key = none) :
    store.read now key = { result := none, store := store.countMiss } := by
  simp only [read, hnone]
  rfl

theorem read_of_expired {now : Nat} (hfind : store.entries.find? key = some entry)
    (hexpired : entry.expiresAt < now) :
    store.read now key
      = { result := none, store := (store.without key entry).countEviction.countMiss } := by
  simp only [read, hfind, Entry.isExpired, hexpired, decide_true, if_true, drop_of_find? hfind]
  rfl

theorem read_of_live {now : Nat} (hfind : store.entries.find? key = some entry)
    (hlive : now ≤ entry.expiresAt) :
    store.read now key
      = { result := some (entry.value, entry.expiresAt - now),
          store := store.touched now key entry } := by
  have hexpired : ¬ entry.expiresAt < now := by omega
  simp only [read, hfind, Entry.isExpired, hexpired, decide_false, Bool.false_eq_true, if_false]
  rfl

/-! ### Insertions -/

/-- The entry that a payload is stored as. -/
def newEntry (store : Store) (now : Nat) (value : Json.Payload) (lifetime : Nat) : Entry :=
  .new value value.size now lifetime store.recency.next

/-- The store with a row added as the latest one. -/
def filed (store : Store) (now : Nat) (key : String) (value : Json.Payload) (lifetime : Nat) :
    Store :=
  { store with
    recency := store.recency.add key
    entries := store.entries.insert key (store.newEntry now value lifetime)
    usedBytes := Word.addWrap store.usedBytes value.size
    statistics := store.statistics.recordInsert
      (store.entries.insert key (store.newEntry now value lifetime)).size }

/-- What a put warns of. -/
def putWarnings (store : Store) (key : String) (size : Nat) : List Event :=
  if store.budget < size then [.oversized key size store.budget] else []

/-- The limits in force: the byte budget and the default time to live. -/
def settings (store : Store) : Nat × Nat := (store.budget, store.defaultTtl)

theorem settings_drop (store : Store) (key : String) :
    (store.drop key).settings = store.settings := by
  cases hfind : store.entries.find? key with
  | none => rw [drop_of_find?_eq_none hfind]
  | some entry => rw [drop_of_find? hfind]; rfl

theorem settings_expel (store : Store) (key : String) :
    (store.expel key).settings = store.settings := by
  cases hfind : store.entries.find? key with
  | none => rw [expel_of_find?_eq_none hfind]
  | some entry => rw [expel_of_find? hfind]; rfl

theorem settings_read (store : Store) (now : Nat) (key : String) :
    (store.read now key).store.settings = store.settings := by
  cases hfind : store.entries.find? key with
  | none => rw [read_of_find?_eq_none now hfind]; rfl
  | some entry =>
    by_cases hexpired : entry.expiresAt < now
    · rw [read_of_expired hfind hexpired]; rfl
    · rw [read_of_live hfind (by omega)]; rfl

@[simp] theorem budget_drop (store : Store) (key : String) :
    (store.drop key).budget = store.budget := congrArg Prod.fst (store.settings_drop key)

/-- **A put** releases, makes room and files, in this order. -/
theorem put_eq (store : Store) (now : Nat) (key : String) (value : Json.Payload) (ttl : Int) :
    store.put now key value ttl
      = { result := ()
          store := ((store.drop key).evictUntilFits value.size).store.filed now key value
            (store.effectiveTtl ttl)
          events := store.putWarnings key value.size
            ++ ((store.drop key).evictUntilFits value.size).events } := by
  simp only [put, putSized, putWarnings, budget_drop]
  rfl

end Store

/-! ### Evictions -/

/-- The store that one eviction leaves, of a row that `recency` does not name any more. -/
def Store.evicting (store : Store) (recency : Recency) (row : Row) : Store :=
  (({ store with recency } : Store).without row.1 row.2).countEviction

/-- `MakesRoom incoming store gone last`: the rounds that make room for `incoming` bytes take the
    rows `gone` out of `store`, in this order, and stop at `last`. -/
inductive MakesRoom (incoming : Nat) : Store → List Row → Store → Prop
  /-- The bytes fit. -/
  | fits {store : Store} (hfits : store.fits incoming = true) : MakesRoom incoming store [] store
  /-- There is nothing to evict. -/
  | exhausted {store : Store} (hfits : store.fits incoming = false)
      (hempty : store.entries.rows = []) : MakesRoom incoming store [] store
  /-- One row goes. -/
  | evict {store last : Store} {recency : Recency} {row : Row} {gone : List Row}
      (hfits : store.fits incoming = false) (hvictim : store.victim? = some (row.1, recency))
      (hfind : store.entries.find? row.1 = some row.2)
      (hrest : MakesRoom incoming (store.evicting recency row) gone last) :
      MakesRoom incoming store (row :: gone) last

namespace Store

variable {store : Store}

/-- A store with entries has a victim, and the victim has an entry. -/
theorem exists_victim (hrows : store.entries.rows ≠ []) :
    ∃ (recency : Recency) (row : Row), store.victim? = some (row.1, recency)
      ∧ store.entries.find? row.1 = some row.2 := by
  obtain ⟨first, rest, hcons⟩ := List.exists_cons_of_ne_nil hrows
  have hfirst : store.entries.find? first.1 = some first.2 := by
    rw [← Table.mem_rows_iff, hcons]
    exact List.mem_cons_self
  have hother : store.entries.keys.head? = some first.1 := by
    rw [Table.keys, hcons, List.map_cons, List.head?_cons]
  simp only [victim?, hother, Option.map_some]
  -- The index may be empty or name a key without an entry; then the first row has to go.
  cases hpop : store.recency.popOldest? with
  | none => exact ⟨store.recency, first, rfl, hfirst⟩
  | some popped =>
    obtain ⟨oldest, recency⟩ := popped
    by_cases hcontains : store.entries.contains oldest = true
    · obtain ⟨entry, hentry⟩ := Option.isSome_iff_exists.1 hcontains
      exact ⟨recency, (oldest, entry), by simp [hcontains], hentry⟩
    · exact ⟨recency, first, by simp [hcontains], hfirst⟩

theorem evictOne?_of_victim {recency : Recency} {row : Row}
    (hvictim : store.victim? = some (row.1, recency))
    (hfind : store.entries.find? row.1 = some row.2) :
    store.evictOne? = some (row.1, row.2, store.evicting recency row) := by
  have hremove : ({ store with recency } : Store).remove? row.1
      = some (row.2, ({ store with recency } : Store).without row.1 row.2) :=
    remove?_of_find? hfind
  simp only [evictOne?, hvictim, Option.bind_eq_bind, Option.bind_some, hremove]
  rfl

theorem evictOne?_of_rows_eq_nil (hempty : store.entries.rows = []) :
    store.evictOne? = none := by
  have hfind (key : String) : store.entries.find? key = none := by
    simp only [Table.find?, hempty, List.find?_nil, Option.map_none]
  cases hvictim : store.victim? with
  | none => simp [evictOne?, hvictim]
  | some victim => simp [evictOne?, hvictim, remove?_of_find?_eq_none, hfind]

theorem size_evicting (recency : Recency) {row : Row}
    (hfind : store.entries.find? row.1 = some row.2) :
    (store.evicting recency row).size + 1 = store.size :=
  @size_without { store with recency } _ _ hfind

/-- Enough rounds are as good as a loop without a bound. -/
theorem evictRounds_makesRoom (incoming rounds : Nat) (store : Store)
    (hrounds : store.size ≤ rounds) :
    ∃ gone last, MakesRoom incoming store gone last ∧
      evictRounds incoming rounds store
        = { result := gone.length, store := last
            events := gone.map fun row => .evicted row.1 row.2.size } := by
  -- A round takes one row, so the rounds that are left stay enough for the rows that are left.
  induction rounds generalizing store with
  | zero =>
    have hempty : store.entries.rows = [] := List.eq_nil_of_length_eq_zero (by
      simp only [size, Table.size] at hrounds
      omega)
    cases hfits : store.fits incoming with
    | true => exact ⟨[], store, .fits hfits, rfl⟩
    | false => exact ⟨[], store, .exhausted hfits hempty, rfl⟩
  | succ rounds ih =>
    cases hfits : store.fits incoming with
    | true => exact ⟨[], store, .fits hfits, by simp [evictRounds, hfits]⟩
    | false =>
      by_cases hrows : store.entries.rows = []
      · refine ⟨[], store, .exhausted hfits hrows, ?_⟩
        simp [evictRounds, hfits, evictOne?_of_rows_eq_nil hrows]
      · obtain ⟨recency, row, hvictim, hfind⟩ := exists_victim hrows
        have hsize := size_evicting recency hfind
        obtain ⟨gone, last, hroom, hrest⟩ := ih (store.evicting recency row) (by omega)
        refine ⟨row :: gone, last, .evict hfits hvictim hfind hroom, ?_⟩
        simp only [evictRounds, hfits, evictOne?_of_victim hvictim hfind, hrest]
        rfl

/-- **Making room**, as its result, its store and its events. -/
theorem evictUntilFits_makesRoom (store : Store) (incoming : Nat) :
    ∃ gone last, MakesRoom incoming store gone last ∧
      store.evictUntilFits incoming
        = { result := gone.length, store := last
            events := gone.map fun row => .evicted row.1 row.2.size } :=
  evictRounds_makesRoom incoming store.size store (Nat.le_refl _)

end Store

namespace MakesRoom

variable {incoming : Nat} {store last : Store} {gone : List Row}

/-- The loop stops only when the bytes fit or nothing is left. -/
theorem fits_or_empty (h : MakesRoom incoming store gone last) :
    last.fits incoming = true ∨ last.entries.rows = [] := by
  induction h with
  | fits hfits => exact .inl hfits
  | exhausted _ hempty => exact .inr hempty
  | evict _ _ _ _ ih => exact ih

/-- Exactly the rows that go are missing afterwards. -/
theorem find?_eq (h : MakesRoom incoming store gone last) (key : String) :
    last.entries.find? key
      = if key ∈ gone.map Prod.fst then none else store.entries.find? key := by
  induction h with
  | fits _ => simp
  | exhausted _ _ => simp
  | @evict store _ recency row gone _ _ _ _ ih =>
    have herase : (store.evicting recency row).entries = store.entries.erase row.1 := rfl
    rw [ih, herase, Table.find?_erase]
    -- The key went in this round, in a later one or not at all.
    simp only [List.map_cons, List.mem_cons]
    by_cases hrow : key = row.1 <;> by_cases hgone : key ∈ gone.map Prod.fst <;> simp [hrow, hgone]

/-- **Rounds beyond the rows that go change nothing.** -/
theorem evictRounds_eq (h : MakesRoom incoming store gone last) {rounds : Nat}
    (hrounds : gone.length ≤ rounds) :
    Store.evictRounds incoming rounds store
      = { result := gone.length, store := last
          events := gone.map fun row => .evicted row.1 row.2.size } := by
  induction h generalizing rounds with
  | fits hfits =>
    cases rounds with
    | zero => rfl
    | succ rounds => simp [Store.evictRounds, hfits]
  | exhausted hfits hempty =>
    cases rounds with
    | zero => rfl
    | succ rounds => simp [Store.evictRounds, hfits, Store.evictOne?_of_rows_eq_nil hempty]
  | @evict store last recency row gone hfits hvictim hfind _ ih =>
    obtain ⟨rounds, rfl⟩ : ∃ more, rounds = more + 1 := ⟨rounds - 1, by simp at hrounds; omega⟩
    have hrest := ih (Nat.le_of_succ_le_succ hrounds)
    simp only [Store.evictRounds, hfits, Store.evictOne?_of_victim hvictim hfind, hrest]
    rfl

theorem settings_eq (h : MakesRoom incoming store gone last) : last.settings = store.settings := by
  induction h with
  | fits _ => rfl
  | exhausted _ _ => rfl
  | evict _ _ _ _ ih => exact ih

end MakesRoom

end BoundedCache
