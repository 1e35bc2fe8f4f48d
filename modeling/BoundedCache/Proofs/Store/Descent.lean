import BoundedCache.Proofs.Store.Operation

namespace BoundedCache

/-!
# Where an entry comes from

After an operation, the entry of a key is of one of three kinds (`Descends`): it is the entry from
before, or a read has found that entry and touched it, or a put has made it.  `descends_apply` says
so for all operations.  What a field of an entry tells about the history is read off these three
cases.
-/

/-- The key for which an operation finds a payload, as its reply tells. -/
def Operation.foundKey? : Operation → Reply → Option String
  | .get key, .payload (some _) => some key
  | .getWithTtl key, .payloadWithTtl (some _) => some key
  | _, _ => none

namespace Store

/-- Where the entry of a key comes from that an operation at a reading leaves. -/
inductive Descends (store : Store) (now : Nat) (operation : Operation) (key : String) :
    Entry → Prop
  /-- It has been there before, and no read has found it. -/
  | kept {entry : Entry} (hfind : store.entries.find? key = some entry)
      (hput : operation.putKey? ≠ some key)
      (hfound : operation.foundKey? (store.apply now operation).result ≠ some key) :
      Descends store now operation key entry
  /-- A read has found it. -/
  | touched {entry : Entry} (hfind : store.entries.find? key = some entry)
      (hput : operation.putKey? ≠ some key)
      (hfound : operation.foundKey? (store.apply now operation).result = some key) :
      Descends store now operation key (entry.touch now store.recency.next)
  /-- A put has made it. -/
  | filed {value : Json.Payload} {ttl : Int} (lifetime tick : Nat)
      (hput : operation = .put key value ttl) :
      Descends store now operation key (.new value value.size now lifetime tick)

variable {store : Store} {now : Nat} {operation : Operation} {key : String} {entry : Entry}

/-- Where rows only go, what is left has been there before. -/
theorem find?_of_gone {store' : Store} {gone : Prop} [Decidable gone]
    (hrest : store'.entries.find? key = if gone then none else store.entries.find? key)
    (hfind : store'.entries.find? key = some entry) : store.entries.find? key = some entry := by
  rw [hrest] at hfind
  split at hfind
  · exact absurd hfind.symm (Option.some_ne_none _)
  · exact hfind

/-- A read leaves other keys alone, and its own key only if it finds the payload. -/
theorem find?_read (now : Nat) (other : String)
    (hfind : (store.read now other).store.entries.find? key = some entry) :
    (other ≠ key ∧ store.entries.find? key = some entry)
      ∨ ∃ before, other = key ∧ store.entries.find? key = some before
        ∧ (store.read now other).result = some (before.value, before.expiresAt - now)
        ∧ entry = before.touch now store.recency.next := by
  cases hother : store.entries.find? other with
  | none =>
    rw [read_of_find?_eq_none now hother] at hfind
    refine .inl ⟨?_, hfind⟩
    rintro rfl
    exact Option.some_ne_none _ (hfind.symm.trans hother)
  | some found =>
    by_cases hexpired : found.expiresAt < now
    · rw [read_of_expired hother hexpired] at hfind
      have herase : (store.entries.erase other).find? key = some entry := hfind
      rw [Table.find?_erase] at herase
      split at herase
      · exact absurd herase.symm (Option.some_ne_none _)
      · next hne => exact .inl ⟨Ne.symm hne, herase⟩
    · rw [read_of_live hother (by omega)] at hfind ⊢
      have hmodify : (store.entries.modify other (·.touch now store.recency.next)).find? key
          = some entry := hfind
      rw [Table.find?_modify] at hmodify
      split at hmodify
      · next hkey =>
        subst hkey
        rw [hother, Option.map_some, Option.some.injEq] at hmodify
        exact .inr ⟨found, rfl, hother, rfl, hmodify.symm⟩
      · next hne => exact .inl ⟨Ne.symm hne, hmodify⟩

theorem foundKey?_get (store : Store) (now : Nat) (other : String) :
    (Operation.get other).foundKey? (store.apply now (.get other)).result
      = (store.read now other).result.map fun _ => other := by
  simp only [apply, Step.map]
  cases (store.read now other).result <;> rfl

theorem foundKey?_getWithTtl (store : Store) (now : Nat) (other : String) :
    (Operation.getWithTtl other).foundKey? (store.apply now (.getWithTtl other)).result
      = (store.read now other).result.map fun _ => other := by
  simp only [apply, Step.map]
  cases (store.read now other).result <;> rfl

/-- An operation that reads a key keeps entries or touches that of its key. -/
theorem descends_read {other : String} (hput : operation.putKey? = none)
    (hfound : operation.foundKey? (store.apply now operation).result
      = (store.read now other).result.map fun _ => other)
    (hfind : (store.read now other).store.entries.find? key = some entry) :
    store.Descends now operation key entry := by
  have hnoPut : operation.putKey? ≠ some key := hput ▸ (Option.some_ne_none key).symm
  rcases find?_read now other hfind with ⟨hne, hbefore⟩ | ⟨before, rfl, hbefore, hread, rfl⟩
  · refine .kept hbefore hnoPut fun hkey => hne ?_
    rw [hfound, Option.map_eq_some_iff] at hkey
    exact hkey.choose_spec.2
  · exact .touched hbefore hnoPut (by rw [hfound, hread, Option.map_some])

/-- **Every entry is kept, touched or new.** -/
theorem descends_apply
    (hfind : (store.apply now operation).store.entries.find? key = some entry) :
    store.Descends now operation key entry := by
  cases hput : operation.putKey? with
  | some other =>
    obtain ⟨value, ttl, rfl⟩ := Operation.eq_put_of_putKey? hput
    obtain ⟨gone, last, hroom, -, hstore, -⟩ := exists_put_eq store now other value ttl
    rw [hstore] at hfind
    have hinsert : (last.entries.insert other
        (last.newEntry now value (store.effectiveTtl ttl))).find? key = some entry := hfind
    rw [Table.find?_insert] at hinsert
    split at hinsert
    · next hkey =>
      rw [Option.some.injEq] at hinsert
      exact hinsert ▸ .filed _ _ (congrArg (Operation.put · value ttl) hkey.symm)
    · next hne =>
      have hdrop := find?_of_gone (hroom.find?_eq key) hinsert
      refine .kept (find?_of_gone (find?_drop store other key) hdrop) ?_ ?_
      · exact fun hkey => hne (Option.some.inj hkey).symm
      · exact (Option.some_ne_none key).symm
  | none =>
    have hnoPut : operation.putKey? ≠ some key := hput ▸ (Option.some_ne_none key).symm
    cases hbytes : operation.newBudget? with
    | some bytes =>
      obtain ⟨gone, last, hroom, hstore, -, -⟩ := exists_resize_eq store now hbytes
      rw [hstore] at hfind
      refine .kept (find?_of_gone (hroom.find?_eq key) hfind) hnoPut ?_
      cases operation <;> simp [Operation.newBudget?, Operation.foundKey?] at hbytes ⊢
    | none =>
      -- What is neither a read nor brings a row in finds nothing.
      have hkept (hbefore : store.entries.find? key = some entry)
          (hfound : operation.foundKey? (store.apply now operation).result = none) :
          store.Descends now operation key entry :=
        .kept hbefore hnoPut (hfound ▸ (Option.some_ne_none key).symm)
      cases operation with
      | get other => exact descends_read rfl (foundKey?_get store now other) hfind
      | getWithTtl other => exact descends_read rfl (foundKey?_getWithTtl store now other) hfind
      | put other value ttl => simp [Operation.putKey?] at hput
      | invalidate other => exact hkept (find?_of_gone (find?_drop store other key) hfind) rfl
      | invalidatePattern pattern =>
        exact hkept (find?_of_gone (find?_foldl find?_drop _ store key) hfind) rfl
      | clear => simp [apply, clear, Step.map] at hfind
      | sweep => exact hkept (find?_of_gone (find?_foldl find?_expel _ store key) hfind) rfl
      | setBudget bytes => simp [Operation.newBudget?] at hbytes
      | setBudgetMegabytes megabytes => simp [Operation.newBudget?] at hbytes
      | reconfigure budget defaultTtl =>
        obtain rfl : budget = none := hbytes
        exact hkept hfind rfl
      | setDefaultTtl seconds => exact hkept hfind rfl
      | statistics => exact hkept hfind rfl
      | resetStatistics => exact hkept hfind rfl
      | isEmpty => exact hkept hfind rfl
      | hitCount other => exact hkept hfind rfl

/-- An entry from before keeps its time, and every other one has the present reading. -/
theorem Descends.lastAccessedAt_eq (h : store.Descends now operation key entry) :
    store.entries.find? key = some entry ∨ entry.lastAccessedAt = now := by
  cases h with
  | kept hfind => exact .inl hfind
  | touched => exact .inr rfl
  | filed => exact .inr rfl

end Store

end BoundedCache
