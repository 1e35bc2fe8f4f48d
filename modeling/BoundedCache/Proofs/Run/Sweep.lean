import BoundedCache.Proofs.Run.Tally

namespace BoundedCache

/-!
# Sweeps and the reader of a key

A sweep takes away what a read would find expired, but it does so one instant earlier: at the expiry
itself.  `sweeps_unseen` says that this instant is all that the reader of a key sees of sweeps:

* `lease?_after_sweeps` — sweeps end the lease of a key at its expiry, and do nothing else to it;
* `total_evictionsOf_add` — as long as a key is neither put nor withdrawn it counts as one eviction
  when it goes, whichever call takes it away, so what is left of it tells what it has counted;
* `evictions_after`, `misses_after` — the counters are made up of what the keys count.
-/

/-- Sweeps at some readings. -/
def sweepsAt (readings : List Nat) : List Call := readings.map fun reading => ⟨reading, .sweep⟩

/-- Whether an operation takes nothing away but by evictions, and brings nothing in. -/
structure Operation.OnlyEvicts (operation : Operation) : Prop where
  putKey?_eq : operation.putKey? = none
  isWithdrawal_eq : operation.isWithdrawal = false
  ne_reset : operation ≠ .resetStatistics

namespace Count

/-- Evictions of a key: it is there before a call and not after it, and was not withdrawn. -/
def evictionsOf (key : String) (store : Store) (call : Call) : Nat :=
  if call.operation.isWithdrawal = false ∧ key ∈ store.lost call.now call.operation then 1 else 0

/-- Reads of a key that find nothing. -/
def missesOf (key : String) (store : Store) (call : Call) : Nat :=
  if call.operation.missedKey? (store.call call).result = some key then 1 else 0

end Count

namespace Store

/-- Some calls before a read of a key make no difference to its result, nor to what the key has
    counted by then. -/
structure Unseen (store : Store) (calls : List Call) (now : Nat) (key : String) : Prop where
  result_eq : ((store.after calls).call ⟨now, .getWithTtl key⟩).result
    = (store.call ⟨now, .getWithTtl key⟩).result
  evictions_eq : store.total (Count.evictionsOf key) (calls ++ [⟨now, .getWithTtl key⟩])
    = store.total (Count.evictionsOf key) [⟨now, .getWithTtl key⟩]
  misses_eq : store.total (Count.missesOf key) (calls ++ [⟨now, .getWithTtl key⟩])
    = store.total (Count.missesOf key) [⟨now, .getWithTtl key⟩]

variable {store : Store} {readings : List Nat} {calls : List Call} {now expiry : Nat}
  {key : String} {value : Json.Payload}

theorem onlyEvicts_sweeps_read (readings : List Nat) (now : Nat) (key : String) :
    ∀ call ∈ sweepsAt readings ++ [⟨now, .getWithTtl key⟩], call.operation.OnlyEvicts := by
  intro call hcall
  rcases List.mem_append.1 hcall with hcall | hcall
  · obtain ⟨reading, -, rfl⟩ := List.mem_map.1 hcall
    exact ⟨rfl, rfl, by simp⟩
  · obtain rfl := List.mem_singleton.1 hcall
    exact ⟨rfl, rfl, by simp⟩

/-! ### Evictions by key -/

/-- A key that is there before such a call is there after it, or is evicted by it. -/
theorem evictionsOf_add (store : Store) (key : String) {call : Call}
    (hcall : call.operation.OnlyEvicts) :
    Count.evictionsOf key store call + ((store.call call).store.entries.contains key).toNat
      = (store.entries.contains key).toNat := by
  have hlost : key ∈ store.lost call.now call.operation ↔ store.entries.contains key = true
      ∧ (store.call call).store.entries.contains key = false := by
    rw [lost, List.mem_filter, Table.contains_iff, Bool.not_eq_true']
    rfl
  simp only [Count.evictionsOf, hcall.isWithdrawal_eq, true_and, hlost]
  cases hbefore : store.entries.contains key with
  | false =>
    -- What was not there was not put either.
    have hnew : key ∉ store.entries.keys := by
      rw [← Table.contains_iff, hbefore]
      exact Bool.false_ne_true
    have hafter : (store.call call).store.entries.contains key = false := by
      rw [← Bool.not_eq_true, Table.contains_iff, Store.call, mem_keys_apply hnew,
        hcall.putKey?_eq]
      exact (Option.some_ne_none key).symm
    simp [hafter]
  | true => cases (store.call call).store.entries.contains key <;> rfl

/-- **A key is evicted once** in a run that neither puts nor withdraws, unless it is still there. -/
theorem total_evictionsOf_add (store : Store) (key : String)
    (hcalls : ∀ call ∈ calls, call.operation.OnlyEvicts) :
    store.total (Count.evictionsOf key) calls + ((store.after calls).entries.contains key).toNat
      = (store.entries.contains key).toNat := by
  induction calls generalizing store with
  | nil => exact Nat.zero_add _
  | cons call calls ih =>
    have hcall := evictionsOf_add store key (hcalls call List.mem_cons_self)
    have hrest := ih (store.call call).store fun other hother =>
      hcalls other (List.mem_cons_of_mem _ hother)
    rw [total, after]
    omega

theorem evicts_after (store : Store) (hcalls : ∀ call ∈ calls, call.operation.OnlyEvicts) :
    store.Evicts (store.after calls) := by
  induction calls generalizing store with
  | nil => exact .refl _
  | cons call calls ih =>
    have hcall := hcalls call List.mem_cons_self
    have hevicts := evicts_apply store call.now hcall.putKey?_eq hcall.isWithdrawal_eq
      hcall.ne_reset
    exact hevicts.trans (ih _ fun other hother => hcalls other (List.mem_cons_of_mem _ hother))

theorem sum_evictionsOf_add_countP (store : Store)
    (hcalls : ∀ call ∈ calls, call.operation.OnlyEvicts) (keys : List String) :
    (keys.map fun key => store.total (Count.evictionsOf key) calls).sum
      + keys.countP (store.after calls).entries.contains = keys.countP store.entries.contains := by
  induction keys with
  | nil => rfl
  | cons key keys ih =>
    have hkey := total_evictionsOf_add store key hcalls
    have hcount (stored : Bool) : stored.toNat = if stored = true then 1 else 0 := by
      cases stored <;> rfl
    rw [hcount, hcount] at hkey
    rw [List.map_cons, List.sum_cons, List.countP_cons, List.countP_cons]
    omega

/-- What the keys of a store count is what the store loses. -/
theorem sum_evictionsOf_add (store : Store) (hcalls : ∀ call ∈ calls, call.operation.OnlyEvicts) :
    (store.entries.keys.map fun key => store.total (Count.evictionsOf key) calls).sum
      + (store.after calls).size = store.size := by
  have hsum := sum_evictionsOf_add_countP store hcalls store.entries.keys
  have hbefore : store.entries.keys.countP store.entries.contains = store.size := by
    rw [List.countP_eq_length.2 fun key hkey => (Table.contains_iff _ _).2 hkey]
    exact List.length_map _
  have hgained : ((store.after calls).entries.keys.filter
      fun key => !store.entries.contains key) = [] := by
    refine List.filter_eq_nil_iff.2 fun key hafter => ?_
    have hkey := total_evictionsOf_add store key hcalls
    rw [(Table.contains_iff _ _).2 hafter] at hkey
    cases hcontains : store.entries.contains key with
    | true => simp
    | false => simp [hcontains] at hkey
  have hextent := Table.length_lost_add_size store.entries (store.after calls).entries
  have hsplit := List.length_eq_length_filter_add (l := store.entries.keys)
    (store.after calls).entries.contains
  have hlength : store.entries.keys.length = store.entries.size := List.length_map _
  rw [hgained, List.length_nil] at hextent
  rw [List.countP_eq_length_filter] at hsum
  simp only [size] at *
  omega

/-- **The eviction counter by key.** It grows by what every key of the store counts. -/
theorem evictions_after (hcalls : ∀ call ∈ calls, call.operation.OnlyEvicts)
    (htop : store.statistics.evictions + (store.entries.keys.map fun key =>
      store.total (Count.evictionsOf key) calls).sum ≤ Word.top) :
    (store.after calls).statistics.evictions = store.statistics.evictions
      + (store.entries.keys.map fun key => store.total (Count.evictionsOf key) calls).sum := by
  have hsum := sum_evictionsOf_add store hcalls
  have hevicts := evicts_after store hcalls
  have hlost : store.size - (store.after calls).size = (store.entries.keys.map fun key =>
    store.total (Count.evictionsOf key) calls).sum := by omega
  rw [← hlost] at htop ⊢
  exact hevicts.counted htop

/-! ### Sweeps -/

theorem total_sweepsAt_eq_zero {count : Store → Call → Nat}
    (hsweep : ∀ store reading, count store ⟨reading, .sweep⟩ = 0) (store : Store) :
    store.total count (sweepsAt readings) = 0 := by
  induction readings generalizing store with
  | nil => rfl
  | cons reading readings ih =>
    show count store _ + total count _ (sweepsAt readings) = 0
    rw [hsweep, ih]

theorem lease?_sweep {reading : Nat} :
    (store.call ⟨reading, .sweep⟩).store.lease? key = some (value, expiry) ↔
      store.lease? key = some (value, expiry) ∧ reading < expiry := by
  rw [← Nat.not_le]
  exact lease?_apply_of_quiet store reading rfl rfl

/-- **Sweeps end a lease at its expiry** and do nothing else to it. -/
theorem lease?_after_sweeps : (store.after (sweepsAt readings)).lease? key = some (value, expiry) ↔
    store.lease? key = some (value, expiry) ∧ ∀ reading ∈ readings, reading < expiry := by
  induction readings generalizing store with
  | nil => exact (and_iff_left fun _ h => absurd h List.not_mem_nil).symm
  | cons reading readings ih =>
    show ((store.call ⟨reading, .sweep⟩).store.after (sweepsAt readings)).lease? key = _ ↔ _
    rw [ih, lease?_sweep, List.forall_mem_cons, and_assoc]

/-! ### The read -/

/-- What a read finds is there afterwards, and what it does not find is not. -/
theorem contains_read (store : Store) (now : Nat) (key : String) :
    (store.call ⟨now, .getWithTtl key⟩).store.entries.contains key
      = (store.read now key).result.isSome := by
  show ((store.read now key).store.entries.find? key).isSome = _
  cases hfind : store.entries.find? key with
  | none =>
    rw [read_of_find?_eq_none now hfind, countMiss, hfind]
    rfl
  | some entry =>
    by_cases hexpired : entry.expiresAt < now
    · rw [read_of_expired hfind hexpired]
      show ((store.entries.erase key).find? key).isSome = false
      rw [Table.find?_erase, if_pos rfl, Option.isSome_none]
    · rw [read_of_live hfind (by omega)]
      show ((store.entries.modify key _).find? key).isSome = true
      rw [Table.find?_modify, if_pos rfl, hfind, Option.map_some, Option.isSome_some]

theorem missesOf_read (store : Store) (now : Nat) (key : String) :
    Count.missesOf key store ⟨now, .getWithTtl key⟩
      = (!(store.read now key).result.isSome).toNat := by
  rw [Count.missesOf, Store.call, missedKey?_getWithTtl]
  cases (store.read now key).result <;> simp

/-- Sweeps up to a read do not change what it finds, unless the lease of the key ends there and one
    of them was made there. -/
theorem read_after_sweeps (hreadings : ∀ reading ∈ readings, reading ≤ now)
    (hinstant : ¬ (now ∈ readings ∧ ∃ value, store.lease? key = some (value, now))) :
    ((store.after (sweepsAt readings)).read now key).result = (store.read now key).result := by
  ext ⟨value, left⟩
  rw [read_result, read_result]
  refine exists_congr fun expiry => ?_
  rw [lease?_after_sweeps, and_assoc]
  refine and_congr_right fun hlease => and_iff_right_of_imp ?_
  rintro ⟨hlive, -⟩ reading hmem
  refine Nat.lt_of_le_of_ne ((hreadings reading hmem).trans hlive) ?_
  rintro rfl
  obtain rfl := Nat.le_antisymm hlive (hreadings _ hmem)
  exact hinstant ⟨hmem, value, hlease⟩

/-- A read that finds the same after sweeps counts the same. -/
theorem unseen_of_read_eq
    (hread : ((store.after (sweepsAt readings)).read now key).result
      = (store.read now key).result) : store.Unseen (sweepsAt readings) now key where
  result_eq := congrArg Reply.payloadWithTtl hread
  evictions_eq := by
    have hswept := total_evictionsOf_add store key
      (onlyEvicts_sweeps_read readings now key)
    have halone := total_evictionsOf_add store key
      (onlyEvicts_sweeps_read [] now key)
    -- What is left of the key is the same, so what it has counted is the same too.
    rw [after_concat, contains_read, hread] at hswept
    rw [after_concat, contains_read] at halone
    exact Nat.add_right_cancel (hswept.trans halone.symm)
  misses_eq := by
    rw [total_concat, total_sweepsAt_eq_zero fun _ _ => rfl, missesOf_read, hread, Nat.zero_add,
      total, total, missesOf_read, Nat.add_zero]

/-- An expired key counts as one eviction, whether a sweep or the read finds it so. -/
theorem evictionsOf_expired (hlease : store.lease? key = some (value, expiry))
    (hexpired : expiry < now) (readings : List Nat) :
    store.total (Count.evictionsOf key) (sweepsAt readings ++ [⟨now, .getWithTtl key⟩]) = 1 := by
  have htotal := total_evictionsOf_add store key
    (onlyEvicts_sweeps_read readings now key)
  have hnone : ((store.after (sweepsAt readings)).read now key).result = none := by
    rw [Option.eq_none_iff_forall_ne_some]
    rintro ⟨found, left⟩ hfound
    obtain ⟨expiry', hlease', hlive, -⟩ := (read_result _ _ _ _ _).1 hfound
    rw [lease?_after_sweeps, hlease, Option.some.injEq, Prod.mk.injEq] at hlease'
    omega
  obtain ⟨entry, hfind, -⟩ := lease?_eq_some_iff.1 hlease
  have hstored : store.entries.contains key = true := by rw [Table.contains, hfind]; rfl
  rw [after_concat, contains_read, hnone, hstored] at htotal
  exact htotal

/-! ### One sweep -/

/-- After a sweep, every entry is live for a while. -/
theorem read_after_sweep {reading : Nat}
    (hkey : key ∈ (store.call ⟨reading, .sweep⟩).store.entries.keys) :
    ∃ value left, ((store.call ⟨reading, .sweep⟩).store.call ⟨reading, .getWithTtl key⟩).result
      = .payloadWithTtl (some (value, left)) ∧ 0 < left := by
  obtain ⟨entry, hfind⟩ := (Table.mem_keys_iff _ _).1 hkey
  have hlease : (store.call ⟨reading, .sweep⟩).store.lease? key
      = some (entry.value, entry.expiresAt) := lease?_eq_some_iff.2 ⟨entry, hfind, rfl, rfl⟩
  have hlive := (lease?_sweep.1 hlease).2
  refine ⟨entry.value, entry.expiresAt - reading, congrArg Reply.payloadWithTtl ?_, by omega⟩
  exact (read_result _ _ _ _ _).2 ⟨entry.expiresAt, hlease, hlive.le, rfl⟩

/-- A second sweep at the same reading finds nothing. -/
theorem sweep_again (store : Store) (reading : Nat) :
    (store.call ⟨reading, .sweep⟩).store.call ⟨reading, .sweep⟩
      = { result := .count 0, store := (store.call ⟨reading, .sweep⟩).store } := by
  have hnone : (store.call ⟨reading, .sweep⟩).store.keysDue reading = [] := by
    refine List.eq_nil_iff_forall_not_mem.2 fun key hkey => ?_
    obtain ⟨entry, hfind, hdue⟩ := (mem_keysDue_iff _ _ _).1 hkey
    have hlease := lease?_eq_some_iff.2 ⟨entry, hfind, rfl, rfl⟩
    have hlive := (lease?_sweep.1 hlease).2
    omega
  rw [Store.call, apply, sweep, hnone]
  rfl

/-! ### The reader of a key -/

/-- The counter of misses grows by what the key that is read counts. -/
theorem misses_after
    (htop : store.statistics.misses + store.total (Count.missesOf key)
      (sweepsAt readings ++ [⟨now, .getWithTtl key⟩]) ≤ Word.top) :
    (store.after (sweepsAt readings ++ [⟨now, .getWithTtl key⟩])).statistics.misses
      = store.statistics.misses + store.total (Count.missesOf key)
        (sweepsAt readings ++ [⟨now, .getWithTtl key⟩]) := by
  have hsame : store.total (Count.missesOf key) (sweepsAt readings ++ [⟨now, .getWithTtl key⟩])
      = store.total Count.misses (sweepsAt readings ++ [⟨now, .getWithTtl key⟩]) := by
    rw [total_concat, total_concat, total_sweepsAt_eq_zero fun _ _ => rfl,
      total_sweepsAt_eq_zero fun _ _ => rfl, missesOf_read, Count.misses, Store.call,
      missedKey?_getWithTtl]
    cases ((store.after (sweepsAt readings)).read now key).result <;> rfl
  rw [hsame] at htop ⊢
  exact counter_after misses_call
    (fun call hcall => (onlyEvicts_sweeps_read readings now key call hcall).ne_reset) htop

/-- **Sweeps are unseen by the reader of a key**, but for the instant of its expiry: a sweep takes
    the key away there, and a read still finds it with nothing left.  Otherwise the read finds the
    same and the key counts the same, which is one eviction if it has expired.  Right after a sweep
    every entry has time left, so a second one finds nothing. -/
theorem sweeps_unseen (store : Store) (key : String) {readings : List Nat} {now : Nat}
    (hreadings : ∀ reading ∈ readings, reading ≤ now) :
    let read : Call := ⟨now, .getWithTtl key⟩
    let swept := sweepsAt readings ++ [read]
    let evictions := fun key => store.total (Count.evictionsOf key) swept
    let misses := store.total (Count.missesOf key) swept
    (¬ (now ∈ readings ∧ ∃ value, store.lease? key = some (value, now)) →
      store.Unseen (sweepsAt readings) now key)
    ∧ (∀ value expiry, store.lease? key = some (value, expiry) → expiry < now →
      evictions key = 1)
    ∧ (∀ value, store.lease? key = some (value, now) → now ∈ readings →
      (store.call read).result = .payloadWithTtl (some (value, 0))
        ∧ ((store.after (sweepsAt readings)).call read).result = .payloadWithTtl none)
    ∧ (store.statistics.evictions + (store.entries.keys.map evictions).sum ≤ Word.top →
      (store.after swept).statistics.evictions
        = store.statistics.evictions + (store.entries.keys.map evictions).sum)
    ∧ (store.statistics.misses + misses ≤ Word.top →
      (store.after swept).statistics.misses = store.statistics.misses + misses)
    ∧ ∀ reading,
      let left := (store.call ⟨reading, .sweep⟩).store
      (∀ other ∈ left.entries.keys, ∃ value ms,
        (left.call ⟨reading, .getWithTtl other⟩).result = .payloadWithTtl (some (value, ms))
          ∧ 0 < ms)
      ∧ left.call ⟨reading, .sweep⟩ = { result := .count 0, store := left } := by
  intro read swept evictions misses
  refine ⟨fun hinstant => unseen_of_read_eq (read_after_sweeps hreadings hinstant),
    fun value expiry hlease hexpired => evictionsOf_expired hlease hexpired readings, ?_,
    evictions_after (onlyEvicts_sweeps_read readings now key), misses_after, ?_⟩
  · intro value hlease hmem
    refine ⟨congrArg Reply.payloadWithTtl ?_, congrArg Reply.payloadWithTtl ?_⟩
    · exact (read_result _ _ _ _ _).2 ⟨now, hlease, le_rfl, (Nat.sub_self now).symm⟩
    · rw [Option.eq_none_iff_forall_ne_some]
      rintro ⟨found, left⟩ hfound
      obtain ⟨expiry, hlease', -⟩ := (read_result _ _ _ _ _).1 hfound
      rw [lease?_after_sweeps, hlease, Option.some.injEq, Prod.mk.injEq] at hlease'
      obtain ⟨⟨-, rfl⟩, hlive⟩ := hlease'
      exact Nat.lt_irrefl _ (hlive _ hmem)
  · exact fun reading => ⟨fun other => read_after_sweep, sweep_again store reading⟩

/-- Of two keys, one has expired for good before the read; the other is read at its expiry, where
    the last sweep has just been. -/
theorem sweeps_unseen_but_at_expiry :
    let store := (Store.new 100 60).after [⟨0, .put "a" ⟨[]⟩ 5⟩, ⟨0, .put "b" ⟨[]⟩ 1⟩]
    let sweeps := sweepsAt [500, 3000, 5000]
    store.Unseen sweeps 5000 "b"
      ∧ store.total (Count.evictionsOf "b") (sweeps ++ [⟨5000, .getWithTtl "b"⟩]) = 1
      ∧ (store.call ⟨5000, .getWithTtl "a"⟩).result = .payloadWithTtl (some (⟨[]⟩, 0))
      ∧ ((store.after sweeps).call ⟨5000, .getWithTtl "a"⟩).result = .payloadWithTtl none := by
  intro store sweeps
  have hreadings : ∀ reading ∈ [500, 3000, 5000], reading ≤ 5000 := by decide
  obtain ⟨hunseen, hexpired, -⟩ := sweeps_unseen store "b" hreadings
  obtain ⟨-, -, hinstant, -⟩ := sweeps_unseen store "a" hreadings
  have hlease : store.lease? "b" = some (⟨[]⟩, 1000) := rfl
  refine ⟨hunseen ?_, hexpired ⟨[]⟩ 1000 hlease (by decide), hinstant ⟨[]⟩ rfl (by decide)⟩
  rintro ⟨-, value, hother⟩
  simp [hlease] at hother

end Store

end BoundedCache
