import BoundedCache.Proofs.Run.Basic
import BoundedCache.Proofs.Store.Contents

namespace BoundedCache

/-!
# What a read finds

What a key holds is determined by the history of the run: `start.Granted calls key value expiry`
says that the latest put of the key stored `value` to be read up to `expiry`, and that nothing
since then has ended that lease or evicted the key.

* `lease?_after_iff` — the store grants exactly what the history tells;
* `reads_after` — so reads find exactly that, and a read that finds nothing is followed by such
  reads only, until the key is put again.

None of it needs ticks or byte counts to be right, so it holds of runs of any length.
-/

/-- The key that an operation reads. -/
def Operation.readKey? : Operation → Option String
  | .get key => some key
  | .getWithTtl key => some key
  | _ => none

/-- Whether a reply to a read tells that there is nothing to be read. -/
def Reply.isMiss : Reply → Bool
  | .payload none => true
  | .payloadWithTtl none => true
  | _ => false

namespace Store

/-- The seconds that a payload lives which is put after some calls: its own time to live, or else
    the default that is in force at that moment. -/
def secondsAfter (start : Store) (calls : List Call) (ttl : Int) : Nat :=
  if 0 < ttl then ttl.toNat else lastSet start.defaultTtl Operation.newDefaultTtl? calls

/-- The latest put of a key in a run stored `value`, which can be read up to `expiry`, and the calls
    after it neither end that nor evict the key. -/
def Granted (start : Store) (calls : List Call) (key : String) (value : Json.Payload)
    (expiry : Nat) : Prop :=
  ∃ earlier putAt ttl later, calls = earlier ++ ⟨putAt, .put key value ttl⟩ :: later
    ∧ expiry = min (putAt + min (1000 * start.secondsAfter earlier ttl) Word.top) Word.top
    ∧ (∀ call ∈ later, call.operation.putKey? ≠ some key
        ∧ ¬ call.operation.Ends call.now key expiry)
    ∧ ∀ size, .evicted key size
        ∉ (start.after (earlier ++ [⟨putAt, .put key value ttl⟩])).events later

variable {start : Store} {calls : List Call} {key : String} {value : Json.Payload} {expiry : Nat}

/-! ### One more call -/

/-- A call in a run is the last one or stands before it. -/
theorem concat_eq_append_cons {call put : Call} {earlier later : List Call}
    (hcalls : calls ++ [call] = earlier ++ put :: later) :
    (later = [] ∧ calls = earlier ∧ call = put)
      ∨ ∃ before, later = before ++ [call] ∧ calls = earlier ++ put :: before := by
  rcases List.eq_nil_or_concat' later with rfl | ⟨before, last, rfl⟩
  · obtain ⟨hearlier, hlast⟩ := List.append_inj' hcalls rfl
    exact .inl ⟨rfl, hearlier, List.singleton_inj.1 hlast⟩
  · rw [← List.cons_append, ← List.append_assoc] at hcalls
    obtain ⟨hbefore, hlast⟩ := List.append_inj' hcalls rfl
    obtain rfl : call = last := List.singleton_inj.1 hlast
    exact .inr ⟨before, rfl, hbefore⟩

theorem not_granted_nil : ¬ start.Granted [] key value expiry := by
  rintro ⟨earlier, putAt, ttl, later, hcalls, -⟩
  simp at hcalls

/-- The expiry of an entry that is put after a run. -/
theorem expiry_after (start : Store) (calls : List Call) (now : Nat) (ttl : Int) :
    Entry.expiry now ((start.after calls).effectiveTtl ttl)
      = min (now + min (1000 * start.secondsAfter calls ttl) Word.top) Word.top := by
  rw [Entry.expiry, Word.addSat, Word.mulSat, effectiveTtl, defaultTtl_after, Nat.mul_comm,
    secondsAfter]
  by_cases httl : 0 < ttl
  · rw [if_pos httl, if_neg (by omega)]
  · rw [if_neg httl, if_pos (by omega)]

/-- After a put of the key, the history is that of this put. -/
theorem granted_put {now : Nat} {payload : Json.Payload} {ttl : Int} :
    start.Granted (calls ++ [⟨now, .put key payload ttl⟩]) key value expiry ↔
      value = payload ∧ expiry = Entry.expiry now ((start.after calls).effectiveTtl ttl) := by
  rw [expiry_after]
  constructor
  · rintro ⟨earlier, putAt, ttl', later, hcalls, hexpiry, hlater, -⟩
    -- A put before the last call would have a put of the key after it.
    rcases concat_eq_append_cons hcalls with ⟨-, rfl, hput⟩ | ⟨before, rfl, -⟩
    · simp only [Call.mk.injEq, Operation.put.injEq, true_and] at hput
      obtain ⟨rfl, rfl, rfl⟩ := hput
      exact ⟨rfl, hexpiry⟩
    · exact absurd rfl (hlater _ (List.mem_append_right _ (List.mem_singleton_self _))).1
  · rintro ⟨rfl, hexpiry⟩
    exact ⟨calls, now, ttl, [], rfl, hexpiry, fun call hcall => absurd hcall List.not_mem_nil,
      fun size => List.not_mem_nil⟩

/-- After any other call, the history is the one before it, unless the call takes the lease away. -/
theorem granted_concat {call : Call} (hput : call.operation.putKey? ≠ some key) :
    start.Granted (calls ++ [call]) key value expiry ↔
      start.Granted calls key value expiry ∧ ¬ call.operation.Ends call.now key expiry
        ∧ ∀ size, .evicted key size ∉ ((start.after calls).call call).events := by
  constructor
  · rintro ⟨earlier, putAt, ttl, later, hcalls, hexpiry, hlater, hevicted⟩
    -- The last call is no put of the key, so the latest put stands before it.
    rcases concat_eq_append_cons hcalls with ⟨-, -, rfl⟩ | ⟨before, rfl, rfl⟩
    · exact absurd rfl hput
    · have hlast := hlater call (List.mem_append_right _ (List.mem_singleton_self _))
      simp only [events_concat, List.mem_append, not_or] at hevicted
      refine ⟨⟨earlier, putAt, ttl, before, rfl, hexpiry, ?_, fun size => (hevicted size).1⟩,
        hlast.2, fun size hmem => (hevicted size).2 ?_⟩
      · exact fun other hother => hlater other (List.mem_append_left _ hother)
      · rwa [← after_append, List.append_assoc, List.singleton_append]
  · rintro ⟨⟨earlier, putAt, ttl, later, rfl, hexpiry, hlater, hevicted⟩, hends, hquiet⟩
    refine ⟨earlier, putAt, ttl, later ++ [call], by simp, hexpiry, ?_, ?_⟩
    · intro other hother
      rcases List.mem_append.1 hother with hother | hother
      · exact hlater other hother
      · rw [List.mem_singleton.1 hother]
        exact ⟨hput, hends⟩
    · intro size hmem
      rw [events_concat, ← after_append, List.append_assoc, List.singleton_append] at hmem
      rcases List.mem_append.1 hmem with hmem | hmem
      · exact hevicted size hmem
      · exact hquiet size hmem

/-! ### Runs -/

/-- **A store grants exactly what the history of its run tells.** -/
theorem lease?_after_iff (budget defaultTtl : Nat) (calls : List Call) :
    ((Store.new budget defaultTtl).after calls).lease? key = some (value, expiry) ↔
      (Store.new budget defaultTtl).Granted calls key value expiry := by
  induction calls using List.reverseRecOn with
  | nil => exact iff_of_false (Option.some_ne_none _).symm not_granted_nil
  | append_singleton calls call ih =>
    rw [after_concat]
    -- A put of the key begins a new history, every other call continues the one before it.
    by_cases hput : call.operation.putKey? = some key
    · obtain ⟨now, operation⟩ := call
      obtain ⟨payload, ttl, rfl⟩ := Operation.eq_put_of_putKey? hput
      rw [granted_put, Store.call, lease?_put, Option.some.injEq, Prod.mk.injEq, eq_comm,
        eq_comm (a := expiry)]
    · rw [granted_concat hput, ← ih]
      exact lease?_apply _ call.now hput

/-- Without a put of the key, nothing comes back. -/
theorem lease?_after_eq_none {store : Store} (hnone : store.lease? key = none)
    (hcalls : ∀ call ∈ calls, call.operation.putKey? ≠ some key) :
    (store.after calls).lease? key = none := by
  induction calls generalizing store with
  | nil => exact hnone
  | cons call calls ih =>
    refine ih ?_ fun other hother => hcalls other (List.mem_cons_of_mem _ hother)
    rw [Option.eq_none_iff_forall_ne_some]
    rintro ⟨value, expiry⟩ hlease
    have hbefore := (lease?_apply store call.now (hcalls call List.mem_cons_self)).1 hlease
    exact Option.some_ne_none _ (hbefore.1.symm.trans hnone)

/-- Both kinds of reads are the same read. -/
theorem apply_of_readKey? (store : Store) (now : Nat) {operation : Operation}
    (hread : operation.readKey? = some key) :
    (store.apply now operation).store = (store.read now key).store
      ∧ ((store.apply now operation).result.isMiss = true
        ↔ (store.read now key).result = none) := by
  cases operation with
  | get other =>
    obtain rfl : other = key := Option.some.inj hread
    refine ⟨rfl, ?_⟩
    simp only [apply, Step.map]
    cases (store.read now other).result <;> simp [Reply.isMiss]
  | getWithTtl other =>
    obtain rfl : other = key := Option.some.inj hread
    refine ⟨rfl, ?_⟩
    simp only [apply, Step.map]
    cases (store.read now other).result <;> simp [Reply.isMiss]
  | _ => simp [Operation.readKey?] at hread

/-- **Reads are determined by the history.**  In a run of a fresh store, at whatever clock
    readings, a read of a key finds the payload of its latest put, up to the expiry of that put
    and with the time that is left until then, iff nothing has ended or evicted it since; and a
    read that finds nothing is followed by such reads only, until the key is put again. -/
theorem reads_after (budget defaultTtl : Nat) :
    (∀ calls now key value left,
      (((Store.new budget defaultTtl).after calls).call ⟨now, .getWithTtl key⟩).result
          = .payloadWithTtl (some (value, left))
        ↔ ∃ expiry, (Store.new budget defaultTtl).Granted calls key value expiry
          ∧ now ≤ expiry ∧ left = expiry - now)
    ∧ (∀ calls now key value,
      (((Store.new budget defaultTtl).after calls).call ⟨now, .get key⟩).result
          = .payload (some value)
        ↔ ∃ expiry, (Store.new budget defaultTtl).Granted calls key value expiry ∧ now ≤ expiry)
    ∧ ∀ (store : Store) (read again : Call) later key,
      read.operation.readKey? = some key → again.operation.readKey? = some key →
      (store.call read).result.isMiss = true →
      (∀ call ∈ later, call.operation.putKey? ≠ some key) →
      ((store.after (read :: later)).call again).result.isMiss = true := by
  refine ⟨?_, ?_, ?_⟩
  · intro calls now key value left
    have hresult (store : Store) : (store.call ⟨now, .getWithTtl key⟩).result
        = .payloadWithTtl (store.read now key).result := rfl
    simp only [hresult, Reply.payloadWithTtl.injEq, read_result, lease?_after_iff]
  · intro calls now key value
    have hresult (store : Store) : (store.call ⟨now, .get key⟩).result
        = .payload ((store.read now key).result.map Prod.fst) := rfl
    simp only [hresult, Reply.payload.injEq, Option.map_eq_some_iff, Prod.exists, read_result,
      lease?_after_iff]
    constructor
    · rintro ⟨_, left, ⟨expiry, hgranted, hlive, -⟩, rfl⟩
      exact ⟨expiry, hgranted, hlive⟩
    · rintro ⟨expiry, hgranted, hlive⟩
      exact ⟨value, expiry - now, ⟨expiry, hgranted, hlive, rfl⟩, rfl⟩
  · intro store read again later key hread hagain hmiss hlater
    obtain ⟨hstore, hnone⟩ := apply_of_readKey? store read.now hread
    have hgone : (store.call read).store.lease? key = none := by
      rw [Store.call, hstore]
      exact lease?_read_of_none (hnone.1 hmiss)
    have hafter : (store.after (read :: later)).lease? key = none := by
      rw [after]
      exact lease?_after_eq_none hgone hlater
    refine (apply_of_readKey? _ again.now hagain).2.2 ?_
    rw [Option.eq_none_iff_forall_ne_some]
    rintro ⟨value, left⟩ hsome
    obtain ⟨expiry, hlease, -⟩ := (read_result _ _ _ _ _).1 hsome
    exact Option.some_ne_none _ (hlease.symm.trans hafter)

/-- A payload is read up to the millisecond of its expiry, also after the clock has gone back and
    the default has changed; a read after that finds nothing, nor does a later one at an earlier
    reading. -/
theorem reads_after_backwards :
    let calls : List Call :=
      [⟨1000, .put "a" ⟨[]⟩ 5⟩, ⟨10, .get "a"⟩, ⟨20, .setDefaultTtl 1⟩, ⟨5999, .sweep⟩]
    let store := (Store.new 5 60).after calls
    (∃ expiry, (Store.new 5 60).Granted calls "a" ⟨[]⟩ expiry ∧ 6000 ≤ expiry ∧ 0 = expiry - 6000)
      ∧ (store.call ⟨6001, .get "a"⟩).result.isMiss = true
      ∧ ((store.after [⟨6001, .get "a"⟩, ⟨0, .put "b" ⟨[]⟩ 0⟩]).call
          ⟨10, .getWithTtl "a"⟩).result.isMiss = true := by
  intro calls store
  obtain ⟨hfound, -, hmiss⟩ := reads_after 5 60
  have hexpired : (store.call ⟨6001, .get "a"⟩).result.isMiss = true := rfl
  refine ⟨(hfound calls 6000 "a" ⟨[]⟩ 0).1 rfl, hexpired, ?_⟩
  refine hmiss store ⟨6001, .get "a"⟩ ⟨10, .getWithTtl "a"⟩ [⟨0, .put "b" ⟨[]⟩ 0⟩] "a" rfl rfl
    hexpired ?_
  intro call hcall
  rw [List.mem_singleton.1 hcall]
  decide

end Store

end BoundedCache
