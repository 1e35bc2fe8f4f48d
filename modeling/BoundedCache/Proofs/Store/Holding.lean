import BoundedCache.Proofs.Store.Operation
import Mathlib.Logic.Function.Iterate

namespace BoundedCache

/-!
# Actions on one key

Reads, puts and invalidations name one key, and of all entries they look at that of this key only,
or rather at its `Holding`: what is kept for the key, apart from when it was used.
`KeyAction.outcome` is what such an action answers, leaves and counts, as a function of the holding.

`store.Serves now key outcome step` says that a step of a store is that outcome and touches no other
key.  `serves_on` proves it of all actions, as long as nothing has to go for a put.
-/

/-! ### Holdings -/

/-- What is kept for a key, apart from when it was used. -/
structure Holding where
  value : Json.Payload
  expiresAt : Nat
  size : Nat
  hitCount : Nat

/-- What a payload is held as that is put to live for some seconds. -/
def Holding.new (value : Json.Payload) (now lifetime : Nat) : Holding :=
  { value, expiresAt := Entry.expiry now lifetime, size := value.size, hitCount := 0 }

/-- What is held after a successful read. -/
def Holding.touch (held : Holding) : Holding :=
  { held with hitCount := Word.succWrap held.hitCount }

/-- An entry without the times of its use. -/
def Entry.holding (entry : Entry) : Holding :=
  { value := entry.value, expiresAt := entry.expiresAt, size := entry.size
    hitCount := entry.hitCount }

/-- A row without the times of its use. -/
def Row.content (row : Row) : String × Holding := (row.1, row.2.holding)

/-- What a store holds for a key. -/
def Store.holding? (store : Store) (key : String) : Option Holding :=
  (store.entries.find? key).map Entry.holding

/-- The reading at which the entry of a key was put or read last. -/
def Store.accessedAt? (store : Store) (key : String) : Option Nat :=
  (store.entries.find? key).map Entry.lastAccessedAt

/-! ### Tallies -/

/-- Numbers of hits, misses and evictions. -/
@[ext] structure Tally where
  hits : Nat := 0
  misses : Nat := 0
  evictions : Nat := 0
  deriving DecidableEq, Repr

namespace Tally

/-- The counters `tally` after `more` has been counted as well, each of them a word. -/
def countOn (tally more : Tally) : Tally :=
  { hits := Word.succWrap^[more.hits] tally.hits
    misses := Word.succWrap^[more.misses] tally.misses
    evictions := Word.succWrap^[more.evictions] tally.evictions }

/-- Several tallies together. -/
def total (tallies : List Tally) : Tally :=
  { hits := (tallies.map hits).sum
    misses := (tallies.map misses).sum
    evictions := (tallies.map evictions).sum }

theorem countOn_total_cons (tally more : Tally) (rest : List Tally) :
    tally.countOn (total (more :: rest)) = (tally.countOn more).countOn (total rest) := by
  have hiterate (n m k : Nat) :
      Word.succWrap^[n + m] k = Word.succWrap^[m] (Word.succWrap^[n] k) := by
    rw [Nat.add_comm, Function.iterate_add_apply]
  simp only [countOn, total, List.map_cons, List.sum_cons, hiterate]

theorem total_perm {tallies tallies' : List Tally} (hperm : tallies.Perm tallies') :
    total tallies = total tallies' := by
  simp only [total, (hperm.map _).sum_eq]

end Tally

/-- The counters of a store. -/
def Store.tally (store : Store) : Tally :=
  { hits := store.statistics.hits, misses := store.statistics.misses
    evictions := store.statistics.evictions }

/-! ### Actions and their outcomes -/

/-- What is done to a key. -/
inductive KeyAction
  | get
  | getWithTtl
  | put (value : Json.Payload) (ttl : Int)
  | invalidate

/-- An action on a key as an operation. -/
def KeyAction.on (key : String) : KeyAction → Operation
  | .get => .get key
  | .getWithTtl => .getWithTtl key
  | .put value ttl => .put key value ttl
  | .invalidate => .invalidate key

/-- What an action on a key answers, what is held for the key afterwards, and what it counts. -/
structure Outcome where
  reply : Reply
  held : Option Holding
  counted : Tally := {}

/-- The outcome of a read, whose result is answered as `reply`. -/
def readOutcome (now : Nat) (reply : Option (Json.Payload × Nat) → Reply) :
    (held : Option Holding) → Outcome
  | none => { reply := reply none, held := none, counted := { misses := 1 } }
  | some held =>
    if held.expiresAt < now then
      { reply := reply none, held := none, counted := { misses := 1, evictions := 1 } }
    else
      { reply := reply (some (held.value, held.expiresAt - now)), held := some held.touch
        counted := { hits := 1 } }

/-- The outcome of an action on a key for which `held` is held. -/
def KeyAction.outcome (now defaultTtl : Nat) (held : Option Holding) : KeyAction → Outcome
  | .get => readOutcome now (fun found => .payload (found.map Prod.fst)) held
  | .getWithTtl => readOutcome now .payloadWithTtl held
  | .put value ttl =>
    { reply := .done
      held := some (.new value now (if ttl ≤ 0 then defaultTtl else ttl.toNat)) }
  | .invalidate => { reply := .flag held.isSome, held := none }

namespace Store

/-- A step of a store at `now` is an outcome for a key: it reports nothing and touches no other key,
    and what it leaves for the key was accessed by it. -/
structure Serves (store : Store) (now : Nat) (key : String) (outcome : Outcome)
    (step : Step Reply) : Prop where
  reply_eq : step.result = outcome.reply
  holding_eq : ∀ other, step.store.holding? other
    = if other = key then outcome.held else store.holding? other
  accessed_eq : ∀ other, step.store.accessedAt? other
    = if other = key then outcome.held.map fun _ => now else store.accessedAt? other
  tally_eq : step.store.tally = store.tally.countOn outcome.counted
  events_eq : step.events = []

variable {store : Store} {key : String}

/-- An outcome is told by the entry that it leaves for the key. -/
theorem Serves.of_find? {now : Nat} {outcome : Outcome} {step : Step Reply} (found : Option Entry)
    (hfind : ∀ other, step.store.entries.find? other
      = if other = key then found else store.entries.find? other)
    (hheld : outcome.held = found.map Entry.holding)
    (haccessed : ∀ entry, found = some entry → entry.lastAccessedAt = now)
    (hreply : step.result = outcome.reply)
    (htally : step.store.tally = store.tally.countOn outcome.counted)
    (hevents : step.events = []) : store.Serves now key outcome step where
  reply_eq := hreply
  holding_eq := fun other => by
    rw [holding?, hfind, holding?, hheld]
    split <;> rfl
  accessed_eq := fun other => by
    have hfound : found.map Entry.lastAccessedAt = outcome.held.map fun _ => now := by
      rw [hheld, Option.map_map]
      exact Option.map_congr haccessed
    rw [accessedAt?, hfind, accessedAt?, ← hfound]
    split <;> rfl
  tally_eq := htally
  events_eq := hevents

/-! ### Reads and invalidations -/

theorem serves_read (store : Store) (now : Nat) (key : String)
    (reply : Option (Json.Payload × Nat) → Reply) :
    store.Serves now key (readOutcome now reply (store.holding? key))
      ((store.read now key).map reply) := by
  cases hfind : store.entries.find? key with
  | none =>
    have hheld : store.holding? key = none := by rw [holding?, hfind, Option.map_none]
    have hsame (other : String) : store.entries.find? other
        = if other = key then none else store.entries.find? other := by
      split
      · next hother => rw [hother, hfind]
      · rfl
    rw [read_of_find?_eq_none now hfind, hheld]
    exact .of_find? none hsame rfl (by simp) rfl rfl rfl
  | some entry =>
    have hheld : store.holding? key = some entry.holding := by rw [holding?, hfind, Option.map_some]
    rw [hheld]
    by_cases hexpired : entry.expiresAt < now
    · have houtcome : readOutcome now reply (some entry.holding)
          = { reply := reply none, held := none, counted := { misses := 1, evictions := 1 } } :=
        if_pos hexpired
      rw [read_of_expired hfind hexpired, houtcome]
      exact .of_find? none (Table.find?_erase _ _) rfl (by simp) rfl rfl rfl
    · have houtcome : readOutcome now reply (some entry.holding)
          = { reply := reply (some (entry.value, entry.expiresAt - now))
              held := some entry.holding.touch, counted := { hits := 1 } } := if_neg hexpired
      rw [read_of_live hfind (by omega), houtcome]
      refine .of_find? (some (entry.touch now store.recency.next)) (fun other => ?_) rfl
        (fun found hfound => ?_) rfl rfl rfl
      · refine (Table.find?_modify _ _ _ _).trans ?_
        split
        · next hother => rw [hother, hfind, Option.map_some]
        · rfl
      · rw [← Option.some.inj hfound]
        rfl

theorem tally_drop (store : Store) (key : String) : (store.drop key).tally = store.tally := by
  cases hfind : store.entries.find? key with
  | none => rw [drop_of_find?_eq_none hfind]
  | some entry => rw [drop_of_find? hfind]; rfl

/-! ### Puts -/

/-- Where the bytes fit, nothing goes. -/
theorem eq_of_makesRoom {incoming : Nat} {last : Store} {gone : List Row}
    (h : MakesRoom incoming store gone last) (hfits : store.fits incoming = true) :
    gone = [] ∧ last = store := by
  cases h with
  | fits _ => exact ⟨rfl, rfl⟩
  | exhausted _ _ => exact ⟨rfl, rfl⟩
  | evict hover _ _ _ => rw [hfits] at hover; exact absurd hover (by decide)

/-- Whether nothing has to go for an action: what is put fits beside the other keys. -/
def HasRoom (store : Store) (key : String) : KeyAction → Prop
  | .put value _ => (store.drop key).fits value.size = true ∧ value.size ≤ store.budget
  | _ => True

/-- **Every action is its outcome** where there is room for it. -/
theorem serves_on (store : Store) (now : Nat) (key : String) (action : KeyAction)
    (hroom : store.HasRoom key action) :
    store.Serves now key (action.outcome now store.defaultTtl (store.holding? key))
      (store.apply now (action.on key)) := by
  cases action with
  | get => exact serves_read store now key fun found => .payload (found.map Prod.fst)
  | getWithTtl => exact serves_read store now key .payloadWithTtl
  | put value ttl =>
    obtain ⟨gone, last, hmakes, -, hstore, hevents⟩ := exists_put_eq store now key value ttl
    obtain ⟨rfl, rfl⟩ := eq_of_makesRoom hmakes hroom.1
    have hwarnings : store.putWarnings key value.size = [] := if_neg (Nat.not_lt.2 hroom.2)
    refine .of_find? (some ((store.drop key).newEntry now value (store.effectiveTtl ttl)))
      (fun other => ?_) rfl (fun found hfound => ?_) rfl ?_ (hevents.trans (by rw [hwarnings]; rfl))
    · show (store.apply now (.put key value ttl)).store.entries.find? other = _
      rw [hstore]
      refine (Table.find?_insert _ _ _ _).trans ?_
      rw [find?_drop]
      split <;> rfl
    · rw [← Option.some.inj hfound]
      rfl
    · show (store.apply now (.put key value ttl)).store.tally = _
      rw [hstore]
      exact tally_drop store key
  | invalidate =>
    refine .of_find? none (find?_drop store key) rfl (by simp) ?_ (tally_drop store key) rfl
    show Reply.flag (store.entries.contains key) = .flag (store.holding? key).isSome
    rw [Table.contains, holding?, Option.isSome_map]

end Store

end BoundedCache
