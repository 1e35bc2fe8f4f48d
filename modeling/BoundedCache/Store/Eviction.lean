import BoundedCache.Store.Basic

namespace BoundedCache.Store

/-!
# Making room

`evictUntilFits` evicts least recently used entries until a number of further bytes fit the budget
or no entry is left.  The sum stops at `Word.top`, so with the largest budget everything fits.
-/

/-- Whether a number of further bytes fit the budget. -/
def fits (store : Store) (incoming : Nat) : Bool :=
  decide (Word.addSat store.usedBytes incoming ≤ store.budget)

/-- The key that has to go first, and the order of use without it: the least recently used key if it
    has an entry, else any key that has one. -/
def victim? (store : Store) : Option (String × Recency) :=
  let other := store.entries.keys.head?
  match store.recency.popOldest? with
  | some (key, recency) =>
    if store.entries.contains key then some (key, recency)
    else other.map (·, recency)
  | none => other.map (·, store.recency)

/-- Evicts one entry, if there is one. -/
def evictOne? (store : Store) : Option (String × Entry × Store) := do
  let (key, recency) ← store.victim?
  let (entry, store) ← { store with recency }.remove? key
  return (key, entry, { store with statistics := store.statistics.recordEviction })

/-- Evicts at most `rounds` entries, until `incoming` further bytes fit; the result is the number of
    evicted entries. -/
def evictRounds (incoming : Nat) : (rounds : Nat) → (store : Store) → Step Nat
  | 0, store => { result := 0, store }
  | rounds + 1, store =>
    if store.fits incoming then { result := 0, store }
    else
      match store.evictOne? with
      | none => { result := 0, store }
      | some (key, entry, store) =>
        let more := evictRounds incoming rounds store
        { more with
          result := more.result + 1, events := .evicted key entry.size :: more.events }

/-- Evicts entries until `incoming` further bytes fit or the cache is empty; a round for every entry
    is enough. -/
def evictUntilFits (store : Store) (incoming : Nat) : Step Nat :=
  evictRounds incoming store.size store

end BoundedCache.Store
