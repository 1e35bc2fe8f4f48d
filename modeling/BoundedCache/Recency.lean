import BoundedCache.Word

namespace BoundedCache

/-!
# The order of use

`Recency` remembers in which order keys were used.  Every use draws a tick, and the key is filed
under its latest tick, so the key under the smallest tick is the least recently used one.  Ticks
come from a counter that keeps running when keys are dropped or all of them are forgotten.
-/

/-- Files a key under a tick, in ascending order of ticks and in the place of a key that stands
    under the same tick. -/
def insertTick (tick : Nat) (key : String) : List (Nat × String) → List (Nat × String)
  | [] => [(tick, key)]
  | row :: rest =>
    if tick < row.1 then (tick, key) :: row :: rest
    else if tick = row.1 then (tick, key) :: rest
    else row :: insertTick tick key rest

/-- Keys under ticks, the smallest tick first, and the next tick. -/
structure Recency where
  order : List (Nat × String)
  next : Nat
  deriving DecidableEq, Repr

namespace Recency

/-- No keys, and ticks from 1 on. -/
def empty : Recency := ⟨[], 1⟩

/-- The number of keys. -/
def size (recency : Recency) : Nat := recency.order.length

/-- The keys, the least recently used one first. -/
def keys (recency : Recency) : List String := recency.order.map Prod.snd

/-- Forgets the key under a tick. -/
def remove (recency : Recency) (tick : Nat) : Recency :=
  { recency with order := recency.order.filter fun row => row.1 != tick }

/-- Files a key under the next tick. -/
def add (recency : Recency) (key : String) : Recency :=
  { order := insertTick recency.next key recency.order, next := Word.succWrap recency.next }

/-- Marks a key as used, which was filed under `previous` before; the tick that it is filed under
    now is the one that was next. -/
def touch (recency : Recency) (key : String) (previous : Option Nat) : Nat × Recency :=
  match previous with
  | some tick => (recency.next, (recency.remove tick).add key)
  | none => (recency.next, recency.add key)

/-- The least recently used key, and the order without it. -/
def popOldest? (recency : Recency) : Option (String × Recency) :=
  match recency.order with
  | [] => none
  | row :: rest => some (row.2, { recency with order := rest })

/-- Forgets all keys, but not the next tick. -/
def clear (recency : Recency) : Recency := { recency with order := [] }

end Recency

end BoundedCache
