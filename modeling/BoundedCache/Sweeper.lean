import BoundedCache.Store.Operation

namespace BoundedCache

/-!
# Sweepers

A `Sweeper` is a task that sweeps a cache at every multiple of its interval, counted from the moment
when it was spawned.  It ends when it is cancelled, or at its first tick that finds no handle of the
cache alive, and an ended sweeper stays so.

Task time and the clock of the cache are two different things: the sweeper wakes up by task time and
sweeps at the reading of the clock.
-/

/-- A task that sweeps a cache again and again. -/
structure Sweeper where
  /-- The task time of the spawning. -/
  spawnedAt : Nat
  /-- The milliseconds between two ticks, at least one. -/
  interval : Nat
  isRunning : Bool := true
  deriving DecidableEq, Repr

namespace Sweeper

/-- The interval of a sweeper that is asked for with a given one. -/
def effectiveInterval (millis : Nat) : Nat := max millis 1

/-- A sweeper that is spawned at a task time. -/
def spawn (now millis : Nat) : Sweeper := { spawnedAt := now, interval := effectiveInterval millis }

/-- What a sweeper reports when it is spawned. -/
def startEvent (sweeper : Sweeper) : Event := .sweepStarted sweeper.interval

/-- The task times after `start` and up to `stop` at which a sweeper ticks. -/
def ticks (sweeper : Sweeper) (start stop : Nat) : List Nat :=
  let passed := (start - sweeper.spawnedAt) / sweeper.interval
  let reached := (stop - sweeper.spawnedAt) / sweeper.interval
  (List.range' (passed + 1) (reached - passed)).map fun k =>
    sweeper.spawnedAt + k * sweeper.interval

/-- One sweep of the cache, with its report. -/
def sweepStore (store : Store) (now : Nat) : Step Unit :=
  let step := store.sweep now
  let remaining := step.store.size
  let event :=
    if 0 < step.result then Event.sweepRemoved step.result remaining else .sweepIdle remaining
  { result := (), store := step.store, events := step.events ++ [event] }

/-- What a sweeper reports when it is cancelled: nothing if it has ended already. -/
def cancelEvents (sweeper : Sweeper) : List Event :=
  if sweeper.isRunning then [.sweepCancelled] else []

/-- A sweeper that has ended. -/
def ended (sweeper : Sweeper) : Sweeper := { sweeper with isRunning := false }

end Sweeper

end BoundedCache
