import BoundedCache.Word

namespace BoundedCache

/-!
# Clocks

A clock reading is a number of milliseconds, a word.  `Span` is a length of time as it is handed to
a clock, and `Span.toMillis` its whole milliseconds.  Readings come round to 0 after `Word.top`.

`Clocks` are several faces, some of which may show the same clock: `share` adds a face for the clock
of an existing face, and setting a clock forward is seen on all its faces.
-/

/-- A length of time in one of three units. -/
inductive Span
  | micros (n : Nat)
  | millis (n : Nat)
  | seconds (n : Nat)
  deriving DecidableEq, Repr

/-- The whole milliseconds of a length of time, as a word. -/
def Span.toMillis : Span → Nat
  | micros n => n / 1000
  | millis n => n
  | seconds n => Word.mulWrap n 1000

/-- The reading of a clock that is set forward. -/
def Span.after (span : Span) (reading : Nat) : Nat := Word.addWrap reading span.toMillis

/-- Faces of clocks: `readings` are those of the clocks, `faces` the clock that each face shows. -/
structure Clocks where
  readings : List Nat
  faces : List Nat
  deriving Repr

namespace Clocks

/-- One clock with one face. -/
def startingAt (start : Nat) : Clocks := ⟨[start], [0]⟩

/-- One more clock, with one face. -/
def add (clocks : Clocks) (start : Nat) : Clocks :=
  ⟨clocks.readings ++ [start], clocks.faces ++ [clocks.readings.length]⟩

/-- One more face for the clock of a given face. -/
def share (clocks : Clocks) (face : Nat) : Clocks :=
  match clocks.faces[face]? with
  | some clock => { clocks with faces := clocks.faces ++ [clock] }
  | none => clocks

/-- Sets the clock of a given face forward. -/
def advance (clocks : Clocks) (face : Nat) (span : Span) : Clocks :=
  match clocks.faces[face]? with
  | some clock => { clocks with readings := clocks.readings.modify clock span.after }
  | none => clocks

/-- What the faces show. -/
def shown (clocks : Clocks) : List Nat :=
  clocks.faces.map fun clock => clocks.readings[clock]?.getD 0

end Clocks

end BoundedCache
