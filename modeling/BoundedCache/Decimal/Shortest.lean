import BoundedCache.Decimal.Binary64

namespace BoundedCache

/-!
# The shortest decimal of a magnitude

Many decimal numbers are read as the same magnitude.  `Binary64.shortest` picks the one with the
fewest digits, among those the nearest to the magnitude, and of two equally near ones the one whose
last digit is even.

The decimals that are read as a magnitude form an interval around it (`Binary64.covers`), which
reaches half way to both neighbours; its ends belong to it when the mantissa is even.  If a grid
of decimals with a given number of digits meets the interval at all, then one of the two grid
points next to the magnitude lies in it, so these two are the only candidates of a grid.
-/

/-- The decimal number `digits * 10 ^ exponent`. -/
structure Scientific where
  digits : Nat
  exponent : Int
  deriving DecidableEq, Repr

namespace Scientific

/-- The same number without zeros at the end of its digits. -/
def stripZeros (x : Scientific) : Scientific :=
  if x.digits ≠ 0 ∧ x.digits % 10 = 0 then
    stripZeros ⟨x.digits / 10, x.exponent + 1⟩
  else x
termination_by x.digits
decreasing_by omega

end Scientific

namespace Binary64

/-- Compares `quarters` quarter units of the last place of `x` with a decimal, both sides brought
    to a common integer scale. -/
def compareQuarters (x : Binary64) (quarters : Nat) (point : Scientific) : Ordering :=
  let place := x.exponent - 2
  compare ((quarters <<< place.toNat) * Nat.pow 10 (-point.exponent).toNat)
    ((point.digits <<< (-place).toNat) * Nat.pow 10 point.exponent.toNat)

/-- How far below the magnitude the interval of decimals that are read as it reaches, in quarter
    units: a magnitude at a power of two has a nearer neighbour below. -/
def reachBelow (x : Binary64) : Nat :=
  if x.mantissa = leastFullMantissa ∧ leastExponent < x.exponent then 1 else 2

/-- Whether a decimal is read as the magnitude `x`. -/
def covers (x : Binary64) (point : Scientific) : Bool :=
  let below := x.compareQuarters (4 * x.mantissa - x.reachBelow) point
  let above := x.compareQuarters (4 * x.mantissa + 2) point
  if x.mantissa % 2 = 0 then below.isLE && above.isGE else below.isLT && above.isGT

/-- The greatest `e` with `10 ^ e ≤ x`, for a magnitude other than 0. -/
def decimalExponent (x : Binary64) : Int :=
  let bits := (x.numerator.log2 : Int) - x.denominator.log2 - 1
  let guess := (bits * 30103).fdiv 100000
  if (x.compareQuarters (4 * x.mantissa) ⟨1, guess + 1⟩).isGE then guess + 1 else guess

/-- The grid point nearest to `x` among the decimals of `count` digits that are read as `x`. -/
def nearestWithDigits? (x : Binary64) (count : Nat) : Option Scientific :=
  let place := x.decimalExponent - count + 1
  let below :=
    (x.numerator * Nat.pow 10 (-place).toNat) / (x.denominator * Nat.pow 10 place.toNat)
  let lower : Scientific := ⟨below, place⟩
  let upper : Scientific := ⟨below + 1, place⟩
  match x.covers lower, x.covers upper with
  | false, false => none
  | true, false => some lower
  | false, true => some upper
  | true, true =>
    match x.compareQuarters (8 * x.mantissa) ⟨2 * below + 1, place⟩ with
    | .lt => some lower
    | .gt => some upper
    | .eq => some (if below % 2 = 0 then lower else upper)

/-- The decimal with the fewest digits that is read as `x`; 17 digits always suffice. -/
def shortest (x : Binary64) : Scientific :=
  if x.isZero then ⟨0, 0⟩
  else (((List.range' 1 17).findSome? x.nearestWithDigits?).getD ⟨0, 0⟩).stripZeros

end Binary64

end BoundedCache
