namespace BoundedCache

/-!
# Finite binary floating-point magnitudes

`Binary64` is a magnitude of the 64-bit binary format, `mantissa * 2 ^ exponent`; it has no sign,
no infinity and no NaN.  A magnitude in standard form has a mantissa below `2 ^ 53` and an exponent
between `-1074` and `971`, and the mantissa is at least `2 ^ 52` unless the exponent is the least.

Everything is exact arithmetic on natural numbers:

* `Binary64.ofQuotient?`: the magnitude nearest to a quotient, a tie goes to the even mantissa, and
  there is none when the quotient is beyond the range;
* `Binary64.ofNat?`, `Binary64.mul?`, `Binary64.div?`: that rounding, applied to an integer, a
  product and a quotient of two magnitudes;
* `Binary64.ofDecimal?`: the magnitude that a decimal number is read as.
-/

/-- The magnitude `mantissa * 2 ^ exponent`. -/
structure Binary64 where
  mantissa : Nat
  exponent : Int
  deriving DecidableEq, Repr

namespace Binary64

/-- The exponent of the smallest magnitudes. -/
def leastExponent : Int := -1074

/-- The exponent of the largest magnitudes. -/
def greatestExponent : Int := 971

/-- The mantissas stay below this number, `2 ^ 53`. -/
def mantissaBound : Nat := 9007199254740992

/-- The least mantissa that goes with every exponent, `2 ^ 52`. -/
def leastFullMantissa : Nat := 4503599627370496

/-- The magnitude 0. -/
def zero : Binary64 := ⟨0, leastExponent⟩

/-- Whether a magnitude is 0. -/
def isZero (x : Binary64) : Bool := x.mantissa == 0

/-- The numerator of a magnitude as a quotient of natural numbers. -/
def numerator (x : Binary64) : Nat := x.mantissa <<< x.exponent.toNat

/-- The denominator that goes with `numerator`, a power of two. -/
def denominator (x : Binary64) : Nat := 1 <<< (-x.exponent).toNat

/-! ### Rounding -/

/-- The integer nearest to `num / den`; of two equally near ones the even one. -/
def roundHalfEven (num den : Nat) : Nat :=
  let below := num / den
  let excess := 2 * (num % den)
  if excess < den then below
  else if den < excess then below + 1
  else below + below % 2

/-- The exponent of the last place that a quotient `num / den` is rounded to: 53 binary digits are
    kept, fewer where the least exponent forbids it. -/
def lastPlace (num den : Nat) : Int :=
  let guess := (num.log2 : Int) - den.log2 - 52
  let short := num <<< (-guess).toNat < den <<< (guess.toNat + 52)
  max (if short then guess - 1 else guess) leastExponent

/-- The magnitude nearest to `num / den`, unless it is beyond the greatest one. -/
def ofQuotient? (num den : Nat) : Option Binary64 :=
  if num = 0 then some zero
  else
    let place := lastPlace num den
    let rounded := roundHalfEven (num <<< (-place).toNat) (den <<< place.toNat)
    let x := if rounded = mantissaBound then ⟨leastFullMantissa, place + 1⟩ else ⟨rounded, place⟩
    if greatestExponent < x.exponent then none else some x

/-- The magnitude nearest to an integer. -/
def ofNat? (n : Nat) : Option Binary64 := ofQuotient? n 1

/-- The magnitude nearest to a product. -/
def mul? (x y : Binary64) : Option Binary64 :=
  ofQuotient? (x.numerator * y.numerator) (x.denominator * y.denominator)

/-- The magnitude nearest to a quotient; the divisor is not 0. -/
def div? (x y : Binary64) : Option Binary64 :=
  ofQuotient? (x.numerator * y.denominator) (x.denominator * y.numerator)

/-! ### Decimal numbers -/

/-- The greatest power of ten that a decimal number is scaled by in one step. -/
def greatestStep : Nat := 308

/-- The magnitude `x * 10 ^ power`. -/
def scaleUp? (x : Binary64) (power : Nat) : Option Binary64 :=
  ofNat? (Nat.pow 10 power) >>= x.mul?

/-- The magnitude `x / 10 ^ power`. -/
def scaleDown? (x : Binary64) (power : Nat) : Option Binary64 :=
  ofNat? (Nat.pow 10 power) >>= x.div?

/-- The magnitude after `steps` divisions by `10 ^ greatestStep`, each of them rounded. -/
def scaleDownInSteps? : (steps : Nat) → (x : Binary64) → Option Binary64
  | 0, x => some x
  | steps + 1, x =>
    if x.isZero then some x else x.scaleDown? greatestStep >>= scaleDownInSteps? steps

/-- The magnitude `x * 10 ^ exponent`; there is none when it is beyond the range. -/
def scaleByPowerOfTen? (x : Binary64) (exponent : Int) : Option Binary64 :=
  if exponent < 0 then
    let steps := (exponent.natAbs - 1) / greatestStep
    x.scaleDownInSteps? steps >>= fun y => y.scaleDown? (exponent.natAbs - steps * greatestStep)
  else if exponent.natAbs ≤ greatestStep then x.scaleUp? exponent.natAbs
  else if x.isZero then some x
  else none

/-- The magnitude that `significand * 10 ^ exponent` is read as.  The significand is rounded before
    it is scaled, so the result can differ in its last place from the nearest magnitude. -/
def ofDecimal? (significand : Nat) (exponent : Int) : Option Binary64 :=
  ofNat? significand >>= fun x => x.scaleByPowerOfTen? exponent

end Binary64

end BoundedCache
