import BoundedCache.Decimal.Shortest

namespace BoundedCache

/-!
# Decimal numbers as text

`decimal` writes a natural number in base ten.  `Scientific.text` writes a decimal number that is
not meant as an integer: with the point inside or beside the digits while its leading digit stands
between the places `lowestPlain` and `highestPlain`, and else with an exponent.
-/

/-- The digits of a natural number in base ten. -/
def decimal (n : Nat) : List Char := Nat.toDigits 10 n

/-- The digits of an integer in base ten, behind a minus sign if it is negative. -/
def signedDecimal : Int → List Char
  | .ofNat n => decimal n
  | .negSucc n => '-' :: decimal (n + 1)

namespace Scientific

/-- The lowest place of a leading digit that is written without an exponent. -/
def lowestPlain : Int := -5

/-- The highest place of a leading digit that is written without an exponent. -/
def highestPlain : Int := 15

/-- The place of the leading digit, where the units have place 0. -/
def leadingPlace (x : Scientific) : Int := x.exponent + (decimal x.digits).length - 1

/-- The text with a point and at least one digit on both sides of it. -/
def plainText (x : Scientific) : List Char :=
  let digits := decimal x.digits
  let place := x.leadingPlace
  if 0 ≤ x.exponent then digits ++ List.replicate x.exponent.toNat '0' ++ ['.', '0']
  else if 0 ≤ place then
    digits.take (place.toNat + 1) ++ '.' :: digits.drop (place.toNat + 1)
  else '0' :: '.' :: (List.replicate (-place - 1).toNat '0' ++ digits)

/-- The text with one digit in front of the point, no point after a lone digit, and a signed
    exponent. -/
def exponentText (x : Scientific) : List Char :=
  let fraction := match decimal x.digits with
    | leading :: d :: rest => leading :: '.' :: d :: rest
    | digits => digits
  let sign := if x.leadingPlace < 0 then '-' else '+'
  fraction ++ 'e' :: sign :: decimal x.leadingPlace.natAbs

/-- The text of a decimal number. -/
def text (x : Scientific) : List Char :=
  if lowestPlain ≤ x.leadingPlace ∧ x.leadingPlace ≤ highestPlain then x.plainText
  else x.exponentText

end Scientific

/-- The text of a magnitude: its shortest decimal. -/
def Binary64.text (x : Binary64) : List Char := x.shortest.text

end BoundedCache
