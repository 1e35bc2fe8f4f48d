import BoundedCache.Json.Reader.Quoted
import BoundedCache.Json.Reader.Numeral

namespace BoundedCache.Json

/-!
# Stepping over values

`skipValue` reads a value that nobody asks for and keeps nothing of it.  The open arrays and objects
are a list and not the call stack, so a skipped value may be nested to any depth.  Inside it strings
are read by `skipQuoted` and numbers by `skipNumber`, which let some things pass that a kept value
must not contain.
-/

/-- An array or an object that is still open. -/
inductive Bracket
  | square
  | curly
  deriving DecidableEq, Repr

/-- The byte that closes a bracket. -/
def Bracket.closing : Bracket → UInt8
  | .square => byte ']'
  | .curly => byte '\x7d'

/-- Where a skipping reader stands. -/
inductive Stand
  /-- Behind an opening bracket. -/
  | opened
  /-- In front of a value. -/
  | value
  /-- Behind a value. -/
  | filled
  deriving DecidableEq, Repr

/-- How many steps a reader may take from its stand before it takes a byte. -/
def Stand.idle : Stand → Nat
  | .opened => 1
  | .value => 0
  | .filled => 0

/-- How many bytes a reader has taken at least when it comes to its stand. -/
def Stand.taken : Stand → Nat
  | .opened => 1
  | .value => 0
  | .filled => 1

/-- Steps over a literal, a number or a string that starts with the byte `b`. -/
def skipScalar (b : UInt8) (rest : Bytes) : Except Fault (Parsed Unit (rest.length + 1)) :=
  if b = byte 'n' then readWord [byte 'u', byte 'l', byte 'l'] () rest
  else if b = byte 't' then readWord [byte 'r', byte 'u', byte 'e'] () rest
  else if b = byte 'f' then readWord [byte 'a', byte 'l', byte 's', byte 'e'] () rest
  else if b = byte '-' ∨ isDigit b then skipNumber (b :: rest)
  else if b = byte '"' then (skipQuoted rest).map (·.widen (length_le_length_cons b rest))
  else .error .malformed

/-- Steps over what stands in front of a value inside a bracket: nothing in an array, a key and a
    colon in an object. -/
def skipKey (bracket : Bracket) (input : Bytes) : Except Fault (Parsed Unit (input.length + 1)) :=
  match bracket with
  | .square => .ok ⟨(), input, length_lt_length_succ input⟩
  | .curly =>
    match expectByte (byte '"') input with
    | .error fault => .error fault
    | .ok mark =>
      match skipQuoted mark.rest with
      | .error fault => .error fault
      | .ok key =>
        (expectByte (byte ':') key.rest).map
          (·.widen (by have := mark.shorter; have := key.shorter; omega))

/-- Steps on from a place between the brackets `within`, innermost first, to the end of the
    outermost value. -/
def skipFrom (bound : Nat) (within : List Bracket) (stand : Stand) (input : Bytes)
    (h : input.length + stand.taken ≤ bound) : Except Fault (Parsed Unit bound) :=
  match stand, within, h with
  | .filled, [], h => .ok ⟨(), input, h⟩
  | stand, within, h =>
    match h₁ : skipBlanks input with
    | [] => .error .truncated
    | b :: rest =>
      have shorter : rest.length < input.length := length_rest_lt_of_skipBlanks h₁
      have lt : rest.length < bound := by omega
      match stand, within with
      | .value, within =>
        if b = byte '[' then skipFrom bound (.square :: within) .opened rest lt
        else if b = byte '\x7b' then skipFrom bound (.curly :: within) .opened rest lt
        else
          match skipScalar b rest with
          | .error fault => .error fault
          | .ok scalar =>
            have le : scalar.rest.length ≤ rest.length := Nat.le_of_lt_succ scalar.shorter
            skipFrom bound within .filled scalar.rest (Nat.lt_of_le_of_lt le lt)
      | .opened, bracket :: outer =>
        if b = bracket.closing then skipFrom bound outer .filled rest lt
        else
          match skipKey bracket (b :: rest) with
          | .error fault => .error fault
          | .ok key =>
            have le : key.rest.length ≤ rest.length + 1 := Nat.le_of_lt_succ key.shorter
            skipFrom bound (bracket :: outer) .value key.rest (Nat.le_trans le lt)
      | .filled, bracket :: outer =>
        if b = bracket.closing then skipFrom bound outer .filled rest lt
        else if b = byte ',' then
          match skipKey bracket rest with
          | .error fault => .error fault
          | .ok key =>
            have le : key.rest.length ≤ rest.length := Nat.le_of_lt_succ key.shorter
            skipFrom bound (bracket :: outer) .value key.rest
              (Nat.le_trans le (Nat.le_of_lt lt))
        else .error .malformed
      | _, [] => .error .malformed
termination_by (input.length, stand.idle)
decreasing_by
  all_goals simp only [Prod.lex_def, Stand.idle] at *
  all_goals omega

/-- Steps over any value. -/
def skipValue : Reader Unit := fun input =>
  skipFrom input.length [] .value input (length_le_length input)

end BoundedCache.Json
