import BoundedCache.Json.Reader.Input
import BoundedCache.Json.Value

namespace BoundedCache.Json

/-!
# Reading numbers

A number is first read as a `Numeral`, its digits by position, and then given its value
(`Numeral.value?`).  A numeral without fraction and exponent is an integer if it fits a signed or
an unsigned word; every other one is a binary magnitude, and `-0` is one too.

The value of a long numeral is computed from a significand of one word: a digit that no longer fits
is dropped (`takeFitting`), and a dropped digit of the whole part still counts as a place.
-/

/-- The digits of a number: its whole part, its fraction, and its exponent with the sign. -/
structure Numeral where
  negative : Bool
  whole : List Nat
  fraction : Option (List Nat)
  exponent : Option (Bool × List Nat)
  deriving Repr

/-! ### Grammar -/

/-- The digits in front of an input and what follows them. -/
def takeDigits (input : Bytes) : List Nat × Bytes :=
  ((input.takeWhile isDigit).map fun b => b.toNat - 0x30, input.dropWhile isDigit)

theorem length_takeDigits_le (input : Bytes) : (takeDigits input).2.length ≤ input.length :=
  (List.dropWhile_sublist isDigit).length_le

/-- A run of at least one digit. -/
def readDigits : Reader (List Nat) := fun input =>
  match input with
  | [] => .error .truncated
  | b :: rest =>
    if isDigit b then
      let more := takeDigits rest
      .ok ⟨(b.toNat - 0x30) :: more.1, more.2, Nat.lt_succ_of_le (length_takeDigits_le rest)⟩
    else .error .malformed

/-- A whole part: a run of digits in which only a lone zero stands first. -/
def readWholePart : Reader (List Nat) := fun input =>
  match readDigits input with
  | .error fault => .error fault
  | .ok digits =>
    match digits.value with
    | 0 :: _ :: _ => .error .malformed
    | _ => .ok digits

/-- An optional part of a numeral and the rest, which need not be shorter than the input. -/
abbrev OptionalPart (α : Type) (input : Bytes) :=
  Except Fault (Parsed (Option α) (input.length + 1))

/-- A part of what stands behind a byte is within the bound of an optional part. -/
theorem length_le_length_cons_succ (b : UInt8) {inner rest : Bytes}
    (h : inner.length ≤ rest.length) : inner.length ≤ (b :: rest).length + 1 :=
  Nat.le_trans h (Nat.le_trans (Nat.le_succ _) (Nat.le_succ _))

/-- The fraction, if the input starts with a point. -/
def readFraction (input : Bytes) : OptionalPart (List Nat) input :=
  match input with
  | [] => .ok ⟨none, [], length_lt_length_succ []⟩
  | b :: rest =>
    if b = byte '.' then
      (readDigits rest).map fun digits =>
        (digits.map some).widen (length_le_length_cons_succ b (length_le_length rest))
    else .ok ⟨none, b :: rest, length_lt_length_succ (b :: rest)⟩

/-- The sign of an exponent, if there is one, and the rest. -/
def takeSign : Bytes → Bool × Bytes
  | [] => (false, [])
  | b :: rest =>
    if b = byte '+' then (false, rest)
    else if b = byte '-' then (true, rest)
    else (false, b :: rest)

theorem length_takeSign_le (input : Bytes) : (takeSign input).2.length ≤ input.length := by
  fun_cases takeSign input <;> simp

/-- The exponent, if the input starts with its letter. -/
def readExponent (input : Bytes) : OptionalPart (Bool × List Nat) input :=
  match input with
  | [] => .ok ⟨none, [], length_lt_length_succ []⟩
  | b :: rest =>
    if b = byte 'e' ∨ b = byte 'E' then
      (readDigits (takeSign rest).2).map fun digits =>
        (digits.map fun ds => some ((takeSign rest).1, ds)).widen
          (length_le_length_cons_succ b (length_takeSign_le rest))
    else .ok ⟨none, b :: rest, length_lt_length_succ (b :: rest)⟩

/-- A numeral without its sign. -/
def readUnsigned (negative : Bool) : Reader Numeral := fun input =>
  match readWholePart input with
  | .error fault => .error fault
  | .ok whole =>
    match readFraction whole.rest with
    | .error fault => .error fault
    | .ok fraction =>
      match readExponent fraction.rest with
      | .error fault => .error fault
      | .ok exponent =>
        .ok ⟨⟨negative, whole.value, fraction.value, exponent.value⟩, exponent.rest, by
          have := whole.shorter
          have := fraction.shorter
          have := exponent.shorter
          omega⟩

/-- A numeral. -/
def readNumeral : Reader Numeral := fun input =>
  match input with
  | [] => .error .truncated
  | b :: rest =>
    if b = byte '-' then (readUnsigned true rest).map (·.widen (length_le_length_cons b rest))
    else readUnsigned false (b :: rest)

/-! ### Value -/

/-- Appends digits to a significand as long as it stays a word, and gives the digits from
    the first one that does not fit. -/
def takeFitting (significand : Nat) : List Nat → Nat × List Nat
  | [] => (significand, [])
  | d :: digits =>
    if significand * 10 + d ≤ Word.top then takeFitting (significand * 10 + d) digits
    else (significand, d :: digits)

/-- The largest exponent that is told apart from larger ones, `2 ^ 31 - 1`. -/
def greatestExponent : Nat := 2147483647

/-- The exponent that some digits spell, or some number beyond `greatestExponent` where they spell
    one. -/
def spellExponent (digits : List Nat) : Nat :=
  digits.foldl (fun n d => if n ≤ greatestExponent then n * 10 + d else n) 0

/-- The magnitude `significand * 10 ^ places` with a written exponent on top. -/
def magnitude? (significand : Nat) (places : Int) : Option (Bool × List Nat) → Option Binary64
  | none => Binary64.ofDecimal? significand places
  | some (negative, digits) =>
    let exponent := spellExponent digits
    if exponent ≤ greatestExponent then
      Binary64.ofDecimal? significand (if negative then places - exponent else places + exponent)
    else if significand = 0 ∨ negative then some Binary64.zero
    else none

/-- The number that an integer numeral stands for. -/
def integerValue? (negative : Bool) (n : Nat) : Option Number :=
  if !negative then some (.integer n)
  else if n ≠ 0 ∧ n ≤ Word.half then some (.integer (-n))
  else (Binary64.ofNat? n).map (.float true)

/-- The number that a numeral stands for, unless it is beyond the range of magnitudes. -/
def Numeral.value? (numeral : Numeral) : Option Number :=
  let (significand, dropped) := takeFitting 0 numeral.whole
  match dropped, numeral.fraction, numeral.exponent with
  | [], none, none => integerValue? numeral.negative significand
  | dropped, fraction, exponent =>
    let digits := fraction.getD []
    let (significand, unused) := takeFitting significand digits
    let places : Int := dropped.length - (digits.length - unused.length)
    (magnitude? significand places exponent).map (.float numeral.negative)

/-- A number. -/
def readNumber : Reader Number := fun input =>
  match readNumeral input with
  | .error fault => .error fault
  | .ok numeral =>
    match numeral.value.value? with
    | some n => .ok (numeral.map fun _ => n)
    | none => .error .malformed

/-- Steps over a number whose value nobody asks for; where the input ends inside it, it is taken as
    malformed. -/
def skipNumber : Reader Unit := fun input =>
  match readNumeral input with
  | .error _ => .error .malformed
  | .ok numeral => .ok (numeral.map fun _ => ())

end BoundedCache.Json
