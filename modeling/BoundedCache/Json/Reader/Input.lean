import BoundedCache.Text.Ascii

namespace BoundedCache.Json

/-!
# Reading from the front of an input

A `Reader` takes the bytes of an input from the front and gives a value and the rest of the input,
or the first `Fault` it meets.  A reader that succeeds has taken at least one byte; `Parsed` carries
that fact, and every loop of the readers ends because of it.

Blanks before a value belong to the reader of the value, blanks behind it to whatever comes next.
-/

/-- What is wrong with an input. -/
inductive Fault
  /-- The input ends too early. -/
  | truncated
  /-- The input is not JSON. -/
  | malformed
  /-- The input is JSON so far, but not of the shape that was asked for. -/
  | mismatched
  deriving DecidableEq, Repr

/-- A value read from an input, and a rest of fewer than `bound` bytes. -/
structure Parsed (α : Type) (bound : Nat) where
  value : α
  rest : Bytes
  shorter : rest.length < bound

/-- A function that reads from the front of an input. -/
abbrev Reader (α : Type) := (input : Bytes) → Except Fault (Parsed α input.length)

/-- A rest is shorter than an input with one more byte. -/
theorem length_lt_length_cons (b : UInt8) (rest : Bytes) : rest.length < (b :: rest).length :=
  Nat.lt_succ_self _

/-- A rest is no longer than an input with one more byte. -/
theorem length_le_length_cons (b : UInt8) (rest : Bytes) : rest.length ≤ (b :: rest).length :=
  Nat.le_succ _

/-- A rest that is the whole input is within the bound of a reader that may take nothing. -/
theorem length_lt_length_succ (input : Bytes) : input.length < input.length + 1 :=
  Nat.lt_succ_self _

/-- An input is no longer than itself. -/
theorem length_le_length (input : Bytes) : input.length ≤ input.length := Nat.le_refl _

namespace Parsed

variable {α β : Type} {bound larger : Nat}

/-- The same result under a larger bound. -/
def widen (parsed : Parsed α bound) (h : bound ≤ larger) : Parsed α larger :=
  ⟨parsed.value, parsed.rest, Nat.lt_of_lt_of_le parsed.shorter h⟩

/-- The same rest with another value. -/
def map (f : α → β) (parsed : Parsed α bound) : Parsed β bound :=
  ⟨f parsed.value, parsed.rest, parsed.shorter⟩

end Parsed

/-! ### Blanks -/

/-- Whether a byte is a blank: space, tab, line feed or carriage return. -/
def isBlank (b : UInt8) : Bool := b == 0x20 || b == 0x09 || b == 0x0A || b == 0x0D

/-- An input without the blanks in front. -/
def skipBlanks (input : Bytes) : Bytes := input.dropWhile isBlank

theorem length_skipBlanks_le (input : Bytes) : (skipBlanks input).length ≤ input.length :=
  (List.dropWhile_sublist isBlank).length_le

theorem length_rest_lt_of_skipBlanks {input rest : Bytes} {b : UInt8}
    (h : skipBlanks input = b :: rest) : rest.length < input.length := by
  have := length_skipBlanks_le input
  rw [h] at this
  exact this

theorem length_rest_le_of_skipBlanks {input rest : Bytes} {b : UInt8}
    (h : skipBlanks input = b :: rest) : rest.length ≤ input.length :=
  Nat.le_of_lt (length_rest_lt_of_skipBlanks h)

/-! ### Small readers -/

/-- The input behind a given word. -/
def expectWord : (word input : Bytes) → Except Fault Bytes
  | [], input => .ok input
  | _ :: _, [] => .error .truncated
  | w :: word, b :: input => if b = w then expectWord word input else .error .malformed

theorem length_le_of_expectWord {word input rest : Bytes} (h : expectWord word input = .ok rest) :
    rest.length ≤ input.length := by
  fun_induction expectWord word input with
  | case1 input => simp_all
  | case2 => simp at h
  | case3 w word input ih => have := ih h; simp only [List.length_cons]; omega
  | case4 => simp at h

/-- The rest of a literal name such as `null` whose first letter is gone. -/
def readWord {α : Type} (word : Bytes) (value : α) (input : Bytes) :
    Except Fault (Parsed α (input.length + 1)) :=
  match h : expectWord word input with
  | .error fault => .error fault
  | .ok rest => .ok ⟨value, rest, Nat.lt_succ_of_le (length_le_of_expectWord h)⟩

/-- A given byte behind blanks. -/
def expectByte (b : UInt8) : Reader Unit := fun input =>
  match h : skipBlanks input with
  | [] => .error .truncated
  | c :: rest =>
    if c = b then .ok ⟨(), rest, length_rest_lt_of_skipBlanks h⟩ else .error .malformed

/-- The value that an input starts with, whatever follows it. -/
def readFirst {α : Type} (reader : Reader α) (input : Bytes) : Except Fault α :=
  (reader input).map Parsed.value

/-- The value that an input consists of, up to blanks around it. -/
def readWhole {α : Type} (reader : Reader α) (input : Bytes) : Except Fault α :=
  match reader input with
  | .error fault => .error fault
  | .ok parsed =>
    if (skipBlanks parsed.rest).isEmpty then .ok parsed.value else .error .malformed

end BoundedCache.Json
