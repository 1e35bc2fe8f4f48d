import BoundedCache.Json.Reader.Input

namespace BoundedCache.Json

/-!
# Reading strings

`readQuoted` reads a string behind its opening quotation mark.  Escapes are resolved; a raw control
character, an unknown escape and a surrogate escape without its partner are malformed.  Whether the
bytes of the string are UTF-8 is decided at the closing quotation mark.

`skipQuoted` steps over a string whose contents nobody asks for.  It knows the same escapes, but a
surrogate escape may stand alone and the bytes may be any.
-/

/-- A number of four hexadecimal digits. -/
def readHex4 : Reader Nat
  | a :: b :: c :: d :: rest =>
    match hexValue? a, hexValue? b, hexValue? c, hexValue? d with
    | some a, some b, some c, some d =>
      .ok ⟨((a * 16 + b) * 16 + c) * 16 + d, rest, by simp only [List.length_cons]; omega⟩
    | _, _, _, _ => .error .malformed
  | _ => .error .truncated

/-- Whether a number is the first half of a surrogate pair. -/
def isLeadingSurrogate (n : Nat) : Bool := decide (0xD800 ≤ n) && decide (n ≤ 0xDBFF)

/-- Whether a number is the second half of a surrogate pair. -/
def isTrailingSurrogate (n : Nat) : Bool := decide (0xDC00 ≤ n) && decide (n ≤ 0xDFFF)

/-- The second half of a surrogate pair, as an escape of its own. -/
def readTrailingSurrogate : Reader Nat := fun input =>
  match input with
  | [] => .error .truncated
  | [b] => if b = byte '\\' then .error .truncated else .error .malformed
  | b :: c :: rest =>
    if b = byte '\\' ∧ c = byte 'u' then
      match readHex4 rest with
      | .error fault => .error fault
      | .ok low =>
        if isTrailingSurrogate low.value then
          .ok (low.widen (by simp only [List.length_cons]; omega))
        else .error .malformed
    else .error .malformed

/-- The character of an escape, behind its letter `u`. -/
def readUnicodeEscape : Reader Char := fun input =>
  match readHex4 input with
  | .error fault => .error fault
  | .ok high =>
    if isTrailingSurrogate high.value then .error .malformed
    else if isLeadingSurrogate high.value then
      match readTrailingSurrogate high.rest with
      | .error fault => .error fault
      | .ok low =>
        let n := 0x10000 + (high.value - 0xD800) * 0x400 + (low.value - 0xDC00)
        .ok ⟨Char.ofNat n, low.rest, Nat.lt_trans low.shorter high.shorter⟩
    else .ok (high.map Char.ofNat)

/-- The character that an escape of one letter stands for. -/
def simpleEscape? (b : UInt8) : Option Char :=
  if b = byte '"' then some '"'
  else if b = byte '\\' then some '\\'
  else if b = byte '/' then some '/'
  else if b = byte 'b' then some '\x08'
  else if b = byte 'f' then some '\x0c'
  else if b = byte 'n' then some '\n'
  else if b = byte 'r' then some '\r'
  else if b = byte 't' then some '\t'
  else none

/-- The character of an escape, behind its reverse solidus. -/
def readEscape : Reader Char := fun input =>
  match input with
  | [] => .error .truncated
  | b :: rest =>
    match simpleEscape? b with
    | some c => .ok ⟨c, rest, length_lt_length_cons b rest⟩
    | none =>
      if b = byte 'u' then (readUnicodeEscape rest).map (·.widen (length_le_length_cons b rest))
      else .error .malformed

/-- A string behind its opening quotation mark, of which the bytes `taken` (reversed) are read. -/
def readQuotedFrom (bound : Nat) (taken : Bytes) (input : Bytes) (h : input.length ≤ bound) :
    Except Fault (Parsed String bound) :=
  match input with
  | [] => .error .truncated
  | b :: rest =>
    if b = byte '"' then
      match decodeUtf8? taken.reverse with
      | some s => .ok ⟨s, rest, h⟩
      | none => .error .malformed
    else if b = byte '\\' then
      match readEscape rest with
      | .error fault => .error fault
      | .ok c =>
        readQuotedFrom bound ((String.utf8EncodeChar c.value).reverse ++ taken) c.rest
          (Nat.le_of_lt (Nat.lt_trans c.shorter h))
    else if b < 0x20 then .error .malformed
    else readQuotedFrom bound (b :: taken) rest (Nat.le_of_lt h)
termination_by input.length
decreasing_by
  · exact Nat.lt_trans c.shorter (Nat.lt_succ_self _)
  · exact Nat.lt_succ_self _

/-- A string behind its opening quotation mark. -/
def readQuoted : Reader String := fun input =>
  readQuotedFrom input.length [] input (length_le_length input)

/-! ### Strings that are skipped -/

/-- Steps over an escape, behind its reverse solidus. -/
def skipEscape : Reader Unit := fun input =>
  match input with
  | [] => .error .truncated
  | b :: rest =>
    match simpleEscape? b with
    | some _ => .ok ⟨(), rest, length_lt_length_cons b rest⟩
    | none =>
      if b = byte 'u' then
        (readHex4 rest).map fun n => (n.map fun _ => ()).widen (length_le_length_cons b rest)
      else .error .malformed

/-- Steps over a string behind its opening quotation mark. -/
def skipQuotedFrom (bound : Nat) (input : Bytes) (h : input.length ≤ bound) :
    Except Fault (Parsed Unit bound) :=
  match input with
  | [] => .error .truncated
  | b :: rest =>
    if b = byte '"' then .ok ⟨(), rest, h⟩
    else if b = byte '\\' then
      match skipEscape rest with
      | .error fault => .error fault
      | .ok e => skipQuotedFrom bound e.rest (Nat.le_of_lt (Nat.lt_trans e.shorter h))
    else if b < 0x20 then .error .malformed
    else skipQuotedFrom bound rest (Nat.le_of_lt h)
termination_by input.length
decreasing_by
  · exact Nat.lt_trans e.shorter (Nat.lt_succ_self _)
  · exact Nat.lt_succ_self _

/-- Steps over a string behind its opening quotation mark. -/
def skipQuoted : Reader Unit := fun input =>
  skipQuotedFrom input.length input (length_le_length input)

end BoundedCache.Json
