import BoundedCache.Json.Reader.Quoted
import BoundedCache.Json.Reader.Numeral

namespace BoundedCache.Json

/-!
# Reading values

`readValue` reads any JSON value and `readPayload` a JSON object.  Both take the number of brackets
that may still be opened inside one another; `maxNesting` of them are allowed in all, the next one
is malformed.

A reader of a particular shape that meets another one calls `otherShape`: a literal, a number or a
string is read to its end first, so its own faults come first, and an array or an object is refused
at its bracket.
-/

/-- How deep arrays and objects may be nested. -/
def maxNesting : Nat := 127

/-! ### Members of an object -/

/-- The key of the next member up to its quotation mark, or nothing at the closing brace.  The input
    starts behind the opening brace if this is the `first` member, else behind a value. -/
def readNextKey (first : Bool) : Reader (Option String) := fun input =>
  match h : skipBlanks input with
  | [] => .error .truncated
  | b :: rest =>
    if b = byte '\x7d' then .ok ⟨none, rest, length_rest_lt_of_skipBlanks h⟩
    else if first then
      if b = byte '"' then
        (readQuoted rest).map fun key =>
          (key.map some).widen (length_rest_le_of_skipBlanks h)
      else .error .malformed
    else if b = byte ',' then
      match h' : skipBlanks rest with
      | [] => .error .truncated
      | c :: rest' =>
        if c = byte '"' then
          (readQuoted rest').map fun key =>
            (key.map some).widen (Nat.le_of_lt (Nat.lt_trans (length_rest_lt_of_skipBlanks h')
              (length_rest_lt_of_skipBlanks h)))
        else .error .malformed
    else .error .malformed

/-- The members of an object behind its opening brace, those `taken` already in reverse. -/
def readMembersFrom (value : Reader Value) (bound : Nat) (taken : List (String × Value))
    (input : Bytes) (h : input.length ≤ bound) :
    Except Fault (Parsed (List (String × Value)) bound) :=
  match readNextKey taken.isEmpty input with
  | .error fault => .error fault
  | .ok ⟨none, rest, shorter⟩ => .ok ⟨arrange taken.reverse, rest, Nat.lt_of_lt_of_le shorter h⟩
  | .ok ⟨some key, afterKey, shorter⟩ =>
    match expectByte (byte ':') afterKey with
    | .error fault => .error fault
    | .ok colon =>
      match value colon.rest with
      | .error fault => .error fault
      | .ok item =>
        have decreased : item.rest.length < input.length :=
          Nat.lt_trans item.shorter (Nat.lt_trans colon.shorter shorter)
        readMembersFrom value bound ((key, item.value) :: taken) item.rest
          (Nat.le_trans (Nat.le_of_lt decreased) h)
termination_by input.length

/-- The members of an object behind its opening brace. -/
def readMembers (value : Reader Value) : Reader (List (String × Value)) := fun input =>
  readMembersFrom value input.length [] input (length_le_length input)

/-! ### Items of an array -/

/-- What follows an item of an array, of which the items `taken` are read, in reverse. -/
def readItemsFrom (value : Reader Value) (bound : Nat) (taken : List Value)
    (input : Bytes) (h : input.length ≤ bound) : Except Fault (Parsed (List Value) bound) :=
  match h₁ : skipBlanks input with
  | [] => .error .truncated
  | b :: rest =>
    if b = byte ']' then
      .ok ⟨taken.reverse, rest, Nat.lt_of_lt_of_le (length_rest_lt_of_skipBlanks h₁) h⟩
    else if b = byte ',' then
      match h₂ : skipBlanks rest with
      | [] => .error .truncated
      | c :: rest' =>
        if c = byte ']' then .error .malformed
        else
          match value (c :: rest') with
          | .error fault => .error fault
          | .ok item =>
            have decreased : item.rest.length < input.length := by
              have := item.shorter
              have := length_rest_lt_of_skipBlanks h₁
              have := length_rest_lt_of_skipBlanks h₂
              simp only [List.length_cons] at *
              omega
            readItemsFrom value bound (item.value :: taken) item.rest
              (Nat.le_trans (Nat.le_of_lt decreased) h)
    else .error .malformed
termination_by input.length

/-- The items of an array behind its opening bracket. -/
def readItems (value : Reader Value) : Reader (List Value) := fun input =>
  match h : skipBlanks input with
  | [] => .error .truncated
  | b :: rest =>
    if b = byte ']' then .ok ⟨[], rest, length_rest_lt_of_skipBlanks h⟩
    else
      match value (b :: rest) with
      | .error fault => .error fault
      | .ok item =>
        have le : item.rest.length ≤ input.length := by
          have := item.shorter
          have := length_rest_lt_of_skipBlanks h
          simp only [List.length_cons] at *
          omega
        readItemsFrom value input.length [item.value] item.rest le

/-! ### Values -/

/-- A JSON value inside which `room` brackets may still be opened. -/
def readValue (room : Nat) : Reader Value := fun input =>
  match h : skipBlanks input with
  | [] => .error .truncated
  | b :: rest =>
    have le : (b :: rest).length ≤ input.length := length_rest_lt_of_skipBlanks h
    have rest_le : rest.length ≤ input.length := Nat.le_of_lt le
    if b = byte 'n' then
      (readWord [byte 'u', byte 'l', byte 'l'] Value.null rest).map (·.widen le)
    else if b = byte 't' then
      (readWord [byte 'r', byte 'u', byte 'e'] (Value.boolean true) rest).map (·.widen le)
    else if b = byte 'f' then
      (readWord [byte 'a', byte 'l', byte 's', byte 'e'] (Value.boolean false) rest).map
        (·.widen le)
    else if b = byte '-' ∨ isDigit b then
      (readNumber (b :: rest)).map fun n => (n.map Value.number).widen le
    else if b = byte '"' then
      (readQuoted rest).map fun s => (s.map Value.text).widen rest_le
    else if b = byte '[' then
      match room with
      | 0 => .error .malformed
      | room + 1 =>
        (readItems (readValue room) rest).map fun items => (items.map Value.array).widen rest_le
    else if b = byte '\x7b' then
      match room with
      | 0 => .error .malformed
      | room + 1 =>
        (readMembers (readValue room) rest).map fun members =>
          (members.map Value.object).widen rest_le
    else .error .malformed

/-! ### Particular shapes -/

/-- The fault of an input that starts with the byte `b`, which does not start the shape that was
    asked for. -/
def otherShape (b : UInt8) (rest : Bytes) : Fault :=
  let after {α : Type} {bound : Nat} (result : Except Fault (Parsed α bound)) : Fault :=
    match result with
    | .error fault => fault
    | .ok _ => .mismatched
  if b = byte 'n' then after (readWord [byte 'u', byte 'l', byte 'l'] () rest)
  else if b = byte 't' then after (readWord [byte 'r', byte 'u', byte 'e'] () rest)
  else if b = byte 'f' then after (readWord [byte 'a', byte 'l', byte 's', byte 'e'] () rest)
  else if b = byte '-' ∨ isDigit b then after (readNumber (b :: rest))
  else if b = byte '"' then after (readQuoted rest)
  else if b = byte '[' ∨ b = byte '\x7b' then .mismatched
  else .malformed

/-- A JSON string. -/
def readText : Reader String := fun input =>
  match h : skipBlanks input with
  | [] => .error .truncated
  | b :: rest =>
    if b = byte '"' then
      (readQuoted rest).map (·.widen (length_rest_le_of_skipBlanks h))
    else .error (otherShape b rest)

/-- A JSON object inside which, itself included, `room` brackets may be opened. -/
def readPayload (room : Nat) : Reader Payload := fun input =>
  match h : skipBlanks input with
  | [] => .error .truncated
  | b :: rest =>
    if b = byte '\x7b' then
      match room with
      | 0 => .error .malformed
      | room + 1 =>
        (readMembers (readValue room) rest).map fun members =>
          (members.map Payload.mk).widen (length_rest_le_of_skipBlanks h)
    else .error (otherShape b rest)

/-- A JSON integer between `least` and `greatest`. -/
def readInteger (least greatest : Int) : Reader Int := fun input =>
  match h : skipBlanks input with
  | [] => .error .truncated
  | b :: rest =>
    if b = byte '-' ∨ isDigit b then
      match readNumber (b :: rest) with
      | .error fault => .error fault
      | .ok ⟨.integer n, rest', shorter⟩ =>
        if least ≤ n ∧ n ≤ greatest then
          .ok ⟨n, rest', Nat.lt_of_lt_of_le shorter (length_rest_lt_of_skipBlanks h)⟩
        else .error .mismatched
      | .ok ⟨.float .., _, _⟩ => .error .mismatched
    else .error (otherShape b rest)

/-- A value or `null`, which stands for none. -/
def readOptional {α : Type} (reader : Reader α) : Reader (Option α) := fun input =>
  match h : skipBlanks input with
  | [] => .error .truncated
  | b :: rest =>
    have le : (b :: rest).length ≤ input.length := length_rest_lt_of_skipBlanks h
    if b = byte 'n' then
      (readWord [byte 'u', byte 'l', byte 'l'] none rest).map (·.widen le)
    else (reader (b :: rest)).map fun x => (x.map some).widen le

/-- The object that a whole text stands for. -/
def Payload.parse (text : Bytes) : Except Fault Payload := readWhole (readPayload maxNesting) text

end BoundedCache.Json
