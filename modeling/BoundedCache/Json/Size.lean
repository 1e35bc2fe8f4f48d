import BoundedCache.Json.Text

namespace BoundedCache.Json

/-!
# The size of a value

`Value.size` is the number of bytes that the compact text of a value takes in UTF-8.  It is counted
on the value itself, without writing the text.
-/

/-- The bytes that a character takes in a string. -/
def escapeWidth (c : Char) : Nat :=
  if c = '"' ∨ c = '\\' then 2
  else if c = '\x08' ∨ c = '\x0c' ∨ c = '\n' ∨ c = '\r' ∨ c = '\t' then 2
  else if c.toNat < 0x20 then 6
  else c.utf8Size

/-- The bytes of a string with its quotation marks. -/
def quotedSize (s : String) : Nat := s.foldl (fun n c => n + escapeWidth c) 2

/-- The bytes of a number; its text is ASCII. -/
def Number.size (n : Number) : Nat := n.chars.length

mutual

/-- The bytes of the compact text of a value. -/
def Value.size : Value → Nat
  | .null => 4
  | .boolean true => 4
  | .boolean false => 5
  | .number n => n.size
  | .text s => quotedSize s
  | .array items => itemsSize 2 items - (if items.isEmpty then 0 else 1)
  | .object members => membersSize 2 members - (if members.isEmpty then 0 else 1)

/-- Adds to `total` the bytes of array items with a comma each. -/
def itemsSize (total : Nat) : List Value → Nat
  | [] => total
  | item :: rest => itemsSize (total + item.size + 1) rest

/-- Adds to `total` the bytes of object members with a colon and a comma each. -/
def membersSize (total : Nat) : List (String × Value) → Nat
  | [] => total
  | (key, value) :: rest =>
    membersSize (total + quotedSize key + 1 + value.size + 1) rest

end

/-- The bytes of the compact text of an object. -/
def Payload.size (payload : Payload) : Nat := payload.toValue.size

end BoundedCache.Json
