import BoundedCache.Decimal.Text
import BoundedCache.Json.Value

namespace BoundedCache.Json

/-!
# JSON values as compact text

`Value.render` writes a value without any blank.  In strings a quotation mark, a reverse solidus and
the characters below U+0020 are escaped (`escape`), all other characters stand for themselves.

Text is written behind what is there already, so writing a long array needs no stack; `render` is
the text behind the empty text.
-/

/-- The digit of a number below 16. -/
def hexDigit (n : Nat) : Char := Nat.digitChar n

/-- The characters that a character of a string is written as. -/
def escape (c : Char) : List Char :=
  if c = '"' then ['\\', '"']
  else if c = '\\' then ['\\', '\\']
  else if c = '\x08' then ['\\', 'b']
  else if c = '\x0c' then ['\\', 'f']
  else if c = '\n' then ['\\', 'n']
  else if c = '\r' then ['\\', 'r']
  else if c = '\t' then ['\\', 't']
  else if c.toNat < 0x20 then
    ['\\', 'u', '0', '0', hexDigit (c.toNat / 16), hexDigit (c.toNat % 16)]
  else [c]

/-- Writes characters behind a text. -/
def writeChars (out : String) (chars : List Char) : String := chars.foldl String.push out

/-- Writes a string in quotation marks. -/
def writeQuoted (out : String) (s : String) : String :=
  (s.foldl (fun out c => writeChars out (escape c)) (out.push '"')).push '"'

/-- The characters of a number. -/
def Number.chars : Number → List Char
  | .integer n => signedDecimal n
  | .float true magnitude => '-' :: magnitude.text
  | .float false magnitude => magnitude.text

mutual

/-- Writes a value behind a text. -/
def Value.write (out : String) : Value → String
  | .null => writeChars out ['n', 'u', 'l', 'l']
  | .boolean true => writeChars out ['t', 'r', 'u', 'e']
  | .boolean false => writeChars out ['f', 'a', 'l', 's', 'e']
  | .number n => writeChars out n.chars
  | .text s => writeQuoted out s
  | .array items => (writeItems (out.push '[') true items).push ']'
  | .object members => (writeMembers (out.push '\x7b') true members).push '\x7d'

/-- Writes the items of an array, with a comma before each but the `first`. -/
def writeItems (out : String) (first : Bool) : List Value → String
  | [] => out
  | item :: rest =>
    writeItems (Value.write (if first then out else out.push ',') item) false rest

/-- Writes the members of an object, with a comma before each but the `first`. -/
def writeMembers (out : String) (first : Bool) : List (String × Value) → String
  | [] => out
  | (key, value) :: rest =>
    let keyed := (writeQuoted (if first then out else out.push ',') key).push ':'
    writeMembers (Value.write keyed value) false rest

end

/-- The compact text of a value. -/
def Value.render (value : Value) : String := value.write ""

/-- The compact text of an object. -/
def Payload.render (payload : Payload) : String := payload.toValue.render

end BoundedCache.Json
