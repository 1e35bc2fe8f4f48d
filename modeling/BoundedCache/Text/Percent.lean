import BoundedCache.Text.Ascii

namespace BoundedCache

/-!
# Percent coding

A percent sign and two hexadecimal digits stand for a byte.  `percentDecode` puts that byte in their
place and leaves everything else as it is, a percent sign without two digits too.  `percentEncode`
writes every byte that is not `isUnreserved` in that form.
-/

/-- Whether a byte is a letter, a digit or one of `-`, `.`, `_`, `~`. -/
def isUnreserved (b : UInt8) : Bool :=
  isDigit b || (decide (0x41 ≤ b) && decide (b ≤ 0x5A)) || (decide (0x61 ≤ b) && decide (b ≤ 0x7A))
    || b == byte '-' || b == byte '.' || b == byte '_' || b == byte '~'

/-- The digit of a number below 16, a capital where it is a letter. -/
def percentDigit (n : Nat) : UInt8 :=
  if n < 10 then UInt8.ofNat (0x30 + n) else UInt8.ofNat (0x37 + n)

/-- Writes every byte that is not unreserved with a percent sign. -/
def percentEncode (bytes : Bytes) : Bytes :=
  bytes.flatMap fun b =>
    if isUnreserved b then [b]
    else [byte '%', percentDigit (b.toNat / 16), percentDigit (b.toNat % 16)]

/-- Puts a byte in the place of every percent sign with two digits. -/
def percentDecode : Bytes → Bytes
  | [] => []
  | [b] => [b]
  | [b, c] => [b, c]
  | b :: high :: low :: rest =>
    if b = byte '%' then
      match hexValue? high, hexValue? low with
      | some h, some l => UInt8.ofNat (h * 16 + l) :: percentDecode rest
      | _, _ => b :: percentDecode (high :: low :: rest)
    else b :: percentDecode (high :: low :: rest)

end BoundedCache
