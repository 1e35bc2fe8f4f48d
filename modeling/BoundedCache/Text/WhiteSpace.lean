namespace BoundedCache.Text

/-!
# White space

`isWhiteSpace` is the Unicode property `White_Space`: 25 characters, among them the no-break space
and the ideographic space.  `trim` removes such characters from both ends of a text and from
nowhere else.
-/

/-- The characters of property `White_Space`. -/
def isWhiteSpace (c : Char) : Bool :=
  let n := c.toNat
  (9 ≤ n && n ≤ 13) || n == 0x20 || n == 0x85 || n == 0xA0 || n == 0x1680
    || (0x2000 ≤ n && n ≤ 0x200A) || n == 0x2028 || n == 0x2029 || n == 0x202F || n == 0x205F
    || n == 0x3000

/-- A text without the white space before it. -/
def trimLeft (text : List Char) : List Char := text.dropWhile isWhiteSpace

/-- A text without the white space after it. -/
def trimRight (text : List Char) : List Char := (trimLeft text.reverse).reverse

/-- A text without the white space around it. -/
def trim (text : List Char) : List Char := trimRight (trimLeft text)

end BoundedCache.Text
