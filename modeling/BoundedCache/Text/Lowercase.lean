import BoundedCache.Text.CaseTable

namespace BoundedCache.Text

/-!
# Lower case of a text

`lowercase` maps a text to lower case by the full Unicode mapping, which is more than a map over
characters in two places:

* `İ` (U+0130) becomes two characters, `i` and a combining dot above;
* `Σ` at the end of a word becomes `ς` (`endsWord`), everywhere else `σ`.

The end of a word is seen from the neighbours: a cased letter stands before the `Σ` and none
after it, where characters without influence on case are stepped over on both sides.  The lower
case of a part of a text can therefore differ from that part of the text's lower case.

`contains` is containment of one text in another.
-/

/-! ### The end of a word -/

/-- Whether the first character that matters to case is cased. -/
def startsCased (text : List Char) : Bool :=
  match text.dropWhile isCaseIgnorable with
  | c :: _ => isCased c
  | [] => false

/-- Whether a letter with the reversed text `before` on its left and `after` on its right ends a
    word. -/
def endsWord (before after : List Char) : Bool := startsCased before && !startsCased after

/-! ### The mapping -/

/-- The lower case of one character between its two neighbouring texts, the left one reversed. -/
def lowerAt (before : List Char) (c : Char) (after : List Char) : List Char :=
  if c = 'Σ' then [if endsWord before after then 'ς' else 'σ']
  else if c = 'İ' then ['i', '\u0307']
  else [simpleLower c]

/-- The lower case of a text that stands after `before`, behind what is already `written`; both are
    reversed. -/
def lowercaseFrom (written before : List Char) : List Char → List Char
  | [] => written.reverse
  | c :: after =>
    lowercaseFrom ((lowerAt before c after).reverse ++ written) (c :: before) after

/-- The lower case of a text. -/
def lowercase (text : List Char) : List Char := lowercaseFrom [] [] text

/-! ### Containment -/

/-- Whether `part` occurs in a text as an unbroken piece. -/
def contains (part : List Char) : List Char → Bool
  | [] => part.isEmpty
  | c :: rest => part.isPrefixOf (c :: rest) || contains part rest

end BoundedCache.Text
