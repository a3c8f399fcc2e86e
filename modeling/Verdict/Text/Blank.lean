/-!
# White space

`isBlank` is the property of a character of being white space: the spaces and the line and
paragraph separators of Unicode, the tabulators and line breaks of ASCII, and the four
information separators. `strip` removes white space from both ends of a text and
`removeBlanks` removes all of it.
-/

namespace Verdict.Text

/-- The ranges of code points of the white space characters, in increasing order. -/
def blankRanges : List (Nat × Nat) :=
  [(0x09, 0x0D), (0x1C, 0x20), (0x85, 0x85), (0xA0, 0xA0), (0x1680, 0x1680),
   (0x2000, 0x200A), (0x2028, 0x2029), (0x202F, 0x202F), (0x205F, 0x205F), (0x3000, 0x3000)]

/-- The character is white space. -/
def isBlank (c : Char) : Bool :=
  blankRanges.any fun r => r.1 ≤ c.toNat && c.toNat ≤ r.2

/-- The characters of a text without the white space at its two ends. -/
def stripChars (s : List Char) : List Char :=
  ((s.dropWhile isBlank).reverse.dropWhile isBlank).reverse

/-- A text without the white space at its two ends. -/
def strip (s : String) : String :=
  String.ofList (stripChars s.toList)

/-- The characters of a text that are not white space. -/
def removeBlanks (s : List Char) : List Char :=
  s.filter fun c => !isBlank c

/-- A text holds nothing but white space. -/
def isBlankText (s : String) : Bool :=
  s.toList.all isBlank

end Verdict.Text
