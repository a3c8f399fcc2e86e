import Verdict.Text.Printable

/-!
# Quoted texts

`quote` writes a text between quotation marks in printable characters only. The mark is the
apostrophe, unless the text holds an apostrophe and no quotation mark. A backslash and the
mark are preceded by a backslash, line breaks and tabulators have escapes of one letter, and
any other character without a visible form is written as its code point in hexadecimal.
-/

namespace Verdict.Text

/-- The mark that encloses the quoted form of a text. -/
def quoteMark (s : List Char) : Char :=
  if s.contains '\'' && !s.contains '"' then '"' else '\''

/-- The last `width` hexadecimal digits of a number. -/
def hexDigits : Nat → Nat → List Char
  | 0, _ => []
  | width + 1, n => hexDigits width (n / 16) ++ [Nat.digitChar (n % 16)]

/-- A code point in hexadecimal: two, four or eight digits after a backslash and a letter. -/
def escapeCodePoint (n : Nat) : List Char :=
  if n < 0x100 then '\\' :: 'x' :: hexDigits 2 n
  else if n < 0x10000 then '\\' :: 'u' :: hexDigits 4 n
  else '\\' :: 'U' :: hexDigits 8 n

/-- A character as it stands between two marks. -/
def escape (mark c : Char) : List Char :=
  if c = '\\' || c = mark then ['\\', c]
  else if c = '\n' then ['\\', 'n']
  else if c = '\r' then ['\\', 'r']
  else if c = '\t' then ['\\', 't']
  else if isPrintable c then [c]
  else escapeCodePoint c.toNat

/-- The characters of the quoted form of a text. -/
def quoteChars (s : List Char) : List Char :=
  quoteMark s :: s.flatMap (escape (quoteMark s)) ++ [quoteMark s]

/-- The quoted form of a text. -/
def quote (s : String) : String :=
  String.ofList (quoteChars s.toList)

/-- The quoted form of a character standing alone. -/
def quoteChar (c : Char) : String :=
  String.ofList (quoteChars [c])

end Verdict.Text
