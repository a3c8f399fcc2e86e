import Verdict.Text.Blank
import Verdict.Text.Digit
import Verdict.Text.Quoted

/-!
# Integers written as text

`Integer.read` reads an integer in base ten. White space may stand around it, a sign may
precede it, its digits may come from any script, and a single underscore may stand between
two digits. A text with more than `maxDigits` digits is refused before its value is formed,
and so is one that is no integer at all. In the same way an integer of more than `maxDigits`
digits is not written: `Integer.isWritable` tells which ones are.
-/

namespace Verdict.Integer

open Text

/-- The greatest number of digits of an integer that is read or written. -/
def maxDigits : Nat := 4300

/-- Why a text is not read as an integer, or an integer not written as a text. -/
inductive Fault where
  /-- The text has more digits than `maxDigits`. -/
  | tooLong (digits : Nat)
  /-- The text is not an integer. -/
  | notInteger (text : String)
  /-- The value of the name, or the integer that it is compared with, has more digits than
  `maxDigits`. -/
  | unwritable (name : String)
  deriving DecidableEq

/-- The greatest number of characters of a refused text that its message shows. -/
def shownLength : Nat := 200

/-- The wording of a fault. -/
def Fault.message : Fault → String
  | .tooLong digits =>
    "Exceeds the limit (" ++ toString maxDigits ++
      " digits) for integer string conversion: value has " ++ toString digits ++
      " digits; use sys.set_int_max_str_digits() to increase the limit"
  | .notInteger text =>
    "invalid literal for int() with base 10: " ++
      String.ofList ((quoteChars text.toList).take shownLength)
  | .unwritable _ =>
    "Exceeds the limit (" ++ toString maxDigits ++ " digits) for integer string conversion; " ++
      "use sys.set_int_max_str_digits() to increase the limit"

/-- White space that may stand around an integer: all but the information separators. -/
def isPadding (c : Char) : Bool :=
  isBlank c && !(0x1C ≤ c.toNat && c.toNat ≤ 0x1F)

/-- The character may stand in a run of digits. -/
def isRunChar (c : Char) : Bool :=
  isDigit c || c == '_'

/-- Every underscore of a run stands between two digits, and the run ends with a digit;
`afterDigit` tells that a digit precedes it. -/
def isGrouped (afterDigit : Bool) : List Char → Bool
  | [] => afterDigit
  | c :: cs =>
    if c = '_' then
      afterDigit && isGrouped false cs
    else
      isGrouped true cs

/-- The sign in front of a text: whether it is a minus sign, and what follows the sign. -/
def splitSign : List Char → Bool × List Char
  | '-' :: cs => (true, cs)
  | '+' :: cs => (false, cs)
  | cs => (false, cs)

/-- The integer that a sign and the size of a number determine. -/
def signed (negative : Bool) (n : Nat) : Int :=
  if negative then -(n : Int) else n

/-- The integer has few enough digits to be written. -/
def isWritable (n : Int) : Bool :=
  (Nat.toDigits 10 n.natAbs).length ≤ maxDigits

/-- The integer that a text writes. -/
def read (text : String) : Except Fault Int :=
  let (negative, body) := splitSign (text.toList.dropWhile isPadding)
  let run := body.takeWhile isRunChar
  let rest := body.dropWhile isRunChar
  let digits := run.filterMap digitValue?
  if !isGrouped false run then
    .error (.notInteger text)
  else if maxDigits < digits.length then
    .error (.tooLong digits.length)
  else if rest.all isPadding then
    .ok (signed negative (ofDigits digits))
  else
    .error (.notInteger text)

end Verdict.Integer
