import Verdict.Number.Basic
import Verdict.Number.Decimal
import Verdict.Token.Lexer

/-!
# Numbers and truth values given as text

A number may reach a program as a text, from a form or from a variable of the system, with
white space around it. It is an integer when it has a sign, digits with single underscores
between them, and possibly a point and zeros; any other decimal number, and the name of an
infinity or of the value that is no number, is a binary number. The digits are those of ASCII.
`Binary.read?` is more generous and takes the digits of any script. A truth value may be given
by one of several words.
-/

namespace Verdict

open Text

/-- A text without the white space at its two ends. -/
def trimPadding (s : List Char) : List Char :=
  ((s.dropWhile Integer.isPadding).reverse.dropWhile Integer.isPadding).reverse

/-! ### Integers -/

/-- The digits of a number without the zeros at their beginning, which underscores may part in
any way. The last of them stays where no other digit follows. -/
def Integer.dropZeros : List Char → List Char
  | '0' :: cs =>
    let isZero := fun c => c == '0' || c == '_'
    let rest := cs.dropWhile isZero
    if rest.head?.any isNumeral then rest
    else (('0' :: cs.takeWhile isZero).getLast?.getD '0') :: rest
  | s => s

/-- What follows the digits of a number leaves it whole: nothing, or a point and zeros. -/
def leavesWhole : List Char → Bool
  | [] => true
  | c :: zeros => c == '.' && !zeros.isEmpty && zeros.all (· == '0')

/-- The integer that a text gives, unless it has too many digits. -/
def Integer.ofText? (text : String) : Option Int :=
  let (negative, body) := Integer.splitSign (trimPadding text.toList)
  let inRun := fun c => c == '_' || isNumeral c
  let digits := Integer.dropZeros body
  let run := digits.takeWhile inRun
  if Integer.isGrouped false run && (run.filter isNumeral).length ≤ Integer.maxDigits &&
      leavesWhole (digits.dropWhile inRun) then
    some (Integer.signed negative (ofDigitChars run))
  else
    none

/-! ### Binary numbers -/

/-- The binary number that a text writes or names. -/
def Binary.ofNumeral? (s : List Char) : Option Binary :=
  let (negative, body) := Integer.splitSign s
  let word := String.ofList (body.map Char.toLower)
  if word = "inf" || word = "infinity" then some (.infinite negative)
  else if word = "nan" then some .nan
  else (Decimal.read? s).map Decimal.toBinary

/-- The binary number that characters of ASCII write or name. -/
def Binary.ofAscii? (s : List Char) : Option Binary :=
  if s.all (·.toNat < 0x80) then Binary.ofNumeral? s else none

/-- Underscores stand within the text, and no two of them beside each other. -/
def hasLoneUnderscores (s : List Char) : Bool :=
  s.contains '_' && Integer.isGrouped false s

/-- The binary number that a text gives. White space may stand around a text without
underscores. -/
def Binary.ofText? (text : String) : Option Binary :=
  match Binary.ofAscii? (trimPadding text.toList) with
  | some b => some b
  | none =>
    if hasLoneUnderscores text.toList then
      Binary.ofAscii? (text.toList.filter (· != '_'))
    else
      none

/-- Every underscore of a text stands between two digits; `afterDigit` tells that a digit
precedes the text. -/
def partsDigits (afterDigit : Bool) : List Char → Bool
  | [] => true
  | c :: cs =>
    if c = '_' then
      afterDigit && cs.head?.any isDigit && partsDigits false cs
    else
      partsDigits (isDigit c) cs

/-- The binary number that a text writes or names, in digits of any script. White space may
stand around it, and a single underscore between two digits. -/
def Binary.read? (text : String) : Option Binary :=
  let s := trimPadding text.toList
  if partsDigits false s then Binary.ofNumeral? (s.filter (· != '_')) else none

/-! ### Numbers and truth values -/

/-- The number that a text gives. -/
def Number.ofText? (text : String) : Option Number :=
  match Integer.ofText? text with
  | some n => some (.integer n)
  | none => (Binary.ofText? text).map .binary

/-- The words for the two truth values. -/
def truthWords : List (String × Bool) :=
  [("1", true), ("t", true), ("y", true), ("yes", true), ("on", true), ("true", true),
   ("0", false), ("f", false), ("n", false), ("no", false), ("off", false), ("false", false)]

/-- The truth value that a word gives, in letters of either case. -/
def truthOfText? (text : String) : Option Bool :=
  (truthWords.find? (·.1 == String.ofList (text.toList.map Char.toLower))).map (·.2)

end Verdict
