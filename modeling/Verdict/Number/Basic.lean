import Verdict.Number.Integer
import Verdict.Number.Shortest

/-!
# Numbers

The value of a variable is an integer or a binary floating-point number. `Number.compareTo`
compares it with an integer without rounding either of them, and `Number.text` writes it so
that a whole number has the same text in both forms. An integer with too many digits is not
written: `Number.isWritable` tells whether a number has a text.
-/

namespace Verdict

/-- The value of a variable. -/
inductive Number where
  | integer (n : Int)
  | binary (b : Binary)
  deriving DecidableEq

namespace Number

/-- The place of a rational number relative to an integer. -/
def orderOf (q : Rat) (n : Int) : Ordering :=
  if q < n then .lt
  else if q = n then .eq
  else .gt

/-- The place of a number relative to an integer; the value that is no number has none. -/
def compareTo : Number → Int → Option Ordering
  | .integer m, n => some (compare m n)
  | .binary (.finite negative m e h), n =>
    ((Binary.finite negative m e h).value?).map (orderOf · n)
  | .binary (.infinite negative), _ => some (if negative then .lt else .gt)
  | .binary .nan, _ => none

/-- The number is written if it is not an integer with too many digits. -/
def isWritable : Number → Bool
  | .integer n => Integer.isWritable n
  | .binary b => b.toInt?.all Integer.isWritable

/-- The text of a number that is written. A whole number is written with all of its digits. -/
def text : Number → String
  | .integer n => toString n
  | .binary b =>
    match b.toInt? with
    | some n => toString n
    | none => b.text

end Number

end Verdict
