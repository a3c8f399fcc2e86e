import Verdict.Number.Binary
import Verdict.Number.Integer

/-!
# Decimal numbers

A `Decimal` is a signed whole number times a power of ten. `Decimal.read?` reads one from a
text that may hold a point and an exponent, and `Decimal.toBinary` is the binary number
nearest to it.
-/

namespace Verdict

open Text

/-- The number `coefficient * 10 ^ exponent` with a sign. -/
structure Decimal where
  negative : Bool
  coefficient : Nat
  exponent : Int

namespace Decimal

/-- The size of a decimal number. -/
def size (d : Decimal) : Rat :=
  d.coefficient * (10 : Rat) ^ d.exponent

/-- The exponents above this one, or as far below its opposite as there are digits, belong to
numbers beyond all binary ones, or to numbers that none but zero is near to. -/
def exponentBound : Int := 400

/-- The binary number nearest to a decimal one. Where the exponent alone settles the answer
the power of ten is not formed. -/
def toBinary (d : Decimal) : Binary :=
  if d.coefficient = 0 then
    .zero d.negative
  else if exponentBound < d.exponent then
    .infinite d.negative
  else if d.exponent + d.coefficient.log2 < -exponentBound then
    .zero d.negative
  else
    .nearest d.negative d.size

/-- The exponent that a text writes after a number: nothing, or a letter, a sign and digits. -/
def readExponent? : List Char → Option Int
  | [] => some 0
  | c :: cs =>
    let (negative, digits) := Integer.splitSign cs
    if (c = 'e' || c = 'E') && !digits.isEmpty && digits.all isDigit then
      some (Integer.signed negative (ofDigitChars digits))
    else
      none

/-- The part of a text after a point, if a point is what it begins with: the digits there and
what follows them. -/
def splitFraction : List Char → List Char × List Char
  | '.' :: cs => (cs.takeWhile isDigit, cs.dropWhile isDigit)
  | cs => ([], cs)

/-- The decimal number that a text writes: a sign, digits with a point at any place among
them, and an exponent, of which only the digits must be there. -/
def read? (s : List Char) : Option Decimal :=
  let (negative, body) := Integer.splitSign s
  let whole := body.takeWhile isDigit
  let (fraction, rest) := splitFraction (body.dropWhile isDigit)
  if whole.isEmpty && fraction.isEmpty then
    none
  else
    (readExponent? rest).map fun k =>
      ⟨negative, ofDigitChars (whole ++ fraction), k - fraction.length⟩

end Decimal

end Verdict
