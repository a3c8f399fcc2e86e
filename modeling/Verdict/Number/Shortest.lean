import Verdict.Number.Binary

/-!
# The shortest decimal text of a binary number

Among the decimal numbers that round to a given binary number there are some with the fewest
digits. `Binary.shortest?` is the one of these that lies nearest to the number, and
`Binary.text` writes it. The numbers that round to `m * 2 ^ e` form an interval, which
contains its ends when `m` is even. Its multiples of a power of ten are few for a large power
and many for a small one, so the first power that has one gives the fewest digits.
-/

namespace Verdict.Binary

/-- The ends of the interval of the numbers that round to `m * 2 ^ e`. Below the least
mantissa of an exponent the binary numbers lie twice as close. -/
def interval (m : Nat) (e : Int) : Rat × Rat :=
  let below : Rat := if 2 * m = mantissaBound ∧ e ≠ minExponent then 1 / 4 else 1 / 2
  ((m - below) * (2 : Rat) ^ e, (m + 1 / 2) * (2 : Rat) ^ e)

/-- The number `q` rounds to `m * 2 ^ e`. -/
def roundsTo (m : Nat) (e : Int) (q : Rat) : Bool :=
  let (low, high) := interval m e
  if m % 2 = 0 then low ≤ q && q ≤ high else low < q && q < high

/-- The multiple `d * 10 ^ k` nearest to `m * 2 ^ e` among those that round to it, of two the
one with an even `d`. -/
def onGrid? (m : Nat) (e k : Int) (accepts : Rat → Bool) : Option (Int × Int) :=
  let unit : Rat := (10 : Rat) ^ k
  let x := m * (2 : Rat) ^ e / unit
  let d := x.floor
  if accepts (d * unit) && accepts ((d + 1) * unit) then
    some (roundHalfEven x, k)
  else if accepts (d * unit) then
    some (d, k)
  else if accepts ((d + 1) * unit) then
    some (d + 1, k)
  else
    none

/-- An exponent whose power of ten is greater than every number below `2 ^ n`. -/
def decimalBound (n : Int) : Int :=
  n * 30103 / 100000 + 2

/-- The number of powers of ten that are tried, enough for seventeen digits. -/
def gridCount : Nat := 40

/-- The decimal number `d * 10 ^ k` with the fewest digits that rounds to `m * 2 ^ e`, and the
nearest of these. -/
def shortest? (m : Nat) (e : Int) : Option (Int × Int) :=
  (List.range gridCount).findSome? fun (i : Nat) =>
    onGrid? m e (decimalBound (e + 53) - (i : Int)) (roundsTo m e)

/-! ### Layout -/

/-- Where numbers are written without an exponent: the exponent of the first digit is at least
`least` and less than `beyond`. -/
structure Layout where
  least : Int
  beyond : Int
  /-- The least number of digits of an exponent. -/
  exponentWidth : Nat

/-- Sizes from a ten-thousandth on and below `10 ^ 16` are written without an exponent, and
exponents with two digits at least. -/
def layout : Layout := ⟨-4, 16, 2⟩

/-- An exponent with its sign. -/
def exponentChars (l : Layout) (k : Int) : List Char :=
  let digits := k.natAbs.repr.toList
  (if k < 0 then '-' else '+') :: (List.replicate (l.exponentWidth - digits.length) '0' ++ digits)

/-- The digits of a number laid out around its point, where `first` is the exponent of the
first digit. -/
def layOut (l : Layout) (digits : List Char) (first : Int) : List Char :=
  if first < l.least || l.beyond ≤ first then
    match digits with
    | [] => []
    | [d] => d :: 'e' :: exponentChars l first
    | d :: ds => d :: '.' :: ds ++ 'e' :: exponentChars l first
  else if first < 0 then
    '0' :: '.' :: (List.replicate (-first - 1).toNat '0' ++ digits)
  else
    let whole := first.toNat + 1
    let fraction := digits.drop whole
    digits.take whole ++ List.replicate (whole - digits.length) '0' ++
      '.' :: (if fraction.isEmpty then ['0'] else fraction)

/-- The characters of a number `m * 2 ^ e` other than its sign. -/
def sizeChars (m : Nat) (e : Int) : List Char :=
  if m = 0 then ['0', '.', '0']
  else
    match shortest? m e with
    | some (d, k) =>
      let digits := d.toNat.repr.toList
      layOut layout digits (k + digits.length - 1)
    | none => []

/-- A sign in front of a text. -/
def withSign (negative : Bool) (s : List Char) : String :=
  String.ofList (if negative then '-' :: s else s)

/-- The text of a binary number. -/
def text : Binary → String
  | .finite negative m e _ => withSign negative (sizeChars m e)
  | .infinite negative => withSign negative ['i', 'n', 'f']
  | .nan => "nan"

end Verdict.Binary
