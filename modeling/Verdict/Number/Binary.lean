/-!
# Binary floating-point numbers

A finite binary number is a whole mantissa of at most 53 bits times a power of two, with a
sign. `IsNormal` singles out one such form for every number, so that `Binary` has one element
for every number it can hold, two for zero, the two infinities, and one value that is no
number. `Binary.value?` is the exact value of a finite number, and `Binary.nearest` is the
element nearest to a rational number.
-/

namespace Verdict

namespace Binary

/-- All mantissas are less than this power of two. -/
def mantissaBound : Nat := 9007199254740992

/-- The least exponent. -/
def minExponent : Int := -1074

/-- The greatest exponent. -/
def maxExponent : Int := 971

/-- The mantissa `m` with the exponent `e` is in normal form: it has 53 bits, or fewer at the
least exponent. -/
def IsNormal (m : Nat) (e : Int) : Prop :=
  m < mantissaBound ∧ minExponent ≤ e ∧ e ≤ maxExponent ∧
    (mantissaBound ≤ 2 * m ∨ e = minExponent)

instance (m : Nat) (e : Int) : Decidable (IsNormal m e) :=
  inferInstanceAs (Decidable (_ ∧ _))

end Binary

/-- A binary floating-point number. -/
inductive Binary where
  | finite (negative : Bool) (mantissa : Nat) (exponent : Int)
      (normal : Binary.IsNormal mantissa exponent)
  | infinite (negative : Bool)
  | nan
  deriving DecidableEq

namespace Binary

/-- The rational number of the given sign and size. -/
def signed (negative : Bool) (q : Rat) : Rat :=
  if negative then -q else q

/-- The exact value of a finite number. -/
def value? : Binary → Option Rat
  | .finite negative m e _ => some (signed negative (m * (2 : Rat) ^ e))
  | .infinite _ => none
  | .nan => none

/-- The value of a finite number that is whole. -/
def toInt? (b : Binary) : Option Int :=
  b.value?.bind fun q => if q.den = 1 then some q.num else none

/-! ### Rounding -/

/-- The integer nearest to a rational number, and the even one of two. -/
def roundHalfEven (q : Rat) : Int :=
  let k := q.floor
  if q - k < 1 / 2 then k
  else if 1 / 2 < q - k then k + 1
  else k + k % 2

/-- The exponent of the last bit of the number nearest to `q`, which is not negative: the one
for which 53 bits stand in front of it, but at least the least exponent. -/
def placeExponent (q : Rat) : Int :=
  if q = 0 then minExponent
  else
    let e : Int := (q.num.natAbs.log2 : Int) - (q.den.log2 : Int) - 53
    if q < mantissaBound * (2 : Rat) ^ e then max e minExponent
    else max (e + 1) minExponent

/-- The mantissa and the exponent with the last place doubled when the mantissa has reached
its bound. -/
def carry (m : Nat) (e : Int) : Nat × Int :=
  if m = mantissaBound then (m / 2, e + 1) else (m, e)

/-- The number of the given sign whose size is nearest to `q`, of two the one with the even
mantissa; an infinity when that size is beyond the greatest finite one. -/
def nearest (negative : Bool) (q : Rat) : Binary :=
  let place := placeExponent q
  let (m, e) := carry (roundHalfEven (q / (2 : Rat) ^ place)).toNat place
  if h : IsNormal m e then .finite negative m e h else .infinite negative

/-- Zero with a sign. -/
def zero (negative : Bool) : Binary :=
  .finite negative 0 minExponent (by decide)

end Binary

end Verdict
