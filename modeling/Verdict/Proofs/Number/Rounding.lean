import Mathlib.Algebra.Order.Field.Power
import Mathlib.Algebra.Order.Ring.Unbundled.Rat
import Mathlib.Data.Rat.Cast.Order
import Mathlib.Tactic.FieldSimp
import Mathlib.Tactic.Linarith
import Mathlib.Tactic.NormNum
import Mathlib.Tactic.Positivity
import Mathlib.Tactic.Ring
import Mathlib.Tactic.Use
import Verdict.Number.Decimal

/-!
# Rounding to binary numbers

`Binary.nearest` rounds a size to the nearest one that has a mantissa of 53 bits at its exponent, or
a smaller mantissa at the least exponent, and of two that are equally near to the one with the even
mantissa. Exponents may be as great as they come in this; where the exponent of the nearest size is
too great for a binary number, the size is rounded to an infinity. `Decimal.toBinary` rounds the
exact value of a decimal number in this way, also where the exponent alone settles the answer.
-/

namespace Verdict.Binary

/-! ### Integers -/

section

variable (q : Rat)

/-- A rational number is rounded by one half at most, and by one half only to an even integer. -/
theorem abs_sub_roundHalfEven :
  |q - roundHalfEven q| < 1 / 2 ∨ |q - roundHalfEven q| = 1 / 2 ∧ roundHalfEven q % 2 = 0
  := by
  have hle := Rat.floor_le q
  have hlt := Rat.lt_floor_add_one q
  rw [Rat.intCast_add, Rat.intCast_one] at hlt
  rw [roundHalfEven]
  split_ifs with hbelow habove
  · left
    rw [abs_of_nonneg (by linarith)]
    exact hbelow
  · left
    rw [abs_sub_comm, Int.cast_add, Int.cast_one, abs_of_nonneg (by linarith)]
    linarith
  · right
    have hhalf : q - q.floor = 1 / 2 := by linarith
    rcases Int.emod_two_eq q.floor with heven | hodd
    · rw [heven, add_zero, hhalf]
      exact ⟨abs_of_pos (by norm_num), heven⟩
    · rw [hodd, Int.cast_add, Int.cast_one, ← sub_sub, hhalf]
      constructor
      · norm_num
      · omega

variable {q} {k : Int}

/-- Two integers are at least one apart, so one of them is far from a number that the other is near
to. -/
theorem one_sub_abs_sub_le {r : Int} (h : k ≠ r) :
  1 - |q - r| ≤ |q - k|
  := by
  have hone : (1 : Rat) ≤ |(k : Rat) - r| := by
    exact_mod_cast Int.one_le_abs (sub_ne_zero.mpr h)
  have htriangle := abs_sub_le (k : Rat) q r
  rw [abs_sub_comm (k : Rat) q] at htriangle
  linarith

/-- No integer is nearer to a rational number than the one to which it is rounded. -/
theorem abs_sub_roundHalfEven_le :
  |q - roundHalfEven q| ≤ |q - k|
  := by
  by_cases hk : k = roundHalfEven q
  · rw [hk]
  · have hfar := one_sub_abs_sub_le (q := q) hk
    rcases abs_sub_roundHalfEven q with hnear | ⟨hnear, -⟩
    · linarith
    · linarith

/-- If another integer is equally near, then a rational number is rounded to an even one. -/
theorem roundHalfEven_even (h : |q - k| = |q - roundHalfEven q|) :
  k = roundHalfEven q ∨ roundHalfEven q % 2 = 0
  := by
  by_cases hk : k = roundHalfEven q
  · exact Or.inl hk
  · have hfar := one_sub_abs_sub_le (q := q) hk
    rcases abs_sub_roundHalfEven q with hnear | ⟨-, heven⟩
    · linarith
    · exact Or.inr heven

end

/-! ### Sizes -/

/-- The size with the given mantissa and exponent. -/
def magnitude (m : Nat) (e : Int) : Rat :=
  m * (2 : Rat) ^ e

/-- The mantissa has 53 bits, or fewer at the least exponent. The exponent may be greater than that
of any binary number. -/
def IsPlaced (m : Nat) (e : Int) : Prop :=
  m < mantissaBound ∧ minExponent ≤ e ∧ (mantissaBound ≤ 2 * m ∨ e = minExponent)

theorem isNormal_iff {m : Nat} {e : Int} :
  IsNormal m e ↔ IsPlaced m e ∧ e ≤ maxExponent
  := by
  rw [IsNormal, IsPlaced]
  tauto

/-- The mantissa and the exponent give a size nearest to the number. If another size is equally
near, the mantissa is even. -/
structure IsNearest (q : Rat) (m : Nat) (e : Int) : Prop where
  placed : IsPlaced m e
  nearest : ∀ m' e', IsPlaced m' e' → |q - magnitude m e| ≤ |q - magnitude m' e'|
  even : ∀ m' e', IsPlaced m' e' → |q - magnitude m' e'| = |q - magnitude m e| →
    magnitude m' e' = magnitude m e ∨ m % 2 = 0

/-- The binary number with a sign, a mantissa and an exponent, which is an infinity when the
exponent is too great. -/
def ofPlace (negative : Bool) (m : Nat) (e : Int) : Binary :=
  if h : IsNormal m e then .finite negative m e h else .infinite negative

/-- The binary number with the sign is the nearest one to a size, with an even mantissa if there are
two. -/
def Rounds (negative : Bool) (q : Rat) (b : Binary) : Prop :=
  ∃ m e, IsNearest q m e ∧ b = ofPlace negative m e

/-- A size with a greater exponent is a whole multiple of the last place. -/
theorem exists_magnitude_eq {e e' : Int} (h : e ≤ e') (m : Nat) :
  ∃ k : Nat, magnitude m e' = k * (2 : Rat) ^ e
  := by
  obtain ⟨n, rfl⟩ := Int.le.dest h
  use m * 2 ^ n
  rw [magnitude, zpow_add₀ two_ne_zero, zpow_natCast]
  push_cast
  ring

/-- A size with a smaller exponent is less than all those with 53 bits. -/
theorem magnitude_lt_of_lt {e e' : Int} (h : e' < e) {m : Nat} (hm : m < mantissaBound) :
  magnitude m e' < (2 : Rat) ^ 52 * (2 : Rat) ^ e
  := by
  have hpos : (0 : Rat) < (2 : Rat) ^ e' := by positivity
  have hbound : (m : Rat) < 2 ^ 53 := by exact_mod_cast hm
  have hpow : (2 : Rat) ^ (e' + 1) ≤ (2 : Rat) ^ e :=
    zpow_le_zpow_right₀ one_le_two (Int.add_one_le_of_lt h)
  rw [zpow_add₀ two_ne_zero, zpow_one] at hpow
  calc magnitude m e' < 2 ^ 53 * (2 : Rat) ^ e' := mul_lt_mul_of_pos_right hbound hpos
    _ = 2 ^ 52 * ((2 : Rat) ^ e' * 2) := by ring
    _ ≤ 2 ^ 52 * (2 : Rat) ^ e := mul_le_mul_of_nonneg_left hpow (by norm_num)

/-! ### The last place -/

/-- The number has its last bit of 53 at the exponent, or its last bit at the least exponent. -/
def EndsAt (q : Rat) (e : Int) : Prop :=
  minExponent ≤ e ∧ q < (2 : Rat) ^ 53 * (2 : Rat) ^ e
    ∧ ((2 : Rat) ^ 52 * (2 : Rat) ^ e ≤ q ∨ e = minExponent)

/-- A number with its last bit of 53 at an exponent that may be too small ends at the least one. -/
theorem endsAt_max {q : Rat} {e : Int} (hlow : (2 : Rat) ^ 52 * (2 : Rat) ^ e ≤ q)
    (hhigh : q < (2 : Rat) ^ 53 * (2 : Rat) ^ e) :
  EndsAt q (max e minExponent)
  := by
  rcases le_total minExponent e with hle | hle
  · rw [max_eq_left hle]
    exact ⟨hle, hhigh, Or.inl hlow⟩
  · rw [max_eq_right hle]
    refine ⟨le_refl _, hhigh.trans_le ?_, Or.inr rfl⟩
    apply mul_le_mul_of_nonneg_left (zpow_le_zpow_right₀ one_le_two hle) (by norm_num)

/-- The lengths of the numerator and of the denominator tell the size of a number up to a factor of
two in either direction. -/
theorem zpow_log2_bounds {q : Rat} (h : 0 < q) :
  (2 : Rat) ^ ((q.num.natAbs.log2 : Int) - q.den.log2 - 1) ≤ q
    ∧ q < (2 : Rat) ^ ((q.num.natAbs.log2 : Int) - q.den.log2 + 1)
  := by
  have hnum : q.num.natAbs ≠ 0 := by
    rw [Ne, Int.natAbs_eq_zero, Rat.num_eq_zero]
    exact h.ne'
  have hq : q = (q.num.natAbs : Rat) / q.den := by
    have habs : (q.num.natAbs : Rat) = q.num := by
      rw [Nat.cast_natAbs, abs_of_nonneg (Rat.num_nonneg.mpr h.le)]
    rw [habs, Rat.num_div_den]
  have hden : (0 : Rat) < q.den := by exact_mod_cast q.den_pos
  have hnumLow : (2 : Rat) ^ q.num.natAbs.log2 ≤ q.num.natAbs := by
    exact_mod_cast Nat.log2_self_le hnum
  have hnumHigh : (q.num.natAbs : Rat) < (2 : Rat) ^ (q.num.natAbs.log2 + 1) := by
    exact_mod_cast Nat.lt_log2_self
  have hdenLow : (2 : Rat) ^ q.den.log2 ≤ q.den := by
    exact_mod_cast Nat.log2_self_le q.den_nz
  have hdenHigh : (q.den : Rat) < (2 : Rat) ^ (q.den.log2 + 1) := by
    exact_mod_cast Nat.lt_log2_self
  constructor
  · have hpow : (2 : Rat) ^ ((q.num.natAbs.log2 : Int) - q.den.log2 - 1) =
        2 ^ q.num.natAbs.log2 / 2 ^ (q.den.log2 + 1) := by
      rw [sub_sub, zpow_sub₀ two_ne_zero]
      norm_cast
    rw [hpow]
    nth_rewrite 3 [hq]
    apply div_le_div₀ (by positivity) hnumLow hden hdenHigh.le
  · have hpow : (2 : Rat) ^ ((q.num.natAbs.log2 : Int) - q.den.log2 + 1) =
        2 ^ (q.num.natAbs.log2 + 1) / 2 ^ q.den.log2 := by
      rw [sub_add_eq_add_sub, zpow_sub₀ two_ne_zero]
      norm_cast
    rw [hpow]
    nth_rewrite 1 [hq]
    apply div_lt_div₀ hnumHigh hdenLow (by positivity) (by positivity)

/-- A number that is not negative ends at the place to which it is rounded. -/
theorem endsAt_placeExponent {q : Rat} (h : 0 ≤ q) :
  EndsAt q (placeExponent q)
  := by
  rw [placeExponent]
  split_ifs with hzero
  · rw [hzero]
    exact ⟨le_refl _, by positivity, Or.inr rfl⟩
  · obtain ⟨hlow, hhigh⟩ := zpow_log2_bounds (lt_of_le_of_ne h (Ne.symm hzero))
    generalize (q.num.natAbs.log2 : Int) - q.den.log2 = d at hlow hhigh ⊢
    have hbound : (mantissaBound : Rat) = 2 ^ 53 := by norm_num [mantissaBound]
    have htwice : (2 : Rat) ^ (d - 53 + 1) = (2 : Rat) ^ (d - 53) * 2 := by
      rw [zpow_add₀ two_ne_zero, zpow_one]
    have hfirst : (2 : Rat) ^ (d - 1) = 2 ^ 52 * (2 : Rat) ^ (d - 53) := by
      rw [← zpow_natCast, ← zpow_add₀ two_ne_zero]
      congr 1
      push_cast
      ring
    have hlast : (2 : Rat) ^ (d + 1) = 2 ^ 53 * (2 : Rat) ^ (d - 53 + 1) := by
      rw [← zpow_natCast, ← zpow_add₀ two_ne_zero]
      congr 1
      push_cast
      ring
    rw [hfirst] at hlow
    rw [hlast] at hhigh
    change EndsAt q (if q < mantissaBound * (2 : Rat) ^ (d - 53) then max (d - 53) minExponent
      else max (d - 53 + 1) minExponent)
    split_ifs with hless
    · rw [hbound] at hless
      apply endsAt_max hlow hless
    · rw [hbound, not_lt] at hless
      apply endsAt_max _ hhigh
      rw [htwice]
      calc (2 : Rat) ^ 52 * ((2 : Rat) ^ (d - 53) * 2) = 2 ^ 53 * (2 : Rat) ^ (d - 53) := by ring
        _ ≤ q := hless

/-! ### Rounding at the last place -/

theorem magnitude_carry (m : Nat) (e : Int) :
  magnitude (carry m e).1 (carry m e).2 = m * (2 : Rat) ^ e
  := by
  rw [carry]
  split_ifs with hm
  · have hhalf : ((m / 2 : Nat) : Rat) * 2 = m := by
      rw [hm]
      norm_num [mantissaBound]
    rw [magnitude, zpow_add₀ two_ne_zero, zpow_one, mul_comm _ (2 : Rat), ← mul_assoc, hhalf]
  · rfl

/-- A mantissa that has reached its bound is placed with the next exponent. -/
theorem isPlaced_carry {m : Nat} {e : Int} (hbound : m ≤ mantissaBound) (he : minExponent ≤ e)
    (hfull : mantissaBound ≤ 2 * m ∨ e = minExponent) :
  IsPlaced (carry m e).1 (carry m e).2
  := by
  rw [carry]
  split_ifs with hm
  · rw [hm]
    refine ⟨?_, he.trans (by omega), Or.inl ?_⟩
    · change mantissaBound / 2 < mantissaBound
      decide
    · change mantissaBound ≤ 2 * (mantissaBound / 2)
      decide
  · exact ⟨lt_of_le_of_ne hbound hm, he, hfull⟩

theorem even_carry {m : Nat} (h : m % 2 = 0) (e : Int) :
  (carry m e).1 % 2 = 0
  := by
  rw [carry]
  split_ifs with hm
  · rw [hm]
    change mantissaBound / 2 % 2 = 0
    decide
  · exact h

/-- Another size is a whole multiple of the last place of a number, or it is less than all that have
53 bits there, and the number is not. -/
theorem IsPlaced.multiple_or_less {q : Rat} {e e' : Int} {m' : Nat} (h : IsPlaced m' e')
    (hq : EndsAt q e) :
  (∃ k : Nat, magnitude m' e' = k * (2 : Rat) ^ e)
    ∨ magnitude m' e' < (2 : Rat) ^ 52 * (2 : Rat) ^ e ∧ (2 : Rat) ^ 52 * (2 : Rat) ^ e ≤ q
  := by
  obtain ⟨hm, he', -⟩ := h
  obtain ⟨-, -, hlow⟩ := hq
  rcases le_or_gt e e' with hle | hlt
  · exact Or.inl (exists_magnitude_eq hle m')
  · right
    use magnitude_lt_of_lt hlt hm
    rcases hlow with hlow | rfl
    · exact hlow
    · exact absurd he' (not_le.mpr hlt)

/-- The distance of a number from a multiple of its last place, in units of this place. -/
theorem abs_sub_mul_zpow (q : Rat) (e : Int) (k : Rat) :
  |q - k * (2 : Rat) ^ e| = |q / (2 : Rat) ^ e - k| * (2 : Rat) ^ e
  := by
  have hpos : (0 : Rat) < (2 : Rat) ^ e := by positivity
  rw [← abs_of_pos hpos, ← abs_mul, abs_of_pos hpos, sub_mul, div_mul_cancel₀ q hpos.ne']

section

variable {q : Rat} {e : Int}

/-- A number is rounded to a mantissa that is not negative, that is at most the bound, and that has
53 bits unless the last place is the least one. -/
theorem roundHalfEven_bounds (h : 0 ≤ q) (hq : EndsAt q e) :
  0 ≤ roundHalfEven (q / (2 : Rat) ^ e)
    ∧ roundHalfEven (q / (2 : Rat) ^ e) ≤ mantissaBound
    ∧ ((mantissaBound : Int) ≤ 2 * roundHalfEven (q / (2 : Rat) ^ e) ∨ e = minExponent)
  := by
  obtain ⟨-, hhigh, hlow⟩ := hq
  have hpos : (0 : Rat) < (2 : Rat) ^ e := by positivity
  have hnonneg : 0 ≤ q / (2 : Rat) ^ e := div_nonneg h hpos.le
  rw [← div_lt_iff₀ hpos] at hhigh
  rw [← le_div_iff₀ hpos] at hlow
  have hnear : |q / (2 : Rat) ^ e - roundHalfEven (q / (2 : Rat) ^ e)| ≤ 1 / 2 := by
    rcases abs_sub_roundHalfEven (q / (2 : Rat) ^ e) with hlt | ⟨heq, -⟩
    · exact hlt.le
    · exact heq.le
  generalize q / (2 : Rat) ^ e = x at hnonneg hhigh hlow hnear ⊢
  generalize roundHalfEven x = r at hnear ⊢
  obtain ⟨hbelow, habove⟩ := abs_sub_le_iff.mp hnear
  refine ⟨?_, ?_, ?_⟩
  · have hr : (-1 : Rat) < r := by linarith
    have hint : (-1 : Int) < r := by exact_mod_cast hr
    omega
  · have hr : (r : Rat) < 2 ^ 53 + 1 := by linarith
    have hint : r < 2 ^ 53 + 1 := by exact_mod_cast hr
    rw [mantissaBound]
    omega
  · apply hlow.imp_left
    intro hfull
    have hr : (2 : Rat) ^ 52 - 1 < r := by linarith
    have hint : (2 : Int) ^ 52 - 1 < r := by exact_mod_cast hr
    rw [mantissaBound]
    omega

/-- A size that is no multiple of the last place of a number is farther away than the multiple to
which the number is rounded, for it is less than the least size with 53 bits. -/
theorem IsPlaced.abs_sub_lt {m' : Nat} {e' : Int} (h : IsPlaced m' e') (hq : EndsAt q e)
    (hnot : ¬ ∃ k : Nat, magnitude m' e' = k * (2 : Rat) ^ e) :
  |q - roundHalfEven (q / (2 : Rat) ^ e) * (2 : Rat) ^ e| < |q - magnitude m' e'|
  := by
  obtain ⟨hless, hlow⟩ := (h.multiple_or_less hq).resolve_left hnot
  have hleast : |q / (2 : Rat) ^ e - roundHalfEven (q / (2 : Rat) ^ e)| ≤
      |q / (2 : Rat) ^ e - (2 ^ 52 : Int)| := abs_sub_roundHalfEven_le
  push_cast at hleast
  calc |q - roundHalfEven (q / (2 : Rat) ^ e) * (2 : Rat) ^ e| ≤ |q - 2 ^ 52 * (2 : Rat) ^ e| := by
        rw [abs_sub_mul_zpow, abs_sub_mul_zpow]
        exact mul_le_mul_of_nonneg_right hleast (by positivity)
    _ = q - 2 ^ 52 * (2 : Rat) ^ e := abs_of_nonneg (sub_nonneg.mpr hlow)
    _ < q - magnitude m' e' := sub_lt_sub_left hless q
    _ ≤ |q - magnitude m' e'| := le_abs_self _

/-- A number that is not negative and is rounded at its last place is rounded to a nearest size. -/
theorem isNearest_carry (h : 0 ≤ q) (hq : EndsAt q e) :
  IsNearest q (carry (roundHalfEven (q / (2 : Rat) ^ e)).toNat e).1
    (carry (roundHalfEven (q / (2 : Rat) ^ e)).toNat e).2
  := by
  have hpos : (0 : Rat) < (2 : Rat) ^ e := by positivity
  obtain ⟨hnonneg, hbound, hfull⟩ := roundHalfEven_bounds h hq
  have hnear : ∀ k : Int, |q / (2 : Rat) ^ e - roundHalfEven (q / (2 : Rat) ^ e)| ≤
      |q / (2 : Rat) ^ e - k| := fun k => abs_sub_roundHalfEven_le
  have heven : ∀ k : Int,
      |q / (2 : Rat) ^ e - k| = |q / (2 : Rat) ^ e - roundHalfEven (q / (2 : Rat) ^ e)| →
      k = roundHalfEven (q / (2 : Rat) ^ e) ∨ roundHalfEven (q / (2 : Rat) ^ e) % 2 = 0 :=
    fun k => roundHalfEven_even
  have hfarther : ∀ m' e', IsPlaced m' e' → (¬ ∃ k : Nat, magnitude m' e' = k * (2 : Rat) ^ e) →
      |q - roundHalfEven (q / (2 : Rat) ^ e) * (2 : Rat) ^ e| < |q - magnitude m' e'| :=
    fun m' e' hplaced => hplaced.abs_sub_lt hq
  obtain ⟨n, hn⟩ := Int.eq_ofNat_of_zero_le hnonneg
  rw [hn] at hbound hfull hnear heven hfarther ⊢
  rw [Int.toNat_natCast]
  refine ⟨isPlaced_carry (by exact_mod_cast hbound) hq.1 (by exact_mod_cast hfull), ?_, ?_⟩
  · intro m' e' hplaced
    rw [magnitude_carry]
    by_cases hmultiple : ∃ k : Nat, magnitude m' e' = k * (2 : Rat) ^ e
    · obtain ⟨k, hk⟩ := hmultiple
      rw [hk, abs_sub_mul_zpow, abs_sub_mul_zpow]
      exact mul_le_mul_of_nonneg_right (by exact_mod_cast hnear k) hpos.le
    · exact (hfarther m' e' hplaced hmultiple).le
  · intro m' e' hplaced htie
    rw [magnitude_carry] at htie ⊢
    by_cases hmultiple : ∃ k : Nat, magnitude m' e' = k * (2 : Rat) ^ e
    · obtain ⟨k, hk⟩ := hmultiple
      rw [hk, abs_sub_mul_zpow, abs_sub_mul_zpow] at htie
      rcases heven k (by exact_mod_cast mul_right_cancel₀ hpos.ne' htie) with hsame | hzero
      · left
        rw [hk, Int.ofNat_inj.mp hsame]
      · right
        apply even_carry
        omega
    · exact absurd htie (hfarther m' e' hplaced hmultiple).ne'

end

/-- A size is rounded to the nearest binary number. -/
theorem rounds_nearest (negative : Bool) {q : Rat} (h : 0 ≤ q) :
  Rounds negative q (nearest negative q)
  := ⟨_, _, isNearest_carry h (endsAt_placeExponent h), rfl⟩

/-! ### Sizes beyond the exponents -/

/-- The least size that is too great for a binary number has 53 bits with the next exponent. -/
theorem maxExponent_lt_of_isNearest {q : Rat} {m : Nat} {e : Int} (h : IsNearest q m e)
    (hq : (2 : Rat) ^ 52 * (2 : Rat) ^ (maxExponent + 1) ≤ q) :
  maxExponent < e
  := by
  by_contra hle
  have hless := magnitude_lt_of_lt (Int.lt_add_one_of_le (not_lt.mp hle)) h.placed.1
  have hplaced : IsPlaced (2 ^ 52) (maxExponent + 1) := by
    refine ⟨?_, ?_, Or.inl ?_⟩
    all_goals decide
  have hleast : magnitude (2 ^ 52) (maxExponent + 1) = 2 ^ 52 * (2 : Rat) ^ (maxExponent + 1) := by
    rw [magnitude, Nat.cast_pow, Nat.cast_ofNat]
  have hnearest := h.nearest _ _ hplaced
  rw [abs_of_pos (sub_pos.mpr (hless.trans_le hq)), hleast, abs_of_nonneg (sub_nonneg.mpr hq)]
    at hnearest
  linarith

theorem rounds_infinite (negative : Bool) {q : Rat}
    (hq : (2 : Rat) ^ 52 * (2 : Rat) ^ (maxExponent + 1) ≤ q) :
  Rounds negative q (.infinite negative)
  := by
  have hnonneg : 0 ≤ q := le_trans (by positivity) hq
  have hnearest := isNearest_carry hnonneg (endsAt_placeExponent hnonneg)
  refine ⟨_, _, hnearest, ?_⟩
  rw [ofPlace, dif_neg]
  rintro ⟨-, -, hle, -⟩
  exact absurd (maxExponent_lt_of_isNearest hnearest hq) (not_lt.mpr hle)

/-- A number that is less than half of the least size is rounded to zero. -/
theorem rounds_zero (negative : Bool) {q : Rat} (h : 0 ≤ q)
    (hq : q * 2 < (2 : Rat) ^ minExponent) :
  Rounds negative q (zero negative)
  := by
  have hplaced : IsPlaced 0 minExponent := ⟨by decide, le_refl _, Or.inr rfl⟩
  have hnothing : magnitude 0 minExponent = 0 := by simp [magnitude]
  refine ⟨0, minExponent, ⟨hplaced, ?_, fun _ _ _ _ => Or.inr rfl⟩, ?_⟩
  · intro m' e' hplaced'
    rw [hnothing, sub_zero, abs_of_nonneg h]
    rcases Nat.eq_zero_or_pos m' with rfl | hpos
    · simp [magnitude, abs_of_nonneg h]
    · have hone : (1 : Rat) ≤ m' := by exact_mod_cast hpos
      have hpow : (2 : Rat) ^ minExponent ≤ (2 : Rat) ^ e' :=
        zpow_le_zpow_right₀ one_le_two hplaced'.2.1
      have hsize : (2 : Rat) ^ minExponent ≤ magnitude m' e' :=
        hpow.trans (le_mul_of_one_le_left (by positivity) hone)
      rw [abs_sub_comm]
      apply le_trans _ (le_abs_self _)
      linarith
  · rw [ofPlace, dif_pos (isNormal_iff.mpr ⟨hplaced, by decide⟩)]
    rfl

end Verdict.Binary

/-! ### Decimal numbers -/

namespace Verdict.Decimal

open Binary

theorem size_nonneg (d : Decimal) :
  0 ≤ d.size
  := by
  rw [size]
  positivity

/-- A power of two is at most the power of ten with a third of the exponent. -/
theorem zpow_two_le_zpow_ten (n : Nat) :
  (2 : Rat) ^ (3 * n : Int) ≤ (10 : Rat) ^ (n : Int)
  := by
  rw [zpow_mul, zpow_natCast, zpow_natCast]
  apply pow_le_pow_left₀ (by positivity)
  norm_num

/-- A number other than zero with a great exponent is beyond all binary numbers. -/
theorem le_size_of_exponentBound {d : Decimal} (hne : d.coefficient ≠ 0)
    (h : exponentBound < d.exponent) :
  (2 : Rat) ^ 52 * (2 : Rat) ^ (maxExponent + 1) ≤ d.size
  := by
  have hone : (1 : Rat) ≤ d.coefficient := by exact_mod_cast Nat.one_le_iff_ne_zero.mpr hne
  calc (2 : Rat) ^ 52 * (2 : Rat) ^ (maxExponent + 1)
      = (2 : Rat) ^ ((52 : Nat) + (maxExponent + 1) : Int) := by
        rw [zpow_add₀ two_ne_zero ((52 : Nat) : Int), zpow_natCast]
    _ ≤ (2 : Rat) ^ (3 * (400 : Nat) : Int) := zpow_le_zpow_right₀ one_le_two (by decide)
    _ ≤ (10 : Rat) ^ ((400 : Nat) : Int) := zpow_two_le_zpow_ten 400
    _ ≤ (10 : Rat) ^ d.exponent := zpow_le_zpow_right₀ (by norm_num) h.le
    _ ≤ d.size := le_mul_of_one_le_left (by positivity) hone

/-- A number whose exponent is far below zero, by more than its digits, is near to zero. -/
theorem size_lt_of_exponentBound {d : Decimal}
    (h : d.exponent + d.coefficient.log2 < -exponentBound) :
  d.size * 2 < (2 : Rat) ^ minExponent
  := by
  have hpos : (0 : Rat) < (10 : Rat) ^ d.exponent := by positivity
  have hcoefficient : (d.coefficient : Rat) < 2 ^ (d.coefficient.log2 + 1) := by
    exact_mod_cast Nat.lt_log2_self
  have hten : (2 : Rat) ^ (d.coefficient.log2 + 1) ≤ 10 ^ (d.coefficient.log2 + 1) :=
    pow_le_pow_left₀ (by norm_num) (by norm_num) _
  have hsize : d.size < (10 : Rat) ^ (-(400 : Nat) : Int) := by
    calc d.size < 10 ^ (d.coefficient.log2 + 1) * (10 : Rat) ^ d.exponent :=
          mul_lt_mul_of_pos_right (hcoefficient.trans_le hten) hpos
      _ = (10 : Rat) ^ ((d.coefficient.log2 + 1 : Nat) + d.exponent) := by
          rw [zpow_add₀ (by norm_num), zpow_natCast]
      _ ≤ (10 : Rat) ^ (-(400 : Nat) : Int) := by
          apply zpow_le_zpow_right₀ (by norm_num)
          rw [exponentBound] at h
          push_cast
          omega
  have hpow : (10 : Rat) ^ (-(400 : Nat) : Int) ≤ (2 : Rat) ^ (-(3 * (400 : Nat)) : Int) := by
    rw [zpow_neg, zpow_neg]
    apply inv_anti₀ (by positivity) (zpow_two_le_zpow_ten 400)
  calc d.size * 2 < (2 : Rat) ^ (-(3 * (400 : Nat)) : Int) * 2 :=
        mul_lt_mul_of_pos_right (hsize.trans_le hpow) two_pos
    _ = (2 : Rat) ^ (-(3 * (400 : Nat)) + 1 : Int) := by rw [zpow_add₀ two_ne_zero, zpow_one]
    _ ≤ (2 : Rat) ^ minExponent := zpow_le_zpow_right₀ one_le_two (by decide)

/-- A decimal number becomes the binary number nearest to its exact value, with the even mantissa if
there are two, or an infinity when the nearest size has too great an exponent. -/
theorem rounds_toBinary (d : Decimal) :
  Rounds d.negative d.size d.toBinary
  := by
  rw [toBinary]
  split_ifs with hzero hgreat hsmall
  · have hsize : d.size = 0 := by simp [size, hzero]
    rw [hsize]
    apply rounds_zero d.negative (le_refl 0)
    rw [zero_mul]
    positivity
  · apply rounds_infinite d.negative (le_size_of_exponentBound hzero hgreat)
  · apply rounds_zero d.negative d.size_nonneg (size_lt_of_exponentBound hsmall)
  · apply rounds_nearest d.negative d.size_nonneg

end Verdict.Decimal
