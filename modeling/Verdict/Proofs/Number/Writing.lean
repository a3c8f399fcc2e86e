import Mathlib.Algebra.Order.Field.Rat
import Mathlib.Data.Rat.Cast.Order
import Mathlib.Tactic.NormNum
import Verdict.Number.Given
import Verdict.Proofs.Number.Numeral

/-!
# Numbers that are written

An integer is written if it has few enough digits. The integers that are read have no more digits
than that, and a binary number always is written, for a whole one has no more than 309 digits.
-/

namespace Verdict

open Text

/-! ### Integers -/

namespace Integer

theorem isWritable_iff {n : Int} :
  isWritable n = true ↔ n.natAbs < 10 ^ maxDigits
  := by
  rw [isWritable, decide_eq_true_iff, Nat.length_toDigits_le_iff (by decide) (by decide)]

/-- A number of at most as many digits as are read is written, with either sign. -/
theorem isWritable_signed {s : List Char} (h : (s.filterMap digitValue?).length ≤ maxDigits)
    (negative : Bool) :
  isWritable (signed negative (ofDigitChars s)) = true
  := by
  have habs : (signed negative (ofDigitChars s)).natAbs = ofDigitChars s := by
    rw [signed]
    split
    all_goals simp
  rw [isWritable_iff, habs]
  calc ofDigitChars s < 10 ^ (s.filterMap digitValue?).length := ofDigitChars_lt s
    _ ≤ 10 ^ maxDigits := Nat.pow_le_pow_right (by decide) h

/-- The integers that are read are written. -/
theorem isWritable_of_read {text : String} {n : Int} (h : read text = .ok n) :
  isWritable n = true
  := by
  simp only [read] at h
  split_ifs at h with _ hlong _
  · cases h
    apply isWritable_signed (Nat.not_lt.mp hlong)

/-- In a run of digits and underscores no other characters count than the digits. -/
theorem length_filterMap_of_run {s : List Char}
    (h : ∀ c ∈ s, (c == '_' || isNumeral c) = true) :
  (s.filterMap digitValue?).length = (s.filter isNumeral).length
  := by
  rw [List.length_filterMap_eq_countP, ← List.countP_eq_length_filter]
  apply List.countP_congr
  intro c hc
  rcases Bool.or_eq_true_iff.mp (h c hc) with hline | hnumeral
  · rw [beq_iff_eq.mp hline]
    decide
  · simp [hnumeral, digitValue?_of_isNumeral hnumeral]

/-- The integers that are given as text are written. -/
theorem isWritable_of_ofText? {text : String} {n : Int} (h : ofText? text = some n) :
  isWritable n = true
  := by
  simp only [ofText?] at h
  split_ifs at h with hread
  simp only [Bool.and_eq_true, decide_eq_true_eq] at hread
  obtain ⟨⟨-, hshort⟩, -⟩ := hread
  rw [← Option.some_inj.mp h]
  apply isWritable_signed
  rwa [length_filterMap_of_run]
  intro c hc
  apply List.mem_takeWhile_imp hc

end Integer

/-! ### Binary numbers -/

/-- A whole binary number is less than the power of two behind all of them, and is written. -/
theorem Binary.isWritable_of_toInt? {b : Binary} {n : Int} (h : b.toInt? = some n) :
  Integer.isWritable n = true
  := by
  rcases b with ⟨negative, m, e, hnormal⟩ | negative | -
  · have hvalue : (n : Rat) = signed negative (m * (2 : Rat) ^ e) := by
      simp only [toInt?, value?, Option.bind_some] at h
      split_ifs at h with hden
      rw [← Option.some_inj.mp h]
      apply Rat.coe_int_num_of_den_eq_one hden
    have hsize : (n.natAbs : Rat) = m * (2 : Rat) ^ e := by
      have hnonneg : 0 ≤ (m : Rat) * (2 : Rat) ^ e :=
        mul_nonneg (Nat.cast_nonneg m) (Rat.zpow_pos (by decide)).le
      rw [Nat.cast_natAbs, Int.cast_abs, hvalue, signed]
      split
      · rw [abs_neg, abs_of_nonneg hnonneg]
      · rw [abs_of_nonneg hnonneg]
    have hbound : (n.natAbs : Rat) < (2 : Rat) ^ 1024 := by
      have hexponent : (2 : Rat) ^ e ≤ (2 : Rat) ^ (971 : Int) :=
        zpow_le_zpow_right₀ (by norm_num) hnormal.2.2.1
      have hmantissa : (m : Rat) < 2 ^ 53 := by
        have hlt := hnormal.1
        rw [mantissaBound] at hlt
        exact_mod_cast hlt
      calc (n.natAbs : Rat) = m * (2 : Rat) ^ e := hsize
        _ ≤ m * (2 : Rat) ^ (971 : Int) := mul_le_mul_of_nonneg_left hexponent (Nat.cast_nonneg m)
        _ < 2 ^ 53 * (2 : Rat) ^ (971 : Int) :=
          mul_lt_mul_of_pos_right hmantissa (zpow_pos two_pos 971)
        _ = (2 : Rat) ^ 1024 := by
          rw [← zpow_natCast, ← zpow_natCast, ← zpow_add₀ two_ne_zero]
          rfl
    -- The exponent is a variable in these two, for the power is too large to compute with.
    have hcast (k : Nat) (h : (n.natAbs : Rat) < 2 ^ k) : n.natAbs < 2 ^ k := by exact_mod_cast h
    have hpow (k : Nat) (h : k ≤ Integer.maxDigits) : 2 ^ k ≤ 10 ^ Integer.maxDigits :=
      calc 2 ^ k ≤ 10 ^ k := Nat.pow_le_pow_left (by decide) k
        _ ≤ 10 ^ Integer.maxDigits := Nat.pow_le_pow_right (by decide) h
    rw [Integer.isWritable_iff]
    apply (hcast 1024 hbound).trans_le (hpow 1024 (by decide))
  · cases h
  · cases h

namespace Number

theorem isWritable_binary (b : Binary) :
  (binary b).isWritable = true
  := by
  rw [isWritable]
  cases h : b.toInt? with
  | none => rfl
  | some n => exact Binary.isWritable_of_toInt? h

/-- A number is written if it is no integer with too many digits. -/
theorem isWritable_of_integer {v : Number}
    (h : ∀ n, v = integer n → Integer.isWritable n = true) :
  v.isWritable = true
  := by
  cases v with
  | integer n => apply h n rfl
  | binary b => apply isWritable_binary

/-- The numbers that are given as text are written. -/
theorem isWritable_of_ofText? {text : String} {v : Number} (h : ofText? text = some v) :
  v.isWritable = true
  := by
  apply isWritable_of_integer
  rintro n rfl
  rw [ofText?] at h
  cases hinteger : Integer.ofText? text with
  | none => simp [hinteger] at h
  | some m =>
    simp only [hinteger, Option.some.injEq, integer.injEq] at h
    rw [← h]
    apply Integer.isWritable_of_ofText? hinteger

end Number

end Verdict
