import Mathlib.Algebra.Order.Ring.Unbundled.Rat
import Mathlib.Data.Rat.Cast.Order
import Mathlib.Order.Compare
import Mathlib.Order.WithBot
import Mathlib.Tactic.Linarith
import Mathlib.Tactic.NormNum
import Mathlib.Tactic.Ring
import Verdict.Evaluation.Basic

/-!
# Positions of numbers

The position of a number is its exact value among the rational numbers, below and above which there
is an infinity. The value that is no number has no position. A number is compared with an integer by
its position alone, and the test for a missing value looks for the positions of the codes.

A finite binary number other than zero is determined by its position, since only one mantissa and
one exponent in normal form have a given size. A number is therefore written by its position: a
whole one with its digits, and any other is binary and the only one at its position.
-/

namespace Verdict

/-! ### Rational numbers and infinities -/

/-- The rational numbers with an infinity below them and an infinity above them. -/
abbrev ExtendedRat := WithBot (WithTop Rat)

namespace ExtendedRat

/-- A rational number between the infinities. -/
def ofRat (q : Rat) : ExtendedRat :=
  ((q : WithTop Rat) : WithBot (WithTop Rat))

variable {p q : Rat}

theorem ofRat_lt_iff :
  ofRat p < ofRat q ↔ p < q
  := by
  rw [ofRat, ofRat, WithBot.coe_lt_coe, WithTop.coe_lt_coe]

theorem ofRat_inj :
  ofRat p = ofRat q ↔ p = q
  := by
  rw [ofRat, ofRat, WithBot.coe_inj, WithTop.coe_inj]

theorem ofRat_le_of_le {m n : Int} (h : m ≤ n) :
  ofRat m ≤ ofRat n
  := by
  rw [← not_lt, ofRat_lt_iff, Int.cast_lt]
  exact h.not_gt

theorem bot_lt_ofRat (q : Rat) :
  ⊥ < ofRat q
  := WithBot.bot_lt_coe _

theorem ofRat_lt_top (q : Rat) :
  ofRat q < ⊤
  := by
  rw [ofRat, ← WithBot.coe_top, WithBot.coe_lt_coe]
  apply WithTop.coe_lt_top

end ExtendedRat

/-! ### Relations -/

/-- The relation between two elements of an ordered set. -/
def Relation.Relates {α : Type} [LinearOrder α] : Relation → α → α → Prop
  | .gt, a, b => b < a
  | .ge, a, b => b ≤ a
  | .lt, a, b => a < b
  | .le, a, b => a ≤ b
  | .eq, a, b => a = b

instance {α : Type} [LinearOrder α] (r : Relation) (a b : α) : Decidable (r.Relates a b) :=
  match r with
  | .gt => inferInstanceAs (Decidable (b < a))
  | .ge => inferInstanceAs (Decidable (b ≤ a))
  | .lt => inferInstanceAs (Decidable (a < b))
  | .le => inferInstanceAs (Decidable (a ≤ b))
  | .eq => inferInstanceAs (Decidable (a = b))

/-- A relation holds between two elements that are so ordered. -/
theorem Relation.holds_cmp {α : Type} [LinearOrder α] (r : Relation) (a b : α) :
  r.holds (cmp a b) = decide (r.Relates a b)
  := by
  rw [Bool.eq_iff_iff, decide_eq_true_iff]
  cases r with
  | gt =>
    rw [holds, beq_iff_eq, cmp_eq_gt_iff]
    exact Iff.rfl
  | ge =>
    rw [holds, bne_iff_ne, Ne, cmp_eq_lt_iff, not_lt]
    exact Iff.rfl
  | lt =>
    rw [holds, beq_iff_eq, cmp_eq_lt_iff]
    exact Iff.rfl
  | le =>
    rw [holds, bne_iff_ne, Ne, cmp_eq_gt_iff, not_lt]
    exact Iff.rfl
  | eq =>
    rw [holds, beq_iff_eq, cmp_eq_eq_iff]
    exact Iff.rfl

/-! ### Positions -/

namespace Number

/-- The exact value of a number, or its infinity. The value that is no number has no position. -/
def position? : Number → Option ExtendedRat
  | .integer n => some (.ofRat n)
  | .binary (.finite negative m e _) => some (.ofRat (Binary.signed negative (m * (2 : Rat) ^ e)))
  | .binary (.infinite negative) => some (if negative then ⊥ else ⊤)
  | .binary .nan => none

theorem position?_eq_none_iff {v : Number} :
  v.position? = none ↔ v = .binary .nan
  := by
  rcases v with n | ⟨negative, m, e, h⟩ | negative | -
  all_goals simp [position?]

/-- A rational number is placed relative to an integer by its position. -/
theorem orderOf_eq_cmp (q : Rat) (n : Int) :
  orderOf q n = cmp (ExtendedRat.ofRat q) (.ofRat n)
  := by
  rw [orderOf]
  rcases lt_trichotomy q n with h | h | h
  · rw [if_pos h, (cmp_eq_lt_iff _ _).mpr (ExtendedRat.ofRat_lt_iff.mpr h)]
  · rw [if_neg h.not_lt, if_pos h, h, cmp_self_eq_eq]
  · rw [if_neg h.not_gt, if_neg h.ne', (cmp_eq_gt_iff _ _).mpr (ExtendedRat.ofRat_lt_iff.mpr h)]

theorem compare_eq_orderOf (m n : Int) :
  compare m n = orderOf m n
  := by
  rw [orderOf, compare, instOrdInt]
  simp [compareOfLessAndEq]

/-- A number is placed relative to an integer by its position. -/
theorem compareTo_eq_cmp (v : Number) (n : Int) :
  v.compareTo n = v.position?.map fun p => cmp p (.ofRat n)
  := by
  rcases v with m | ⟨negative, m, e, h⟩ | negative | -
  · rw [compareTo, compare_eq_orderOf, orderOf_eq_cmp]
    rfl
  · rw [compareTo, Binary.value?, Option.map_some, orderOf_eq_cmp]
    rfl
  · cases negative with
    | false => exact congrArg some ((cmp_eq_gt_iff _ _).mpr (ExtendedRat.ofRat_lt_top n)).symm
    | true => exact congrArg some ((cmp_eq_lt_iff _ _).mpr (ExtendedRat.bot_lt_ofRat n)).symm
  · rfl

/-- A number stands in a relation to an integer if its position does. -/
theorem stands_eq (v : Number) (r : Relation) (n : Int) :
  v.stands r n = v.position?.any fun p => decide (r.Relates p (.ofRat n))
  := by
  rw [stands, compareTo_eq_cmp]
  cases v.position? with
  | none => rfl
  | some p => apply Relation.holds_cmp

theorem stands_iff {v : Number} {r : Relation} {n : Int} :
  v.stands r n = true ↔ ∃ p, v.position? = some p ∧ r.Relates p (.ofRat n)
  := by
  simp [stands_eq, Option.any_eq_true]

/-- A value is missing if it is at the position of a code. -/
theorem isMissing_some_iff {v : Number} :
  isMissing (some v) = true ↔
    v.position? = some (.ofRat 99) ∨ v.position? = some (.ofRat 999)
  := by
  simp [isMissing, missingCodes, stands_iff, Relation.Relates]

end Number

/-! ### Normal forms -/

namespace Binary

variable {m m' : Nat} {e e' : Int}

/-- A size with an exponent has no mantissa in normal form at a smaller exponent. -/
theorem IsNormal.le_of_size_eq (h : IsNormal m e) (h' : IsNormal m' e')
    (hsize : (m : Rat) * (2 : Rat) ^ e = m' * (2 : Rat) ^ e') :
  e' ≤ e
  := by
  by_contra hlt
  obtain ⟨k, hk⟩ := Int.le.dest (Int.add_one_le_of_lt (Int.not_le.mp hlt))
  have hmantissa : m = 2 * m' * 2 ^ k := by
    have hne : (2 : Rat) ^ e ≠ 0 := (Rat.zpow_pos (by decide)).ne'
    rw [← hk, Rat.zpow_add (by decide), Rat.zpow_add (by decide), Rat.zpow_natCast] at hsize
    have hcancel : (m : Rat) = 2 * m' * 2 ^ k := by
      apply mul_right_cancel₀ hne
      rw [hsize]
      ring
    exact_mod_cast hcancel
  obtain ⟨hbound, hleast, -⟩ := h
  obtain ⟨-, -, -, hfull | hexponent⟩ := h'
  · have hpow : 2 * m' ≤ 2 * m' * 2 ^ k := Nat.le_mul_of_pos_right _ (Nat.two_pow_pos k)
    omega
  · omega

/-- A size has one mantissa and one exponent in normal form. -/
theorem IsNormal.eq_of_size_eq (h : IsNormal m e) (h' : IsNormal m' e')
    (hsize : (m : Rat) * (2 : Rat) ^ e = m' * (2 : Rat) ^ e') :
  m = m' ∧ e = e'
  := by
  obtain rfl := Int.le_antisymm (h'.le_of_size_eq h hsize.symm) (h.le_of_size_eq h' hsize)
  have hne : (2 : Rat) ^ e ≠ 0 := (Rat.zpow_pos (by decide)).ne'
  exact ⟨by exact_mod_cast mul_right_cancel₀ hne hsize, rfl⟩

/-- A number other than zero has one sign and one size. -/
theorem eq_of_signed_eq {negative negative' : Bool} {p q : Rat} (hp : 0 ≤ p) (hq : 0 ≤ q)
    (hne : signed negative p ≠ 0) (h : signed negative p = signed negative' q) :
  negative = negative' ∧ p = q
  := by
  cases negative with
  | false =>
    cases negative' with
    | false => exact ⟨rfl, h⟩
    | true =>
      have hopposite : p = -q := h
      have hzero : p = 0 := by linarith
      exact absurd hzero hne
  | true =>
    cases negative' with
    | false =>
      have hopposite : -p = q := h
      have hzero : -p = 0 := by linarith
      exact absurd hzero hne
    | true => exact ⟨rfl, neg_injective h⟩

end Binary

namespace Number

theorem position?_infinite_ne (negative : Bool) (q : Rat) :
  (Number.binary (.infinite negative)).position? ≠ some (.ofRat q)
  := by
  rw [position?, Ne, Option.some_inj]
  cases negative with
  | false => exact (ExtendedRat.ofRat_lt_top q).ne'
  | true => exact (ExtendedRat.bot_lt_ofRat q).ne

/-- The two forms of a whole number. -/
theorem eq_of_whole {v : Number} {n : Int} (h : v.position? = some (.ofRat n)) :
  v = .integer n ∨ ∃ b : Binary, v = .binary b ∧ b.toInt? = some n
  := by
  rcases v with m | ⟨negative, m, e, hnormal⟩ | negative | -
  · rw [position?, Option.some_inj, ExtendedRat.ofRat_inj, Int.cast_inj] at h
    rw [h]
    exact Or.inl rfl
  · rw [position?, Option.some_inj, ExtendedRat.ofRat_inj] at h
    refine Or.inr ⟨_, rfl, ?_⟩
    rw [Binary.toInt?, Binary.value?, h]
    rfl
  · exact absurd h (position?_infinite_ne negative n)
  · cases h

/-- The text of a whole number consists of its digits, in whatever form it is. -/
theorem text_of_whole {v : Number} {n : Int} (h : v.position? = some (.ofRat n)) :
  v.text = toString n
  := by
  rcases eq_of_whole h with rfl | ⟨b, rfl, hb⟩
  · rfl
  · rw [text, hb]

/-- A whole number is written if it has few enough digits, in whatever form it is. -/
theorem isWritable_of_whole {v : Number} {n : Int} (h : v.position? = some (.ofRat n)) :
  v.isWritable = Integer.isWritable n
  := by
  rcases eq_of_whole h with rfl | ⟨b, rfl, hb⟩
  · rfl
  · rw [isWritable, hb, Option.all_some]

/-- At a position that is not that of a whole number there is one number only. -/
theorem eq_of_position?_eq {v w : Number} (h : v.position? = w.position?)
    (hwhole : ∀ n : Int, v.position? ≠ some (.ofRat n)) :
  v = w
  := by
  rcases v with m | ⟨negative, m, e, hnormal⟩ | negative | -
  · exact absurd rfl (hwhole m)
  · rcases w with m' | ⟨negative', m', e', hnormal'⟩ | negative' | -
    · exact absurd h (hwhole m')
    · have hne : Binary.signed negative (m * (2 : Rat) ^ e) ≠ 0 := by
        intro hzero
        apply hwhole 0
        rw [position?, hzero, Int.cast_zero]
      have hsize : ∀ (m : Nat) (e : Int), 0 ≤ (m : Rat) * (2 : Rat) ^ e := fun m e =>
        mul_nonneg (Nat.cast_nonneg m) (Rat.zpow_pos (by decide)).le
      rw [position?, position?, Option.some_inj, ExtendedRat.ofRat_inj] at h
      obtain ⟨rfl, hequal⟩ := Binary.eq_of_signed_eq (hsize m e) (hsize m' e') hne h
      obtain ⟨rfl, rfl⟩ := hnormal.eq_of_size_eq hnormal' hequal
      rfl
    · exact absurd h.symm (position?_infinite_ne negative' _)
    · cases h
  · rcases w with m' | ⟨negative', m', e', hnormal'⟩ | negative' | -
    · exact absurd h (position?_infinite_ne negative _)
    · exact absurd h (position?_infinite_ne negative _)
    · cases negative with
      | false =>
        cases negative' with
        | false => rfl
        | true => cases h
      | true =>
        cases negative' with
        | false => cases h
        | true => rfl
    · cases h
  · rw [eq_comm, ← position?_eq_none_iff, ← h]
    rfl

/-- Whether a number is written is determined by its position. -/
theorem isWritable_eq_of_position?_eq {v w : Number} (h : v.position? = w.position?) :
  v.isWritable = w.isWritable
  := by
  by_cases hwhole : ∃ n : Int, v.position? = some (.ofRat n)
  · obtain ⟨n, hn⟩ := hwhole
    rw [isWritable_of_whole hn, isWritable_of_whole (h ▸ hn)]
  · rw [eq_of_position?_eq h (not_exists.mp hwhole)]

/-- The text of a number is determined by its position. -/
theorem text_eq_of_position?_eq {v w : Number} (h : v.position? = w.position?) :
  v.text = w.text
  := by
  by_cases hwhole : ∃ n : Int, v.position? = some (.ofRat n)
  · obtain ⟨n, hn⟩ := hwhole
    rw [text_of_whole hn, text_of_whole (h ▸ hn)]
  · rw [eq_of_position?_eq h (not_exists.mp hwhole)]

end Number

end Verdict
