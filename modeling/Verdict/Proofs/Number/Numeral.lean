import Mathlib.Algebra.Group.Nat.Defs
import Mathlib.Data.List.Basic
import Mathlib.Data.List.Induction
import Mathlib.Data.List.TakeWhile
import Mathlib.Tactic.Use
import Verdict.Number.Integer
import Verdict.Token.Lexer

/-!
# Numerals

A numeral is a nonempty text of the ten digits of numbers in rules. `Integer.read` reads a
numeral of at most `Integer.maxDigits` digits as the number that the digits write, and refuses
a longer one because of its length. Every number that is not negative is written by a numeral, and
the numbers below a power of ten are those with a numeral of no more digits than the exponent.
-/

namespace Verdict

open Text

/-- The text is a numeral: one or more of the ten digits of numbers in rules. -/
def IsNumeral (s : List Char) : Prop :=
  s ≠ [] ∧ ∀ c ∈ s, isNumeral c = true

instance (s : List Char) : Decidable (IsNumeral s) :=
  have := List.decidableBAll (isNumeral · = true) s
  inferInstanceAs (Decidable (s ≠ [] ∧ ∀ c ∈ s, isNumeral c = true))

/-! ### The digits of a numeral -/

/-- The code points of the ten digits. -/
theorem isNumeral_iff {c : Char} :
  isNumeral c = true ↔ 48 ≤ c.toNat ∧ c.toNat ≤ 57
  := by
  simp only [isNumeral, Bool.and_eq_true, decide_eq_true_eq, Char.le_def, UInt32.le_iff_toNat_le]
  rfl

/-- The value of a digit is its distance from zero. -/
theorem digitValue?_of_isNumeral {c : Char} (h : isNumeral c = true) :
  digitValue? c = some (c.toNat - 48)
  := by
  obtain ⟨hlow, hhigh⟩ := isNumeral_iff.mp h
  have hlt : c.toNat < 48 + 10 := by omega
  simp [digitValue?, digitZeros, hlow, hlt]

theorem isDigit_of_isNumeral {c : Char} (h : isNumeral c = true) :
  isDigit c = true
  := by
  rw [isDigit, digitValue?_of_isNumeral h, Option.isSome_some]

/-- Digits of any script are no white space. -/
theorem isBlank_of_isDigit {c : Char} (h : isDigit c = true) :
  isBlank c = false
  := by
  have happart : ∀ z ∈ digitZeros, ∀ r ∈ blankRanges, z + 10 ≤ r.1 ∨ r.2 < z := by decide
  rw [isDigit, digitValue?, Option.isSome_map] at h
  obtain ⟨z, hfind⟩ := Option.isSome_iff_exists.mp h
  have hzero := List.find?_some hfind
  simp only [Bool.and_eq_true, decide_eq_true_eq] at hzero
  rw [isBlank, List.any_eq_false]
  intro r hr
  simp only [Bool.and_eq_true, decide_eq_true_eq]
  have hranges := happart z (List.mem_of_find?_eq_some hfind) r hr
  omega

theorem isBlank_of_isNumeral {c : Char} (h : isNumeral c = true) :
  isBlank c = false
  := isBlank_of_isDigit (isDigit_of_isNumeral h)

theorem isPadding_eq_false_of_isNumeral {c : Char} (h : isNumeral c = true) :
  Integer.isPadding c = false
  := by
  simp [Integer.isPadding, isBlank_of_isNumeral h]

/-- A character of a class is none of those outside of it. -/
theorem ne_of_class {p : Char → Bool} {c d : Char} (h : p c = true) (hd : p d = false) :
  c ≠ d
  := by
  apply ne_of_apply_ne p
  rw [h, hd]
  decide

/-! ### Reading a numeral -/

theorem isGrouped_of_isDigit {afterDigit : Bool} {s : List Char} (h : ∀ c ∈ s, isDigit c = true) :
  Integer.isGrouped afterDigit s = (afterDigit || !s.isEmpty)
  := by
  induction s generalizing afterDigit with
  | nil => simp [Integer.isGrouped]
  | cons c cs ih =>
    have hc : c ≠ '_' := ne_of_class (h c List.mem_cons_self) rfl
    rw [Integer.isGrouped, if_neg hc, ih fun d hd => h d (List.mem_cons_of_mem c hd)]
    simp

/-- A text of digits has as many digit values as characters. -/
theorem length_filterMap_digitValue? {s : List Char} (h : ∀ c ∈ s, isDigit c = true) :
  (s.filterMap digitValue?).length = s.length
  := by
  induction s with
  | nil => rfl
  | cons c cs ih =>
    obtain ⟨d, hd⟩ := Option.isSome_iff_exists.mp (h c List.mem_cons_self)
    rw [List.filterMap_cons_some hd, List.length_cons, List.length_cons,
      ih fun d hd => h d (List.mem_cons_of_mem c hd)]

/-- What is read of digits behind a sign, or without one: the number that they write, unless they
are too many. -/
theorem Integer.read_digits {text : String} {negative : Bool} {s : List Char}
    (hsplit : splitSign (text.toList.dropWhile isPadding) = (negative, s)) (hne : s ≠ [])
    (h : ∀ c ∈ s, isDigit c = true) :
  Integer.read text =
    if maxDigits < s.length then
      .error (.tooLong s.length)
    else
      .ok (signed negative (ofDigitChars s))
  := by
  have hrun : ∀ c ∈ s, isRunChar c = true := fun c hc => by simp [isRunChar, h c hc]
  have htake : s.takeWhile isRunChar = s := List.takeWhile_eq_self_iff.mpr hrun
  have hdrop : s.dropWhile isRunChar = [] := List.dropWhile_eq_nil_iff.mpr hrun
  have hgrouped : isGrouped false s = true := by
    rw [isGrouped_of_isDigit h]
    simpa using hne
  simp only [read, hsplit, htake, hdrop, hgrouped, length_filterMap_digitValue? h]
  rfl

/-- A numeral has neither padding nor a sign. -/
theorem splitSign_dropWhile_isPadding {s : List Char} (h : IsNumeral s) :
  Integer.splitSign (s.dropWhile Integer.isPadding) = (false, s)
  := by
  obtain ⟨hne, hdigits⟩ := h
  cases s with
  | nil => exact absurd rfl hne
  | cons c cs =>
    have hc := hdigits c List.mem_cons_self
    have hminus : c ≠ '-' := ne_of_class hc rfl
    have hplus : c ≠ '+' := ne_of_class hc rfl
    rw [List.dropWhile_cons_of_neg (by simp [isPadding_eq_false_of_isNumeral hc])]
    unfold Integer.splitSign
    split
    · next heq => exact absurd (List.cons.inj heq).1 hminus
    · next heq => exact absurd (List.cons.inj heq).1 hplus
    · rfl

/-- What is read of a numeral: the number that its digits write, unless it is too long. -/
theorem Integer.read_numeral {s : String} (h : IsNumeral s.toList) :
  Integer.read s =
    if maxDigits < s.length then
      .error (.tooLong s.length)
    else
      .ok (ofDigitChars s.toList)
  := by
  rw [read_digits (splitSign_dropWhile_isPadding h) h.1 fun c hc => isDigit_of_isNumeral (h.2 c hc)]
  rfl

/-! ### Writing a number -/

/-- The number that digits write is formed from their distances from zero. -/
theorem ofDigitChars_eq {s : List Char} (h : ∀ c ∈ s, isNumeral c = true) :
  ofDigitChars s = Nat.ofDigitChars 10 s 0
  := by
  rw [ofDigitChars, ofDigits, List.foldl_filterMap, Nat.ofDigitChars_eq_foldl]
  apply List.foldl_ext
  intro n c hc
  rw [digitValue?_of_isNumeral (h c hc)]
  rfl

/-- Values of digits write a number below the power of ten of their count. -/
theorem ofDigits_lt {ds : List Nat} (h : ∀ d ∈ ds, d < 10) :
  ofDigits ds < 10 ^ ds.length
  := by
  induction ds using List.reverseRecOn with
  | nil => decide
  | append_singleton ds d ih =>
    rw [List.forall_mem_append, List.forall_mem_singleton] at h
    have hlt := ih h.1
    have hd := h.2
    rw [ofDigits] at hlt ⊢
    rw [List.foldl_concat, List.length_append, List.length_singleton, Nat.pow_succ]
    omega

/-- The digits of a text write a number below the power of ten of their count. -/
theorem ofDigitChars_lt (s : List Char) :
  ofDigitChars s < 10 ^ (s.filterMap digitValue?).length
  := by
  apply ofDigits_lt
  intro d hd
  obtain ⟨c, -, hc⟩ := List.mem_filterMap.mp hd
  apply digitValue?_lt hc

/-- The digits of a number make a numeral. -/
theorem isNumeral_toDigits (n : Nat) :
  IsNumeral (Nat.toDigits 10 n)
  := by
  use Nat.toDigits_ne_nil
  intro c hc
  have hdigit := Nat.isDigit_of_mem_toDigits (by decide) (by decide) hc
  rw [Char.isDigit, Bool.and_eq_true, decide_eq_true_eq, decide_eq_true_eq] at hdigit
  rw [isNumeral_iff]
  exact hdigit

/-- The digits of a number write it. -/
theorem ofDigitChars_toDigits (n : Nat) :
  ofDigitChars (Nat.toDigits 10 n) = n
  := by
  rw [ofDigitChars_eq (isNumeral_toDigits n).2, Nat.ofDigitChars_ten_toDigits]

/-- The text of a number that is not negative consists of its digits. -/
theorem toList_toString_of_nonneg {n : Int} (h : 0 ≤ n) :
  (toString n).toList = Nat.toDigits 10 n.toNat
  := by
  obtain ⟨m, rfl⟩ := Int.eq_ofNat_of_zero_le h
  change (toString m).toList = _
  rw [Nat.toString_eq_ofList_toDigits, String.toList_ofList, Int.toNat_natCast]

end Verdict
