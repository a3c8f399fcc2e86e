import Verdict.Proofs.Evaluation.Writing
import Verdict.Proofs.Number.Position

/-!
# Comparisons

The comparison of a present variable with an integer tells how the position of its value is ordered
relative to the integer, at every magnitude and in either form of the value. The laws of the order
are therefore laws of comparisons. The value that is no number has no position, and no comparison
with it holds.
-/

namespace Verdict

/-! ### Laws of the order -/

namespace Relation

variable {α : Type} [LinearOrder α]

/-- Of two elements exactly one is less than the other, or they are equal. -/
theorem existsUnique_relates (a b : α) :
  ∃! r : Relation, r ∈ [Relation.lt, .eq, .gt] ∧ r.Relates a b
  := by
  rcases lt_trichotomy a b with h | h | h
  · refine ⟨.lt, ⟨by simp, h⟩, ?_⟩
    rintro r ⟨hmem, hr⟩
    cases r with
    | gt => exact absurd hr h.not_gt
    | ge => simp at hmem
    | lt => rfl
    | le => simp at hmem
    | eq => exact absurd hr h.ne
  · refine ⟨.eq, ⟨by simp, h⟩, ?_⟩
    rintro r ⟨hmem, hr⟩
    cases r with
    | gt => exact absurd hr h.not_gt
    | ge => simp at hmem
    | lt => exact absurd hr h.not_lt
    | le => simp at hmem
    | eq => rfl
  · refine ⟨.gt, ⟨by simp, h⟩, ?_⟩
    rintro r ⟨hmem, hr⟩
    cases r with
    | gt => rfl
    | ge => simp at hmem
    | lt => exact absurd hr h.not_gt
    | le => simp at hmem
    | eq => exact absurd hr h.ne'

theorem relates_ge_iff {a b : α} :
  Relation.ge.Relates a b ↔ ¬ Relation.lt.Relates a b
  := not_lt.symm

theorem relates_le_iff {a b : α} :
  Relation.le.Relates a b ↔ ¬ Relation.gt.Relates a b
  := not_lt.symm

end Relation

/-! ### The evaluation of a comparison -/

namespace Condition

/-- The evaluation of the condition gives the truth value true. -/
def IsSatisfied (env : Environment) (e : Condition) : Prop :=
  (e.evaluate env).result = .ok true

variable {env : Environment} {name : String} {v : Number}

/-- A comparison is satisfied if the position of the value is so ordered relative to the integer. -/
theorem isSatisfied_compare_iff (h : env.value? name = some v) (hv : v.isWritable = true)
    {r : Relation} {n : Int} (hn : Integer.isWritable n = true) :
  (compare name (.known r) n).IsSatisfied env ↔
    ∃ p, v.position? = some p ∧ r.Relates p (.ofRat n)
  := by
  rw [IsSatisfied, evaluate_present h hv r hn, ← Number.stands_iff]
  simp [Run.say]

/-- The comparison of a number at a position is satisfied if the position is so ordered. -/
theorem isSatisfied_compare_of_position {p : ExtendedRat} (h : env.value? name = some v)
    (hv : v.isWritable = true) (hp : v.position? = some p) {r : Relation} {n : Int}
    (hn : Integer.isWritable n = true) :
  (compare name (.known r) n).IsSatisfied env ↔ r.Relates p (.ofRat n)
  := by
  rw [isSatisfied_compare_iff h hv hn, hp]
  simp

/-- The comparison of a present variable with an integer tells the order of the exact value and the
integer, in a single step and at every magnitude, as long as both have few enough digits to be
written. For a number other than the one that is no number, exactly one of `<`, `==` and `>` is
satisfied, `>=` is the negation of `<` and `<=` that of `>`. What is greater than an integer is
greater than all integers up to it, and what is less than an integer is less than all integers from
it on. With the value that is no number nothing is satisfied, and it is not missing. -/
theorem evaluate_compare_exact (h : env.value? name = some v) (hv : v.isWritable = true) :
  (∀ r n, Integer.isWritable n = true →
      ∃ b, (compare name (.known r) n).evaluate env = .say (.compared name r n v b) b
        ∧ (b = true ↔ ∃ p, v.position? = some p ∧ r.Relates p (.ofRat n)))
    ∧ (v ≠ .binary .nan → ∀ n, Integer.isWritable n = true →
      (∃! r : Relation, r ∈ [Relation.lt, .eq, .gt] ∧ (compare name (.known r) n).IsSatisfied env)
        ∧ ((compare name (.known .ge) n).IsSatisfied env ↔
          ¬ (compare name (.known .lt) n).IsSatisfied env)
        ∧ ((compare name (.known .le) n).IsSatisfied env ↔
          ¬ (compare name (.known .gt) n).IsSatisfied env)
        ∧ ((compare name (.known .gt) n).IsSatisfied env →
          ∀ m ≤ n, Integer.isWritable m = true →
            (compare name (.known .gt) m).IsSatisfied env
              ∧ (compare name (.known .ge) m).IsSatisfied env)
        ∧ ((compare name (.known .lt) n).IsSatisfied env →
          ∀ m ≥ n, Integer.isWritable m = true → (compare name (.known .lt) m).IsSatisfied env))
    ∧ (v = .binary .nan →
      (∀ r n, Integer.isWritable n = true →
          (compare name (.known r) n).evaluate env = .say (.compared name r n v false) false)
        ∧ (missing name).evaluate env = .say (.tested name (some v) false) false)
  := by
  refine ⟨?_, ?_, ?_⟩
  · intro r n hn
    exact ⟨v.stands r n, evaluate_present h hv r hn, Number.stands_iff⟩
  · intro hnumber n hn
    obtain ⟨p, hp⟩ := Option.ne_none_iff_exists'.mp (mt Number.position?_eq_none_iff.mp hnumber)
    have horder {r : Relation} {m : Int} (hm : Integer.isWritable m = true) :
        (compare name (.known r) m).IsSatisfied env ↔ r.Relates p (.ofRat m) :=
      isSatisfied_compare_of_position h hv hp hm
    simp only [horder hn]
    refine ⟨Relation.existsUnique_relates _ _, Relation.relates_ge_iff, Relation.relates_le_iff,
      ?_, ?_⟩
    · intro hgt m hm hwritten
      have hless : .ofRat m < p := (ExtendedRat.ofRat_le_of_le hm).trans_lt hgt
      exact ⟨(horder hwritten).mpr hless, (horder hwritten).mpr hless.le⟩
    · intro hlt m hm hwritten
      exact (horder hwritten).mpr (LT.lt.trans_le hlt (ExtendedRat.ofRat_le_of_le hm))
  · rintro rfl
    constructor
    · intro r n hn
      apply evaluate_present h hv r hn
    · rw [evaluate, h]
      rfl

/-- The name `x` is bound to the binary number `2 ^ 53`. -/
def powerBound : Environment :=
  Environment.empty.set "x" (some (.binary (.finite false 4503599627370496 1 (by decide))))

/-- The name `x` is bound to the value that is no number. -/
def nanBound : Environment :=
  Environment.empty.set "x" (some (.binary .nan))

/-- The integer behind `2 ^ 53` is no binary number, and yet the value is less than it. -/
theorem evaluate_compare_exact_powerBound :
  powerBound.value? "x" = some (.binary (.finite false 4503599627370496 1 (by decide)))
    ∧ Integer.isWritable 9007199254740993 = true
    ∧ (compare "x" (.known .lt) 9007199254740993).IsSatisfied powerBound
    ∧ (∀ m ≥ 9007199254740993, Integer.isWritable m = true →
      (compare "x" (.known .lt) m).IsSatisfied powerBound)
    ∧ ¬ (compare "x" (.known .ge) 9007199254740993).IsSatisfied powerBound
    ∧ nanBound.value? "x" = some (.binary .nan)
    ∧ (missing "x").evaluate nanBound = .say (.tested "x" (some (.binary .nan)) false) false
  := by
  have h : powerBound.value? "x" =
      some (.binary (.finite false 4503599627370496 1 (by decide))) := by rfl
  have hnan : nanBound.value? "x" = some (.binary .nan) := by rfl
  have hwritten : Integer.isWritable 9007199254740993 = true := by decide +kernel
  obtain ⟨-, hnumber, -⟩ := evaluate_compare_exact h (Number.isWritable_binary _)
  obtain ⟨-, hge, -, -, hlt⟩ := hnumber (by simp) 9007199254740993 hwritten
  obtain ⟨-, -, hno⟩ := evaluate_compare_exact hnan (Number.isWritable_binary _)
  have hless : (compare "x" (.known .lt) 9007199254740993).IsSatisfied powerBound := by
    rw [IsSatisfied]
    decide +kernel
  exact ⟨h, hwritten, hless, hlt hless, fun hle => hge.mp hle hless, hnan, (hno rfl).2⟩

end Condition

end Verdict
