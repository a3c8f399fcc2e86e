import Verdict.Evaluation.Basic
import Verdict.Proofs.Environment.Writing
import Verdict.Proofs.Program.Canonical
import Verdict.Proofs.Program.Reduction

/-!
# Steps that are written

A comparison shows the value of its variable and the integer that it is compared with, and a test
for a missing value shows the value. Where all these integers have few enough digits, every
comparison and every test is told. The integers of rules that are read always have. -/

namespace Verdict

/-! ### Conditions -/

/-- The integers of rules that can be read are written. -/
theorem IsLiteral.isWritable {n : Int} (h : IsLiteral n) :
  Integer.isWritable n = true
  := by
  obtain ⟨hnonneg, hlength⟩ := isLiteral_iff.mp h
  obtain ⟨m, rfl⟩ := Int.eq_ofNat_of_zero_le hnonneg
  rw [Integer.isWritable, decide_eq_true_iff]
  exact hlength

namespace Condition

/-- All integers of the comparisons of a condition have few enough digits to be written. -/
def IsWritable : Condition → Prop
  | .compare _ _ literal => Integer.isWritable literal = true
  | .missing _ => True
  | .join _ left right => left.IsWritable ∧ right.IsWritable
  | .group inner => inner.IsWritable
  | .alien _ => True

theorem Canonical.isWritable {e : Condition} (h : e.Canonical) :
  e.IsWritable
  := by
  induction e with
  | compare name op literal => apply IsLiteral.isWritable h.2.2
  | missing name => trivial
  | join op left right ihleft ihright => exact ⟨ihleft h.2.1, ihright h.2.2⟩
  | group inner => exact h.elim
  | alien typeName => trivial

theorem isWritable_reduce {e e' : Condition} (h : e.reduce = .ok e') :
  e'.IsWritable ↔ e.IsWritable
  := by
  induction e, e', h using reduce_induction with
  | compare name op literal => rfl
  | missing name => rfl
  | join op l l' r r' hl hr hop ihl ihr h => exact and_congr ihl ihr
  | group e e' h ih => exact ih

end Condition

/-! ### Steps that are told -/

namespace Run

variable {α : Type} {name : String}

theorem tell_compared {r : Relation} {n : Int} {v : Number} (hn : Integer.isWritable n = true)
    (hv : v.isWritable = true) (b : Bool) (a : α) :
  tell (.compared name r n v b) a = say (.compared name r n v b) a
  := by
  simp [tell, Step.fault?, hn, hv]

theorem tell_tested {v : Option Number} (hv : v.all Number.isWritable = true) (b : Bool) (a : α) :
  tell (.tested name v b) a = say (.tested name v b) a
  := by
  simp [tell, Step.fault?, hv]

end Run

namespace Condition

variable {env : Environment} {name : String} {literal : Int}

/-- The comparison of an absent variable is undefined. -/
theorem evaluate_absent (h : env.value? name = none) (hliteral : Integer.isWritable literal = true)
    (op : Operator Relation) :
  (compare name op literal).evaluate env =
    .fail (Fault.undefined name (comparisonText name op literal))
  := by
  rw [evaluate, h]
  simp only [absence, hliteral, if_true]

/-- The comparison of a present variable has a truth value and one step. -/
theorem evaluate_present {v : Number} (h : env.value? name = some v) (hv : v.isWritable = true)
    (r : Relation) (hliteral : Integer.isWritable literal = true) :
  (compare name (.known r) literal).evaluate env =
    .say (.compared name r literal v (v.stands r literal)) (v.stands r literal)
  := by
  rw [evaluate, h]
  apply Run.tell_compared hliteral hv

/-- A test for a missing value has a truth value and one step. -/
theorem evaluate_missing (h : env.IsWritable) (name : String) :
  (missing name).evaluate env =
    .say (.tested name (env.value? name) (isMissing (env.value? name)))
      (isMissing (env.value? name))
  := by
  rw [evaluate]
  apply Run.tell_tested (h.all name)

end Condition

end Verdict
