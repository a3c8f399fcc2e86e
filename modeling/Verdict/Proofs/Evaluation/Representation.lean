import Verdict.Proofs.Evaluation.FirstFault
import Verdict.Proofs.Number.Position

/-!
# Forms of numbers

A number that is both an integer and a binary number can be given in either form, and zero has two
binary forms. An evaluation does not tell the forms apart. It compares positions, tests them against
the codes for a missing value, and writes numbers by their positions; so environments that bind the
same names at the same positions lead to the same lines and to the same result.
-/

namespace Verdict

/-- Every name has values at the same position in both environments, or in both none. -/
def Environment.SamePositions (env env' : Environment) : Prop :=
  ∀ x, (env.value? x).map Number.position? = (env'.value? x).map Number.position?

/-! ### Uses of a value -/

theorem Number.stands_eq_of_position?_eq {v w : Number} (h : v.position? = w.position?)
    (r : Relation) (n : Int) :
  v.stands r n = w.stands r n
  := by
  rw [stands_eq, stands_eq, h]

/-- What is the same for numbers at the same position is the same for values that are both absent or
both at the same position. -/
theorem Number.congr_of_map_eq {β : Type} (f : Option Number → β)
    (hf : ∀ v w : Number, v.position? = w.position? → f (some v) = f (some w))
    {v w : Option Number} (h : v.map position? = w.map position?) :
  f v = f w
  := by
  cases v with
  | none =>
    rw [Option.map_none, eq_comm, Option.map_eq_none_iff] at h
    rw [h]
  | some v =>
    obtain ⟨w, rfl, hposition⟩ := Option.map_eq_some_iff.mp h.symm
    apply hf v w hposition.symm

/-- Values at the same position are missing together. -/
theorem isMissing_eq_of_map_eq {v w : Option Number}
    (h : v.map Number.position? = w.map Number.position?) :
  isMissing v = isMissing w
  := by
  apply Number.congr_of_map_eq isMissing _ h
  intro v w hposition
  simp only [isMissing, Number.stands_eq_of_position?_eq hposition]

/-- Values at the same position are written together. -/
theorem isWritable_eq_of_map_eq {v w : Option Number}
    (h : v.map Number.position? = w.map Number.position?) :
  v.all Number.isWritable = w.all Number.isWritable
  := by
  apply Number.congr_of_map_eq (Option.all Number.isWritable) _ h
  intro v w hposition
  exact Number.isWritable_eq_of_position?_eq hposition

/-- Values at the same position are shown in the same way. -/
theorem Step.shown_eq_of_map_eq {v w : Option Number}
    (h : v.map Number.position? = w.map Number.position?) :
  shown v = shown w
  := by
  apply Number.congr_of_map_eq shown _ h
  intro v w hposition
  exact Number.text_eq_of_position?_eq hposition

/-- A comparison has the same line for values with the same text. -/
theorem Step.text_compared_congr {v w : Number} (h : v.text = w.text) (name : String)
    (r : Relation) (literal : Int) (result : Bool) :
  (compared name r literal v result).text = (compared name r literal w result).text
  := by
  have hline : ∀ v : Number, (compared name r literal v result).text =
      name ++ (" " ++ r.text ++ " " ++ toString literal) ++ ": " ++ v.text ++
        (" " ++ r.text ++ " " ++ toString literal) ++ " = " ++ verdictText result := fun _ => rfl
  rw [hline, hline, h]

/-- A test for a missing value has the same line for values that are shown in the same way. -/
theorem Step.text_tested_congr {v w : Option Number} (h : shown v = shown w) (name : String)
    (result : Bool) :
  (tested name v result).text = (tested name w result).text
  := by
  have hline : ∀ v, (tested name v result).text =
      "IS-MISSING(" ++ name ++ "): " ++ shown v ++ " = " ++ verdictText result := fun _ => rfl
  rw [hline, hline, h]

/-! ### Runs that look alike -/

/-- Two runs have the same lines and the same result. -/
structure Run.LooksLike {α : Type} (x y : Run α) : Prop where
  lines_eq : x.lines = y.lines
  result_eq : x.result = y.result

namespace Run.LooksLike

variable {α β : Type}

theorem refl (x : Run α) :
  x.LooksLike x
  := ⟨rfl, rfl⟩

/-- Steps with the same line look alike. -/
theorem say {s t : Step} (h : s.text = t.text) (a : α) :
  (Run.say s a).LooksLike (.say t a)
  := ⟨congrArg (fun line => [line]) h, rfl⟩

/-- Steps with the same line look alike when they are told, if they fail in the same way. -/
theorem tell {s t : Step} (h : s.text = t.text) (hfault : s.fault? = t.fault?) (a : α) :
  (Run.tell s a).LooksLike (.tell t a)
  := by
  rw [Run.tell, Run.tell, hfault]
  cases t.fault? with
  | none => apply say h
  | some f => apply refl

/-- Runs that look alike, and then runs that look alike, look alike together. -/
theorem bind {x y : Run α} (h : x.LooksLike y) {f g : α → Run β}
    (hcontinue : ∀ a, (f a).LooksLike (g a)) :
  (x.bind f).LooksLike (y.bind g)
  := by
  rcases x with ⟨steps, result⟩
  rcases y with ⟨steps', result'⟩
  obtain ⟨hlines, rfl⟩ := h
  cases result with
  | error e => exact ⟨hlines, rfl⟩
  | ok a =>
    constructor
    · rw [lines, lines, bind_ok, bind_ok, List.map_append, List.map_append]
      exact congrArg₂ _ hlines (hcontinue a).lines_eq
    · exact (hcontinue a).result_eq

end Run.LooksLike

/-! ### Evaluation -/

section

variable {env env' : Environment} (h : env.SamePositions env')
include h

/-- A comparison looks alike in both environments. -/
theorem Condition.looksLike_compare (name : String) (op : Operator Relation) (literal : Int) :
  ((compare name op literal).evaluate env).LooksLike ((compare name op literal).evaluate env')
  := by
  have hname := h name
  rw [evaluate, evaluate]
  cases hv : env.value? name with
  | none =>
    rw [hv] at hname
    rw [Option.map_eq_none_iff.mp hname.symm]
    apply Run.LooksLike.refl
  | some v =>
    rw [hv] at hname
    obtain ⟨w, hw, hposition⟩ := Option.map_eq_some_iff.mp hname.symm
    rw [hw]
    cases op with
    | foreign text => apply Run.LooksLike.refl
    | known r =>
      simp only [Number.stands_eq_of_position?_eq hposition.symm r literal]
      apply Run.LooksLike.tell
      · apply Step.text_compared_congr
        apply Number.text_eq_of_position?_eq hposition.symm
      · rw [Step.fault?, Step.fault?, Number.isWritable_eq_of_position?_eq hposition]

/-- The evaluation of a condition looks alike in both environments. -/
theorem Condition.looksLike_evaluate (e : Condition) :
  (e.evaluate env).LooksLike (e.evaluate env')
  := by
  induction e with
  | compare name op literal => apply looksLike_compare h
  | missing name =>
    rw [evaluate, evaluate, isMissing_eq_of_map_eq (h name)]
    apply Run.LooksLike.tell
    · apply Step.text_tested_congr
      apply Step.shown_eq_of_map_eq (h name)
    · rw [Step.fault?, Step.fault?, isWritable_eq_of_map_eq (h name)]
  | join op left right ihleft ihright =>
    apply ihleft.bind
    intro b
    cases op with
    | foreign text => apply Run.LooksLike.refl
    | known c =>
      by_cases hb : b = c.deciding
      · simp only [if_pos hb]
        apply Run.LooksLike.refl
      · simp only [if_neg hb]
        exact ihright
  | group inner => apply Run.LooksLike.refl
  | alien typeName => apply Run.LooksLike.refl

/-- The evaluation of clauses looks alike in both environments. -/
theorem looksLike_evaluateClauses (cs : List Clause) (index : Nat) :
  (evaluateClauses env index cs).LooksLike (evaluateClauses env' index cs)
  := by
  induction cs generalizing index with
  | nil => apply Run.LooksLike.refl
  | cons c cs ih =>
    have hclause : (c.evaluate env index).LooksLike (c.evaluate env' index) := by
      apply Run.LooksLike.bind (.refl _)
      intro value
      apply Run.LooksLike.bind (Condition.looksLike_evaluate h c.condition)
      intro matched
      apply Run.LooksLike.refl
    apply hclause.bind
    intro o
    apply (ih (index + 1)).bind
    intro os
    apply Run.LooksLike.refl

/-- The form of a number makes no difference to an evaluation. In environments that have values for
the same names, each at the same position, a program has the same lines, and the same decision or
the same failure. -/
theorem Program.evaluate_of_samePositions (p : Program) :
  (p.evaluate env).lines = (p.evaluate env').lines
    ∧ (p.evaluate env).result = (p.evaluate env').result
  := by
  have hrun : (p.evaluate env).LooksLike (p.evaluate env') := by
    apply Run.LooksLike.bind (.refl _)
    intro q
    apply (looksLike_evaluateClauses h q.clauses 0).bind
    intro outcomes
    apply Run.LooksLike.refl
  exact ⟨hrun.lines_eq, hrun.result_eq⟩

end

/-- The name `a` has the value zero and `b` the binary number nearest to `10 ^ 23`, as integers. -/
def integerBound : Environment :=
  (Environment.empty.set "b" (some (.integer 99999999999999991611392))).set "a"
    (some (.integer 0))

/-- The same values in binary form, zero with a minus sign. -/
def binaryBound : Environment :=
  (Environment.empty.set "b" (some (.binary (.finite false 5960464477539062 24 (by decide))))).set
    "a" (some (.binary (.zero true)))

theorem Program.evaluate_of_samePositions_binaryBound :
  binaryBound.SamePositions integerBound
    ∧ (eitherProgram.evaluate binaryBound).lines = (eitherProgram.evaluate integerBound).lines
    ∧ (eitherProgram.evaluate binaryBound).result = (eitherProgram.evaluate integerBound).result
  := by
  have h : binaryBound.SamePositions integerBound := by
    intro x
    simp only [binaryBound, integerBound, Environment.value?_set]
    by_cases ha : x = "a"
    · simp [ha, Number.position?, Binary.zero, Binary.signed]
    · by_cases hb : x = "b"
      · rw [if_neg ha, if_neg ha, if_pos hb, if_pos hb, Option.map_some, Option.map_some,
          Number.position?, Number.position?, Binary.signed]
        norm_num
      · simp [ha, hb]
  exact ⟨h, eitherProgram.evaluate_of_samePositions h⟩

end Verdict
