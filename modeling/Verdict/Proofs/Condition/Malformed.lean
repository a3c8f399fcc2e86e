import Verdict.Proofs.Condition.Walk
import Verdict.Proofs.Evaluation.FirstFault

/-!
# Malformed conditions

A condition put together by hand may hold values that are no conditions, connectives that are
unknown, and comparisons with an unknown operator. The first two are found when groups are removed:
the reduction fails if and only if there is such a part anywhere, also where no evaluation would
come, and reports the first one in post-order. What is left can fail in two ways only, both at a
comparison that is reached: its variable is absent, or its operator is unknown.
-/

namespace Verdict

/-- A text names a connective if it is one of the two spellings. -/
theorem Connective.isKnown_ofText_iff (s : String) :
  (Operator.ofText ofText? s).isKnown = true ↔ s = and.text ∨ s = or.text
  := by
  rw [Operator.ofText]
  cases hnamed : ofText? s with
  | some c =>
    have htext : c.text = s := by simpa using List.find?_some hnamed
    subst htext
    cases c with
    | and => simp [Operator.isKnown]
    | or => simp [Operator.isKnown]
  | none =>
    have hnone : ∀ c ∈ [Connective.and, .or], ¬ c.text = s := by
      simpa using List.find?_eq_none.mp hnamed
    have hand := hnone .and (by simp)
    have hor := hnone .or (by simp)
    simp [Operator.isKnown, Ne.symm hand, Ne.symm hor]

namespace Condition

/-- The parts of a condition in post-order: the parts of the left side, those of the right side, and
then the whole. -/
def postOrder : Condition → List Condition
  | .join op left right => left.postOrder ++ right.postOrder ++ [.join op left right]
  | .group inner => inner.postOrder ++ [.group inner]
  | e => [e]

/-- What is wrong with a part, apart from its own parts: it is no condition, or a connective is
unknown. -/
def malformation? : Condition → Option Failure
  | .alien typeName => some (Fault.malformed (.alien typeName))
  | .join op _ _ => if op.isKnown then none else some .invalid
  | _ => none

/-- Removing groups fails at the first malformed part in post-order. -/
theorem of?_reduce (e : Condition) :
  Failure.of? e.reduce = e.postOrder.findSome? malformation?
  := by
  induction e with
  | compare | missing | alien => rfl
  | join op left right ihleft ihright =>
    rw [postOrder, List.findSome?_append, List.findSome?_append, ← ihleft, ← ihright, reduce]
    cases left.reduce with
    | error f => rfl
    | ok l =>
      cases right.reduce with
      | error f => rfl
      | ok r =>
        cases op with
        | known c => rfl
        | foreign text => rfl
  | group inner ih =>
    have hself : [group inner].findSome? malformation? = none := rfl
    rw [postOrder, List.findSome?_append, hself, Option.or_none]
    exact ih

theorem reduce_eq_error_iff {e : Condition} {f : Failure} :
  e.reduce = .error f ↔ e.postOrder.findSome? malformation? = some f
  := by
  rw [← of?_reduce]
  cases e.reduce with
  | error f' => simp [Failure.of?]
  | ok e' => simp [Failure.of?]

/-- A part is malformed if it is no condition, or a connective that is unknown. -/
theorem malformation?_ne_none_iff {d : Condition} :
  d.malformation? ≠ none ↔
    (∃ typeName, d = .alien typeName)
      ∨ ∃ op left right, d = .join op left right ∧ op.isKnown = false
  := by
  cases d with
  | compare | missing | group => simp [malformation?]
  | join op left right =>
    cases op with
    | known c => simp [malformation?, Operator.isKnown]
    | foreign text => simp [malformation?, Operator.isKnown]
  | alien typeName => simp [malformation?]

/-- Removing groups fails if and only if a part is malformed. -/
theorem exists_reduce_eq_error_iff {e : Condition} :
  (∃ f, e.reduce = .error f) ↔ ∃ d ∈ e.postOrder, d.malformation? ≠ none
  := by
  simp only [reduce_eq_error_iff, ← Option.isSome_iff_exists, List.isSome_findSome?,
    List.any_eq_true, Option.isSome_iff_ne_none]

end Condition

/-- The two ways in which a comparison can be at fault. -/
theorem Comparison.of_fault? {env : Environment} {c : Comparison} {f : Failure}
    (h : c.fault? env = some f) :
  env.value? c.name = none ∧ f = c.undefined
    ∨ (∃ v, env.value? c.name = some v)
      ∧ ∃ text, c.op = .foreign text ∧ f = Fault.malformed (.relation text)
  := by
  obtain ⟨name, op, literal⟩ := c
  rw [fault?] at h
  cases hvalue : env.value? name with
  | none =>
    simp only [hvalue] at h
    exact Or.inl ⟨rfl, (Option.some.inj h).symm⟩
  | some v =>
    cases op with
    | known r => simp [hvalue] at h
    | foreign text =>
      simp only [hvalue] at h
      exact Or.inr ⟨⟨v, rfl⟩, text, rfl, (Option.some.inj h).symm⟩

/-- The groups of a condition that has been put together in any way can be removed, by recursion or
step by step, unless a part is no condition or a connective that is neither of the two known ones,
and the first such part in post-order is reported. When they have been removed, the evaluation
gives a value unless a comparison that is reached has a fault, as long as all integers have few
enough digits to be written. It fails with that of the first one: the variable is absent, or else it
is present and the operator is unknown. -/
theorem Condition.reduce_gate :
  (∀ s, (Operator.ofText Connective.ofText? s).isKnown = true ↔ s = "AND" ∨ s = "OR")
    ∧ (∀ e : Condition,
        ((∃ f, e.reduce = .error f) ↔ ∃ d ∈ e.postOrder, (∃ typeName, d = .alien typeName)
            ∨ ∃ op left right, d = .join op left right ∧ op.isKnown = false)
          ∧ (∀ f, e.reduce = .error f ↔ e.postOrder.findSome? malformation? = some f)
          ∧ ∀ f, (Walk.start e).steps e.size = .error f ↔ e.reduce = .error f)
    ∧ ∀ e e' : Condition, e.reduce = .ok e' → e.IsWritable → ∀ env : Environment, env.IsWritable →
        match (e'.comparisons env).findSome? (Comparison.fault? env) with
        | none => (e'.evaluate env).result = .ok (e'.holds env)
        | some f => (e'.evaluate env).result = .error f
            ∧ ∃ c ∈ e'.comparisons env, env.value? c.name = none ∧ f = c.undefined
              ∨ (∃ v, env.value? c.name = some v)
                ∧ ∃ text, c.op = .foreign text ∧ f = Fault.malformed (.relation text)
  := by
  refine ⟨Connective.isKnown_ofText_iff, ?_, ?_⟩
  · intro e
    refine ⟨?_, fun f => reduce_eq_error_iff, ?_⟩
    · simp only [exists_reduce_eq_error_iff, malformation?_ne_none_iff]
    · intro f
      rw [Walk.steps_start]
      cases e.reduce with
      | error f' => simp [Except.map]
      | ok e' => simp [Except.map]
  · intro e e' h hwritable env henv
    have hresult := (reducible_of_reduce h).evaluate_result (groupFree_reduce h)
      ((isWritable_reduce h).mpr hwritable) henv
    cases hfirst : (e'.comparisons env).findSome? (Comparison.fault? env) with
    | none =>
      rw [hfirst] at hresult
      exact hresult
    | some f =>
      rw [hfirst] at hresult
      obtain ⟨c, hc, hfault⟩ := List.exists_of_findSome?_eq_some hfirst
      exact ⟨hresult, c, hc, Comparison.of_fault? hfault⟩

/-- A connective that is unknown, with a number in the place of its right side. -/
def mixedFaults : Condition :=
  .join (.known .and) (.missing "x") (.join (.foreign "XOR") (.missing "y") (.group (.alien "int")))

/-- A comparison with an unknown operator and a negative integer, in front of another one. -/
def oddComparison : Condition :=
  .join (.known .or) (.compare "x" (.foreign "!=") (-1)) (.compare "y" (.known .gt) 0)

/-- The value that is no condition stands in front of the connective in post-order. The odd
comparison is kept, and fails in one way or the other. -/
theorem Condition.reduce_gate_mixedFaults :
  ((∃ f, mixedFaults.reduce = .error f)
      ∧ mixedFaults.reduce = .error (Fault.malformed (.alien "int"))
      ∧ (Walk.start mixedFaults).steps mixedFaults.size =
        .error (Fault.malformed (.alien "int")))
    ∧ (group oddComparison).reduce = .ok oddComparison
    ∧ (oddComparison.evaluate .empty).result = .error (Fault.undefined "x" "x != -1")
    ∧ ∀ v : Number, v.isWritable = true →
      (oddComparison.evaluate (Environment.empty.set "x" (some v))).result =
        .error (Fault.malformed (.relation "!="))
  := by
  obtain ⟨-, hreduce, hevaluate⟩ := reduce_gate
  obtain ⟨hfails, hfirst, hwalk⟩ := hreduce mixedFaults
  have halien := (hfirst (Fault.malformed (.alien "int"))).mpr rfl
  have hodd : (group oddComparison).reduce = .ok oddComparison := rfl
  have hwritable : (group oddComparison).IsWritable := ⟨rfl, rfl⟩
  refine ⟨⟨?_, halien, (hwalk _).mpr halien⟩, hodd, ?_, ?_⟩
  · apply hfails.mpr
    exact ⟨.alien "int", by decide, Or.inl ⟨"int", rfl⟩⟩
  · apply (hevaluate _ _ hodd hwritable .empty Environment.isWritable_empty).1
  · intro v hv
    have henv : (Environment.empty.set "x" (some v)).IsWritable :=
      Environment.isWritable_empty.set_some hv
    apply (hevaluate _ _ hodd hwritable _ henv).1

end Verdict
