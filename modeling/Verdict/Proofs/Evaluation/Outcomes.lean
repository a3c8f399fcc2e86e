import Mathlib.Data.List.Forall2
import Mathlib.Tactic.Use
import Verdict.Proofs.Evaluation.Absence
import Verdict.Proofs.Failure.Causes

/-!
# Outcomes

When a program makes a decision, there is an outcome for each of its clauses: whether the condition
of the clause holds without its groups, and the number that it returns. Of the clauses whose
condition holds the last one is selected, and the last clause of the program if there is none. The
selection is the one step that tells of the decision.
-/

namespace Verdict

/-! ### Runs -/

/-- What a value determines goes on behind the steps before it. -/
theorem Run.bind_ok {α β : Type} (steps : List Step) (a : α) (f : α → Run β) :
  Run.bind ⟨steps, .ok a⟩ f = ⟨steps ++ (f a).steps, (f a).result⟩
  := rfl

/-- A run that goes on to a value has one itself. -/
theorem Run.exists_of_bind_eq_ok {α β : Type} {x : Run α} {k : α → Run β} {b : β}
    (h : (x.bind k).result = .ok b) :
  ∃ a, x.result = .ok a ∧ (k a).result = .ok b
  := by
  rw [result_bind] at h
  apply Verdict.exists_of_bind_eq_ok h

/-- A condition is evaluated without its groups. -/
def Condition.run (env : Environment) (e : Condition) : Run Bool :=
  (Run.ofExcept e.reduce).bind (Condition.evaluate env)

/-- A condition that has its groups removed is evaluated without them. -/
theorem Condition.run_of_reduce {e e' : Condition} (h : e.reduce = .ok e') (env : Environment) :
  e.run env = e'.evaluate env
  := by
  rw [run, h]
  cases hresult : (e'.evaluate env).result with
  | ok b => simp [Run.bind, Run.ofExcept]
  | error f => simp [Run.bind, Run.ofExcept]

/-! ### Outcomes -/

/-- The outcome is that of the clause at the given place: whether its condition holds, and the
number that it returns. -/
structure Outcome.Tells (env : Environment) (place : Nat) (c : Clause) (o : Outcome) : Prop where
  index : o.index = place
  matched : (c.condition.run env).result = .ok o.matched
  value : c.result.evaluate = .ok o.value

/-- The last clause returns the number. -/
def Otherwise.Returns (o : Otherwise) (n : Int) : Prop :=
  clauseValue .elseWord o.keyword o.result = .ok n

namespace Decision

/-- The decision is that of the last outcome whose condition holds, and where there is none, the
number of the last clause. -/
def Selects (d : Decision) (otherwise : Int) : Prop :=
  match d.selected with
  | some i =>
    (∃ o, d.outcomes[i]? = some o ∧ o.matched = true ∧ d.value = o.value)
      ∧ ∀ j o, i < j → d.outcomes[j]? = some o → o.matched = false
  | none => (∀ o ∈ d.outcomes, o.matched = false) ∧ d.value = otherwise

/-- The step that tells which clause is selected. -/
def selection (d : Decision) : Step :=
  match d.selected with
  | some i => .selected i d.value
  | none => .otherwise d.value

/-- The line that tells which clause is selected. -/
def selectionLine (d : Decision) : String :=
  match d.selected with
  | some i => "selected IF #" ++ toString i ++ " -> " ++ toString d.value
  | none => "selected ELSE -> " ++ toString d.value

theorem text_selection (d : Decision) :
  d.selection.text = d.selectionLine
  := by
  rw [selection, selectionLine]
  cases d.selected with
  | some i => rfl
  | none => rfl

/-- A decision is made in one step. -/
theorem exists_ofOutcomes_eq (os : List Outcome) (otherwise : Int) :
  ∃ d, ofOutcomes os otherwise = ⟨[d.selection], .ok d⟩
  := by
  rw [ofOutcomes]
  cases os.reverse.find? (·.matched) with
  | some o => exact ⟨⟨o.value, some o.index, os⟩, rfl⟩
  | none => exact ⟨⟨otherwise, none, os⟩, rfl⟩

end Decision

theorem return_of_clauseValue {k : Keyword} {keyword : Token} {result : Return} {n : Int}
    (h : clauseValue k keyword result = .ok n) :
  k.check keyword = .ok () ∧ result.evaluate = .ok n
  := by
  rw [clauseValue] at h
  cases hcheck : k.check keyword with
  | error f => simp [hcheck] at h
  | ok _ =>
    rw [hcheck] at h
    exact ⟨rfl, h⟩

theorem Clause.tells_of_evaluate {c k : Clause} (h : c.ReducesTo k) {env : Environment}
    {index : Nat} {o : Outcome} (ho : (k.evaluate env index).result = .ok o) :
  o.Tells env index c
  := by
  rw [evaluate, h.keyword, h.result, ← Condition.run_of_reduce h.condition] at ho
  obtain ⟨n, hvalue, ho⟩ := Run.exists_of_bind_eq_ok ho
  obtain ⟨b, hmatched, ho⟩ := Run.exists_of_bind_eq_ok ho
  cases ho
  exact ⟨rfl, hmatched, (return_of_clauseValue hvalue).2⟩

/-- There is one outcome for each clause, in the order of the clauses. -/
theorem tells_of_evaluateClauses {cs ks : List Clause} (h : List.Forall₂ Clause.ReducesTo cs ks)
    {env : Environment} {index : Nat} {os : List Outcome}
    (hos : (evaluateClauses env index ks).result = .ok os) :
  List.Forall₂ (fun c o => o.Tells env c.2 c.1) (cs.zipIdx index) os
  := by
  induction h generalizing index os with
  | nil =>
    cases hos
    exact .nil
  | @cons c k cs ks hc _ ih =>
    obtain ⟨o, ho, hos⟩ := Run.exists_of_bind_eq_ok hos
    obtain ⟨os', hos', hos⟩ := Run.exists_of_bind_eq_ok hos
    cases hos
    rw [List.zipIdx_cons]
    apply List.Forall₂.cons
    · apply Clause.tells_of_evaluate hc ho
    · apply ih hos'

/-- The outcome of a clause stands at the place of the clause. -/
theorem index_of_tells {env : Environment} {cs : List Clause} {index : Nat} {os : List Outcome}
    (h : List.Forall₂ (fun c o => o.Tells env c.2 c.1) (cs.zipIdx index) os) {i : Nat}
    {o : Outcome} (ho : os[i]? = some o) :
  o.index = index + i
  := by
  induction cs generalizing index os i with
  | nil =>
    cases h
    cases ho
  | cons c cs ih =>
    rw [List.zipIdx_cons] at h
    cases h with
    | cons hhead htail =>
      cases i with
      | zero =>
        cases ho
        apply hhead.index
      | succ i =>
        rw [ih htail ho]
        omega

theorem Decision.outcomes_of_ofOutcomes {os : List Outcome} {otherwise : Int} {d : Decision}
    (h : (ofOutcomes os otherwise).result = .ok d) :
  d.outcomes = os
  := by
  rw [ofOutcomes] at h
  split at h
  all_goals
    cases h
    rfl

/-- The last outcome whose condition holds is selected. -/
theorem Decision.selects_of_ofOutcomes {os : List Outcome}
    (h : ∀ (i : Nat) (o : Outcome), os[i]? = some o → o.index = i) {otherwise : Int} {d : Decision}
    (hd : (ofOutcomes os otherwise).result = .ok d) :
  d.Selects otherwise
  := by
  rw [ofOutcomes] at hd
  cases hfind : os.reverse.find? (·.matched) with
  | some o =>
    simp only [hfind] at hd
    cases hd
    obtain ⟨hmatched, later, earlier, hos, hlater⟩ := List.find?_eq_some_iff_append.mp hfind
    rw [List.reverse_eq_iff, List.reverse_append, List.reverse_cons, List.append_assoc,
      List.singleton_append] at hos
    have hat : os[earlier.reverse.length]? = some o := by
      rw [hos, List.getElem?_append_right (Nat.le_refl _), Nat.sub_self]
      rfl
    have hindex := h _ _ hat
    refine ⟨⟨o, hindex ▸ hat, hmatched, rfl⟩, ?_⟩
    intro j o' hj ho'
    rw [hindex] at hj
    have hmem : o' ∈ later.reverse := by
      rw [hos, List.getElem?_append_right (Nat.le_of_lt hj), List.getElem?_cons,
        if_neg (Nat.sub_ne_zero_of_lt hj)] at ho'
      apply List.mem_of_getElem? ho'
    have hnot := hlater o' (List.mem_reverse.mp hmem)
    rwa [Bool.not_eq_true'] at hnot
  | none =>
    simp only [hfind] at hd
    cases hd
    refine ⟨?_, rfl⟩
    intro o ho
    have hnot := List.find?_eq_none.mp hfind o (List.mem_reverse.mpr ho)
    rwa [Bool.not_eq_true] at hnot

/-! ### Decisions of programs -/

namespace Program

/-- A program that makes a decision has its groups removed, its clauses have outcomes, and its last
clause returns a number. -/
theorem exists_of_evaluate_eq_ok {p : Program} {env : Environment} {d : Decision}
    (h : (p.evaluate env).result = .ok d) :
  ∃ ks n os, reduceClauses p.clauses = .ok ks ∧ p.otherwise.Returns n
    ∧ (evaluateClauses env 0 ks).result = .ok os ∧ (Decision.ofOutcomes os n).result = .ok d
  := by
  obtain ⟨q, hreduce, h⟩ := Run.exists_of_bind_eq_ok h
  obtain ⟨os, hos, h⟩ := Run.exists_of_bind_eq_ok h
  obtain ⟨n, hn, h⟩ := Run.exists_of_bind_eq_ok h
  obtain ⟨hks, -, hotherwise⟩ := reduce_eq_ok hreduce
  rw [Run.ofExcept, hotherwise] at hn
  exact ⟨q.clauses, n, os, hks, hn, hos, h⟩

/-- If a program makes a decision, then there is one outcome for each clause, in the order of the
clauses, and the last of them whose condition holds is selected, or the last clause if there is
none. -/
theorem selects_of_evaluate {p : Program} {env : Environment} {d : Decision}
    (h : (p.evaluate env).result = .ok d) :
  List.Forall₂ (fun c o => o.Tells env c.2 c.1) p.clauses.zipIdx d.outcomes
    ∧ ∃ n, p.otherwise.Returns n ∧ d.Selects n
  := by
  obtain ⟨ks, n, os, hks, hn, hos, hdecision⟩ := exists_of_evaluate_eq_ok h
  have htells := tells_of_evaluateClauses (reducesTo_of_reduceClauses hks) hos
  constructor
  · rw [Decision.outcomes_of_ofOutcomes hdecision]
    exact htells
  · use n, hn
    apply Decision.selects_of_ofOutcomes _ hdecision
    intro i o ho
    rw [index_of_tells htells ho, Nat.zero_add]

end Program

end Verdict
