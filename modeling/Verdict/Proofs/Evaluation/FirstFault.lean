import Mathlib.Data.List.Forall2
import Mathlib.Tactic.Use
import Verdict.Proofs.Evaluation.Outcomes

/-!
# The first fault

A program put together by hand may have many faults. `Program.checks` lists all that can be wrong
with it, in the order in which faults are reported: the reduction of the conditions of all clauses,
then clause by clause the tokens and the evaluation of the condition, and at last the tokens of the
last clause. The evaluation fails with the first fault of this list and with no other, and the steps
before it are those of the clauses that were complete, with the steps of the condition at which it
failed. If nothing is wrong, the evaluation returns a decision, after the steps of all clauses and
one more, the selection.
-/

namespace Verdict

/-! ### Faults -/

/-- The failure of a result. -/
def Failure.of? {α : Type} : Except Failure α → Option Failure
  | .ok _ => none
  | .error f => some f

/-- What is wrong with a token in the place of a keyword. -/
def Keyword.fault? (k : Keyword) (t : Token) : Option Failure :=
  if t.kind = .keyword k ∧ t.text = k.text then
    none
  else
    some (Fault.malformed (.keyword k t.text))

/-- What is wrong with the kind of a token in the place of a number. -/
def Token.numberFault? (t : Token) : Option Failure :=
  if t.kind = .number then none else some (Fault.malformed (.returnValue t.text))

/-- All that can be wrong with the tokens of a clause with the given keyword: the keyword, the word
in front of the number, the kind of the number, and its numeral. -/
def valueFaults (k : Keyword) (keyword : Token) (result : Return) : List (Option Failure) :=
  [k.fault? keyword, Keyword.returnWord.fault? result.keyword, result.value.numberFault?,
    Failure.of? (result.number.mapError .integer)]

/-- The place at which a fault is found. -/
inductive Site where
  /-- The removal of groups, before anything is evaluated. -/
  | reduction
  /-- The tokens of the clause with the given index. -/
  | clause (index : Nat)
  /-- The condition of the clause with the given index. -/
  | condition (index : Nat)
  /-- The tokens of the last clause. -/
  | otherwise
  deriving DecidableEq

/-- What may be wrong at a place. -/
structure Check where
  site : Site
  fault? : Option Failure

/-- The place of a fault and its failure. -/
def Check.failure? (c : Check) : Option (Site × Failure) :=
  c.fault?.map fun f => (c.site, f)

/-- The checks that are made at one place. -/
def Site.checks (s : Site) (faults : List (Option Failure)) : List Check :=
  faults.map fun fault? => ⟨s, fault?⟩

/-- The checks of the clause with the given index. -/
def Clause.checks (env : Environment) (index : Nat) (c : Clause) : List Check :=
  (Site.clause index).checks (valueFaults .ifWord c.keyword c.result) ++
    (Site.condition index).checks [Failure.of? (c.condition.run env).result]

/-- The checks of clauses, the first of which has the given index. -/
def clauseChecks (env : Environment) (index : Nat) (cs : List Clause) : List Check :=
  (cs.zipIdx index).flatMap fun c => c.1.checks env c.2

/-- What can be wrong when groups are removed: the conditions in the order of the clauses, and then
that there is no clause. -/
def reductionFaults (cs : List Clause) : List (Option Failure) :=
  cs.map (fun c => Failure.of? c.condition.reduce) ++ [if cs = [] then some .invalid else none]

namespace Program

/-- All that can be wrong with a program, in the order in which faults are reported. -/
def checks (env : Environment) (p : Program) : List Check :=
  Site.reduction.checks (reductionFaults p.clauses) ++ (clauseChecks env 0 p.clauses ++
    Site.otherwise.checks (valueFaults .elseWord p.otherwise.keyword p.otherwise.result))

/-- The first fault of a program and its place. -/
def firstFault? (env : Environment) (p : Program) : Option (Site × Failure) :=
  (p.checks env).findSome? Check.failure?

end Program

/-! ### Steps -/

/-- The steps of a clause that has no fault: those of its condition, and the line of the clause. -/
def Clause.steps (env : Environment) (index : Nat) (c : Clause) : List Step :=
  (c.condition.run env).steps ++
    match (c.condition.run env).result, c.result.number with
    | .ok matched, .ok value => [.clause index matched value]
    | _, _ => []

/-- The steps of clauses without faults, the first of which has the given index. -/
def clauseSteps (env : Environment) (index : Nat) (cs : List Clause) : List Step :=
  (cs.zipIdx index).flatMap fun c => c.1.steps env c.2

/-- The lines of a clause that has no fault: those of its condition, and the one that tells whether
the condition holds and which number the clause returns. -/
def Clause.lines (env : Environment) (index : Nat) (c : Clause) : List String :=
  (c.condition.run env).lines ++
    match (c.condition.run env).result, c.result.number with
    | .ok matched, .ok value =>
      ["IF #" ++ toString index ++ ": " ++ (if matched then "true" else "false") ++ " -> "
        ++ toString value]
    | _, _ => []

/-- The lines of clauses without faults, the first of which has the given index. -/
def clauseLines (env : Environment) (index : Nat) (cs : List Clause) : List String :=
  (cs.zipIdx index).flatMap fun c => c.1.lines env c.2

/-- The last step of the clause tells whether its condition holds and which number it returns, and
its last line shows this. -/
def Clause.HasLine (env : Environment) (index : Nat) (c : Clause) : Prop :=
  ∃ matched value, (c.condition.run env).result = .ok matched ∧ c.result.number = .ok value
    ∧ c.steps env index = (c.condition.run env).steps ++ [.clause index matched value]
    ∧ c.lines env index = (c.condition.run env).lines ++
      ["IF #" ++ toString index ++ ": " ++ (if matched then "true" else "false") ++ " -> "
        ++ toString value]

namespace Program

/-- The clauses that are complete when a fault is found at the given place. -/
def completed (p : Program) : Site → List Clause
  | .reduction => []
  | .clause i => p.clauses.take i
  | .condition i => p.clauses.take i
  | .otherwise => p.clauses

/-- The steps of the condition at which a fault is found. -/
def interrupted (env : Environment) (p : Program) : Site → List Step
  | .condition i => p.clauses[i]?.elim [] fun c => (c.condition.run env).steps
  | _ => []

/-- The steps in front of a fault: all steps of the clauses that are complete, and those of the
condition at which the fault is found. -/
def stepsBefore (env : Environment) (p : Program) (site : Site) : List Step :=
  clauseSteps env 0 (p.completed site) ++ p.interrupted env site

/-- The lines of the condition at which a fault is found. -/
def interruptedLines (env : Environment) (p : Program) : Site → List String
  | .condition i => p.clauses[i]?.elim [] fun c => (c.condition.run env).lines
  | _ => []

/-- The lines in front of a fault: those of the clauses that are complete, and those of the
condition at which the fault is found. -/
def linesBefore (env : Environment) (p : Program) (site : Site) : List String :=
  clauseLines env 0 (p.completed site) ++ p.interruptedLines env site

end Program

/-- The step tells which clause is selected. -/
def Step.isSelection : Step → Bool
  | .selected .. => true
  | .otherwise .. => true
  | _ => false

/-- The step belongs to the evaluation of a condition. -/
def Step.isOfCondition : Step → Bool
  | .compared .. => true
  | .tested .. => true
  | .skipped .. => true
  | _ => false

theorem Decision.isSelection_selection (d : Decision) :
  d.selection.isSelection = true
  := by
  rw [selection]
  cases d.selected with
  | some i => rfl
  | none => rfl

/-! ### Lines show steps -/

theorem Clause.map_text_steps (env : Environment) (index : Nat) (c : Clause) :
  (c.steps env index).map Step.text = c.lines env index
  := by
  rw [steps, lines, List.map_append]
  congr 1
  split
  · rfl
  · rfl

theorem map_text_clauseSteps (env : Environment) (index : Nat) (cs : List Clause) :
  (clauseSteps env index cs).map Step.text = clauseLines env index cs
  := by
  rw [clauseSteps, List.map_flatMap, clauseLines]
  congr 1
  funext c
  apply c.1.map_text_steps

/-- The lines in front of a fault show the steps in front of it. -/
theorem Program.map_text_stepsBefore (env : Environment) (p : Program) (site : Site) :
  (p.stepsBefore env site).map Step.text = p.linesBefore env site
  := by
  rw [stepsBefore, List.map_append, map_text_clauseSteps, linesBefore]
  congr 1
  cases site with
  | condition i =>
    rw [interrupted, interruptedLines]
    cases p.clauses[i]? with
    | none => rfl
    | some c => rfl
  | _ => rfl

/-! ### The first fault at one place -/

theorem Site.findSome?_checks (s : Site) (faults : List (Option Failure)) :
  (s.checks faults).findSome? Check.failure? = (faults.findSome? id).map fun f => (s, f)
  := by
  induction faults with
  | nil => rfl
  | cons fault? faults ih =>
    cases fault? with
    | none => exact ih
    | some f => rfl

theorem Keyword.check_eq_fault? (k : Keyword) (t : Token) :
  k.check t = match k.fault? t with
    | some f => .error f
    | none => .ok ()
  := by
  rw [check, fault?]
  split
  · rfl
  · rfl

/-- The number of a clause is read unless something is wrong with its tokens, and then the first
fault is reported. -/
theorem clauseValue_firstFault (k : Keyword) (keyword : Token) (result : Return) :
  match (valueFaults k keyword result).findSome? id with
  | some f => clauseValue k keyword result = .error f
  | none => ∃ value, result.number = .ok value ∧ clauseValue k keyword result = .ok value
  := by
  rw [valueFaults, clauseValue, Return.evaluate, Keyword.check_eq_fault?, Keyword.check_eq_fault?,
    Token.numberFault?]
  cases k.fault? keyword with
  | some f => rfl
  | none =>
    cases Keyword.returnWord.fault? result.keyword with
    | some f => rfl
    | none =>
      by_cases hkind : result.value.kind = .number
      · rw [if_pos hkind, if_pos hkind]
        cases result.number with
        | error f => rfl
        | ok value => exact ⟨value, rfl, rfl⟩
      · rw [if_neg hkind, if_neg hkind]
        rfl

/-! ### The first fault of the reduction -/

namespace Program

theorem reduceClauses_firstFault (cs : List Clause) :
  match (cs.map fun c => Failure.of? c.condition.reduce).findSome? id with
  | some f => reduceClauses cs = .error f
  | none => ∃ ks, reduceClauses cs = .ok ks ∧ List.Forall₂ Clause.ReducesTo cs ks
  := by
  induction cs with
  | nil => exact ⟨[], rfl, .nil⟩
  | cons c cs ih =>
    rw [List.map_cons, reduceClauses, List.findSome?_cons]
    cases hreduce : c.condition.reduce with
    | error f => rfl
    | ok e =>
      rw [Failure.of?, id]
      cases hfirst : (cs.map fun c => Failure.of? c.condition.reduce).findSome? id with
      | some f =>
        rw [hfirst] at ih
        have hrest : reduceClauses cs = .error f := ih
        rw [hrest]
      | none =>
        rw [hfirst] at ih
        obtain ⟨ks, hks, hall⟩ := ih
        rw [hks]
        exact ⟨_, rfl, .cons ⟨hreduce, rfl, rfl⟩ hall⟩

/-- Groups are removed from a program, unless a condition has a fault or there is no clause, and
then the first fault is reported. -/
theorem reduce_firstFault (p : Program) :
  match (reductionFaults p.clauses).findSome? id with
  | some f => p.reduce = .error f
  | none => ∃ q, p.reduce = .ok q ∧ List.Forall₂ Clause.ReducesTo p.clauses q.clauses
      ∧ q.otherwise = p.otherwise
  := by
  have hclauses := reduceClauses_firstFault p.clauses
  rw [reductionFaults, List.findSome?_append]
  cases hfirst : (p.clauses.map fun c => Failure.of? c.condition.reduce).findSome? id with
  | some f =>
    rw [hfirst] at hclauses
    have herror : reduceClauses p.clauses = .error f := hclauses
    rw [reduce, herror]
    rfl
  | none =>
    rw [hfirst] at hclauses
    obtain ⟨ks, hks, hall⟩ := hclauses
    by_cases hnil : p.clauses = []
    · rw [hnil, List.forall₂_nil_left_iff] at hall
      rw [if_pos hnil, reduce, hks, hall]
      rfl
    · have hne : ks ≠ [] := by
        rintro rfl
        exact hnil (List.forall₂_nil_right_iff.mp hall)
      rw [if_neg hnil, reduce_of_clauses hks hne]
      exact ⟨_, rfl, hall, rfl⟩

end Program

/-! ### The first fault of a clause -/

/-- A clause has an outcome after its complete steps, unless it has a fault. One of its tokens is
reported before any step, one of its condition after the steps that the condition makes. -/
theorem Clause.evaluate_of_checks {c k : Clause} (h : c.ReducesTo k) (env : Environment)
    (index : Nat) :
  match (c.checks env index).findSome? Check.failure? with
  | some (site, f) =>
    (site = .clause index ∧ k.evaluate env index = ⟨[], .error f⟩)
      ∨ (site = .condition index
        ∧ k.evaluate env index = ⟨(c.condition.run env).steps, .error f⟩)
  | none => c.HasLine env index ∧ ∃ o, k.evaluate env index = ⟨c.steps env index, .ok o⟩
  := by
  have hvalue := clauseValue_firstFault .ifWord c.keyword c.result
  rw [checks, List.findSome?_append, Site.findSome?_checks, Site.findSome?_checks, evaluate,
    h.keyword, h.result, HasLine, steps, lines, ← Condition.run_of_reduce h.condition]
  cases hfirst : (valueFaults .ifWord c.keyword c.result).findSome? id with
  | some f =>
    rw [hfirst] at hvalue
    have herror : clauseValue .ifWord c.keyword c.result = .error f := hvalue
    rw [herror]
    exact Or.inl ⟨rfl, rfl⟩
  | none =>
    rw [hfirst] at hvalue
    obtain ⟨value, hnumber, hok⟩ := hvalue
    rw [hok, hnumber]
    rcases c.condition.run env with ⟨steps, f | b⟩
    · exact Or.inr ⟨rfl, rfl⟩
    · exact ⟨⟨b, value, rfl, rfl, rfl, rfl⟩, _, rfl⟩

/-! ### The first fault of a program -/

theorem clauseSteps_cons (env : Environment) (index : Nat) (c : Clause) (cs : List Clause) :
  clauseSteps env index (c :: cs) = c.steps env index ++ clauseSteps env (index + 1) cs
  := rfl

/-- All clauses have outcomes after their complete steps, unless one has a fault. The clauses before
the first fault are then complete, and nothing is done behind it. -/
theorem evaluateClauses_firstFault (env : Environment) {cs ks : List Clause}
    (h : List.Forall₂ Clause.ReducesTo cs ks) (index : Nat) :
  match (clauseChecks env index cs).findSome? Check.failure? with
  | some (site, f) => ∃ i c, cs[i]? = some c
      ∧ (∀ x ∈ (cs.take i).zipIdx index, x.1.HasLine env x.2)
      ∧ (site = .clause (index + i)
          ∧ evaluateClauses env index ks = ⟨clauseSteps env index (cs.take i), .error f⟩
        ∨ site = .condition (index + i)
          ∧ evaluateClauses env index ks =
            ⟨clauseSteps env index (cs.take i) ++ (c.condition.run env).steps, .error f⟩)
  | none => (∀ x ∈ cs.zipIdx index, x.1.HasLine env x.2)
      ∧ ∃ os, evaluateClauses env index ks = ⟨clauseSteps env index cs, .ok os⟩
  := by
  induction h generalizing index with
  | nil => exact ⟨by simp, [], rfl⟩
  | @cons c k cs ks hc _ ih =>
    have hclause := Clause.evaluate_of_checks hc env index
    have hrest := ih (index + 1)
    have hchecks : clauseChecks env index (c :: cs) =
        c.checks env index ++ clauseChecks env (index + 1) cs := rfl
    rw [hchecks, List.findSome?_append, evaluateClauses]
    cases hfirst : (c.checks env index).findSome? Check.failure? with
    | some fault =>
      obtain ⟨site, f⟩ := fault
      rw [hfirst] at hclause
      use 0, c, rfl, by simp
      rcases hclause with ⟨rfl, hrun⟩ | ⟨rfl, hrun⟩
      · rw [hrun]
        exact Or.inl ⟨rfl, rfl⟩
      · rw [hrun]
        exact Or.inr ⟨rfl, rfl⟩
    | none =>
      rw [hfirst] at hclause
      -- the first clause is complete, and a fault among the others has one more clause before it
      obtain ⟨hline, o, hrun⟩ := hclause
      rw [hrun]
      cases hfault : (clauseChecks env (index + 1) cs).findSome? Check.failure? with
      | some fault =>
        obtain ⟨site, f⟩ := fault
        rw [hfault] at hrest
        obtain ⟨i, c', hc', hlines, hfaulty⟩ := hrest
        use i + 1, c', hc'
        rw [List.take_succ_cons, clauseSteps_cons, List.append_assoc, ← Nat.add_assoc,
          Nat.add_right_comm, List.zipIdx_cons, List.forall_mem_cons]
        use ⟨hline, hlines⟩
        rcases hfaulty with ⟨rfl, hrun'⟩ | ⟨rfl, hrun'⟩
        · rw [hrun']
          exact Or.inl ⟨rfl, rfl⟩
        · rw [hrun']
          exact Or.inr ⟨rfl, rfl⟩
      | none =>
        rw [hfault] at hrest
        obtain ⟨hlines, os, hrun'⟩ := hrest
        rw [hrun', List.zipIdx_cons, List.forall_mem_cons]
        use ⟨hline, hlines⟩, o :: os
        simp [Run.bind, Run.pure, clauseSteps_cons]

/-! ### No selection -/

/-- What holds of all steps of a run, and of all steps of every run that its value may determine,
holds of all steps of the two together. -/
theorem Run.forall_mem_bind {α β : Type} {P : Step → Prop} {x : Run α} {k : α → Run β}
    (h : ∀ s ∈ x.steps, P s) (hk : ∀ a, ∀ s ∈ (k a).steps, P s) :
  ∀ s ∈ (x.bind k).steps, P s
  := by
  rcases x with ⟨steps, f | a⟩
  · exact h
  · rw [Run.bind_ok, List.forall_mem_append]
    exact ⟨h, hk a⟩

/-- What holds of a step holds of all steps of the run that tells it. -/
theorem Run.forall_mem_tell {α : Type} {P : Step → Prop} {s : Step} (h : P s) (a : α) :
  ∀ t ∈ (tell s a).steps, P t
  := by
  rcases say_or_fail_of_tell s a with htold | ⟨f, -, htold⟩
  · rw [htold]
    simpa [say] using h
  · rw [htold]
    simp [fail]

theorem Condition.isOfCondition_evaluate (env : Environment) (e : Condition) :
  ∀ s ∈ (e.evaluate env).steps, s.isOfCondition = true
  := by
  induction e with
  | compare name op literal =>
    rw [evaluate]
    cases env.value? name with
    | none => simp [Run.fail]
    | some v =>
      cases op with
      | foreign text => simp [Run.fail]
      | known r =>
        apply Run.forall_mem_tell
        rfl
  | missing name =>
    apply Run.forall_mem_tell
    rfl
  | join op left right ihleft ihright =>
    rw [evaluate]
    apply Run.forall_mem_bind ihleft
    intro b
    cases op with
    | foreign text => simp [Run.fail]
    | known c =>
      by_cases hb : b = c.deciding
      · simp [hb, Run.say, Step.isOfCondition]
      · simpa [hb] using ihright
  | group inner => simp [evaluate, Run.fail]
  | alien typeName => simp [evaluate, Run.fail]

theorem Condition.isSelection_evaluate (env : Environment) (e : Condition) :
  ∀ s ∈ (e.evaluate env).steps, s.isSelection = false
  := by
  intro s hs
  have hcondition := e.isOfCondition_evaluate env s hs
  cases s with
  | compared | tested | skipped => rfl
  | clause | selected | otherwise => cases hcondition

theorem Condition.isSelection_run (env : Environment) (e : Condition) :
  ∀ s ∈ (e.run env).steps, s.isSelection = false
  := by
  cases hreduce : e.reduce with
  | error f => simp [run, hreduce, Run.bind, Run.ofExcept]
  | ok e' =>
    rw [run_of_reduce hreduce]
    apply isSelection_evaluate

theorem Clause.isSelection_steps (env : Environment) (index : Nat) (c : Clause) :
  ∀ s ∈ c.steps env index, s.isSelection = false
  := by
  rw [steps, List.forall_mem_append]
  use c.condition.isSelection_run env
  split
  · simp [Step.isSelection]
  · simp

theorem isSelection_clauseSteps (env : Environment) (index : Nat) (cs : List Clause) :
  ∀ s ∈ clauseSteps env index cs, s.isSelection = false
  := by
  intro s hs
  obtain ⟨c, -, hc⟩ := List.mem_flatMap.mp hs
  exact c.1.isSelection_steps env c.2 s hc

theorem Program.isSelection_stepsBefore (env : Environment) (p : Program) (site : Site) :
  ∀ s ∈ p.stepsBefore env site, s.isSelection = false
  := by
  rw [stepsBefore, List.forall_mem_append]
  use isSelection_clauseSteps env 0 (p.completed site)
  cases site with
  | condition i =>
    rw [interrupted]
    cases p.clauses[i]? with
    | none => simp
    | some c => exact c.condition.isSelection_run env
  | _ => simp [interrupted]

/-- The last clause is read unless it has a fault, and then one step is left, the selection. -/
theorem Decision.ofOutcomes_of_checks (o : Otherwise) (outcomes : List Outcome) :
  match (valueFaults .elseWord o.keyword o.result).findSome? id with
  | some f =>
    ((Run.ofExcept (clauseValue .elseWord o.keyword o.result)).bind fun otherwise =>
      ofOutcomes outcomes otherwise) = ⟨[], .error f⟩
  | none => ∃ d,
    ((Run.ofExcept (clauseValue .elseWord o.keyword o.result)).bind fun otherwise =>
      ofOutcomes outcomes otherwise) = ⟨[d.selection], .ok d⟩
  := by
  have hvalue := clauseValue_firstFault .elseWord o.keyword o.result
  cases hfault : (valueFaults .elseWord o.keyword o.result).findSome? id with
  | some f =>
    rw [hfault] at hvalue
    have herror : clauseValue .elseWord o.keyword o.result = .error f := hvalue
    rw [herror]
    rfl
  | none =>
    rw [hfault] at hvalue
    obtain ⟨value, -, hok⟩ := hvalue
    obtain ⟨d, hd⟩ := exists_ofOutcomes_eq outcomes value
    use d
    rw [hok, Run.ofExcept, Run.bind_ok, hd]
    rfl

/-- The evaluation of a program fails with its first fault, after the steps in front of the fault.
If there is no fault, the selection is the one step behind those of the clauses. -/
theorem Program.run_firstFault (env : Environment) (p : Program) :
  match p.firstFault? env with
  | some (site, f) => p.evaluate env = ⟨p.stepsBefore env site, .error f⟩
      ∧ ∀ x ∈ (p.completed site).zipIdx, x.1.HasLine env x.2
  | none => ∃ d, p.evaluate env = ⟨clauseSteps env 0 p.clauses ++ [d.selection], .ok d⟩
      ∧ ∀ x ∈ p.clauses.zipIdx, x.1.HasLine env x.2
  := by
  have hreduction := p.reduce_firstFault
  rw [firstFault?, checks, List.findSome?_append, List.findSome?_append, Site.findSome?_checks,
    Site.findSome?_checks]
  cases hfirst : (reductionFaults p.clauses).findSome? id with
  | some f =>
    rw [hfirst] at hreduction
    have herror : p.reduce = .error f := hreduction
    rw [evaluate, herror]
    exact ⟨rfl, by simp [completed]⟩
  | none =>
    rw [hfirst] at hreduction
    obtain ⟨q, hq, hall, hotherwise⟩ := hreduction
    have hclauses := evaluateClauses_firstFault env hall 0
    rw [evaluate_of_reduce hq, hotherwise]
    cases hfault : (clauseChecks env 0 p.clauses).findSome? Check.failure? with
    | some fault =>
      obtain ⟨site, f⟩ := fault
      rw [hfault] at hclauses
      obtain ⟨i, c, hc, hlines, hfaulty⟩ := hclauses
      rw [Nat.zero_add] at hfaulty
      rcases hfaulty with ⟨rfl, hrun⟩ | ⟨rfl, hrun⟩
      · refine ⟨?_, hlines⟩
        have hnone : p.interrupted env (.clause i) = [] := rfl
        rw [hrun, stepsBefore, hnone, List.append_nil]
        rfl
      · refine ⟨?_, hlines⟩
        rw [hrun, stepsBefore, interrupted, hc]
        rfl
    | none =>
      rw [hfault] at hclauses
      obtain ⟨hlines, os, hrun⟩ := hclauses
      have hlast := Decision.ofOutcomes_of_checks p.otherwise os
      rw [hrun, Run.bind_ok]
      cases hfault' : (valueFaults .elseWord p.otherwise.keyword p.otherwise.result).findSome? id
        with
      | some f =>
        rw [hfault'] at hlast
        refine ⟨?_, hlines⟩
        rw [hlast]
        rfl
      | none =>
        rw [hfault'] at hlast
        obtain ⟨d, hselect⟩ := hlast
        refine ⟨d, ?_, hlines⟩
        rw [hselect]

/-- The evaluation of any program, also of one that has been put together by hand, fails with the
first fault in the order of `Program.checks`. The steps made before are all steps of the clauses
that are complete, each with its line at the end, and then those of the condition at which the fault
is found; no clause is selected. If there is no fault, there is a decision: one outcome for each
clause, of which the last one whose condition holds is selected, or the last clause if there is
none. The selection is then the one step behind those of the clauses. -/
theorem Program.evaluate_firstFault (env : Environment) (p : Program) :
  match p.firstFault? env with
  | some (site, f) => p.evaluate env = ⟨p.stepsBefore env site, .error f⟩
      ∧ (p.evaluate env).lines = p.linesBefore env site
      ∧ (∀ x ∈ (p.completed site).zipIdx, x.1.HasLine env x.2)
      ∧ ∀ s ∈ p.stepsBefore env site, s.isSelection = false
  | none => ∃ d, p.evaluate env = ⟨clauseSteps env 0 p.clauses ++ [d.selection], .ok d⟩
      ∧ (p.evaluate env).lines = clauseLines env 0 p.clauses ++ [d.selectionLine]
      ∧ (∀ x ∈ p.clauses.zipIdx, x.1.HasLine env x.2)
      ∧ List.Forall₂ (fun c o => o.Tells env c.2 c.1) p.clauses.zipIdx d.outcomes
      ∧ (∃ n, p.otherwise.Returns n ∧ d.Selects n)
      ∧ d.selection.isSelection = true
  := by
  have hrun := p.run_firstFault env
  cases hfirst : p.firstFault? env with
  | some fault =>
    obtain ⟨site, f⟩ := fault
    rw [hfirst] at hrun
    obtain ⟨hevaluate, hlines⟩ := hrun
    refine ⟨hevaluate, ?_, hlines, p.isSelection_stepsBefore env site⟩
    rw [hevaluate, Run.lines, map_text_stepsBefore]
  | none =>
    rw [hfirst] at hrun
    obtain ⟨d, hevaluate, hlines⟩ := hrun
    have hdecision : (p.evaluate env).result = .ok d := by rw [hevaluate]
    obtain ⟨htells, hselects⟩ := selects_of_evaluate hdecision
    refine ⟨d, hevaluate, ?_, hlines, htells, hselects, d.isSelection_selection⟩
    rw [hevaluate, Run.lines, List.map_append, map_text_clauseSteps, List.map_singleton,
      d.text_selection]

/-- A program with a fault in the keyword of its second clause, another one in the condition of that
clause, and a third one in its last clause. -/
def faultyProgram : Program where
  clauses :=
    [⟨⟨.keyword .ifWord, "IF", 0, 1, 1⟩, .missing "x",
        ⟨⟨.keyword .returnWord, "RETURN", 0, 1, 1⟩, ⟨.number, "1", 0, 1, 1⟩⟩⟩,
      ⟨⟨.keyword .ifWord, "if", 0, 1, 1⟩, .compare "x" (.known .gt) 0,
        ⟨⟨.keyword .returnWord, "RETURN", 0, 1, 1⟩, ⟨.number, "2", 0, 1, 1⟩⟩⟩]
  otherwise :=
    ⟨⟨.keyword .elseWord, "ELSE", 0, 1, 1⟩,
      ⟨⟨.keyword .returnWord, "RETURN", 0, 1, 1⟩, ⟨.identifier, "y", 0, 1, 1⟩⟩⟩

example :
  faultyProgram.firstFault? .empty =
      some (Site.clause 1, .fault (.malformed (.keyword .ifWord "if")))
    ∧ faultyProgram.stepsBefore .empty (.clause 1) = [.tested "x" none true, .clause 0 true 1]
  := by decide

end Verdict
