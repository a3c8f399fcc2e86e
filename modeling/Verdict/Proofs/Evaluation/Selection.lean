import Verdict.Proofs.Evaluation.FirstFault
import Verdict.Proofs.Failure.Rule

/-!
# Selection

A decision tells what came of every clause, and of those whose condition holds the last one is
selected. The clauses of a program may be divided in two: the first part decides with the last
clause of the program, and the second part with a last clause that returns what the first part has
decided. The decision of the program is then that of the second part, in which clauses are counted
on from the first part, and its steps are those of the two parts.
-/

namespace Verdict

/-! ### Shifts -/

/-- A step in which clauses are counted on from the given number. -/
def Step.shift (k : Nat) : Step → Step
  | .clause index matched value => .clause (index + k) matched value
  | .selected index value => .selected (index + k) value
  | s => s

/-- An outcome whose clause is counted on from the given number. -/
def Outcome.shift (k : Nat) (o : Outcome) : Outcome :=
  { o with index := o.index + k }

/-- A run with its steps and its value replaced by others. -/
def Run.map {α β : Type} (f : Step → Step) (g : α → β) (x : Run α) : Run β :=
  ⟨x.steps.map f, x.result.map g⟩

/-- The steps of a run apart from the selection. -/
def Run.deliberation {α : Type} (x : Run α) : List Step :=
  x.steps.filter fun s => !s.isSelection

/-- No clause is counted in the steps of a condition. -/
theorem Step.shift_of_isOfCondition {s : Step} (h : s.isOfCondition = true) (k : Nat) :
  s.shift k = s
  := by
  cases s with
  | compared | tested | skipped => rfl
  | clause | selected | otherwise => cases h

/-- The place of a clause is told by its outcome and by its line, and by nothing else. -/
theorem Clause.evaluate_add (env : Environment) (index k : Nat) (c : Clause) :
  c.evaluate env (index + k) = (c.evaluate env index).map (Step.shift k) (Outcome.shift k)
  := by
  have hsteps : (c.condition.evaluate env).steps.map (Step.shift k) =
      (c.condition.evaluate env).steps := by
    rw [List.map_congr_left (g := id), List.map_id]
    intro s hs
    apply Step.shift_of_isOfCondition (c.condition.isOfCondition_evaluate env s hs)
  rw [evaluate, evaluate]
  cases clauseValue .ifWord c.keyword c.result with
  | error f => rfl
  | ok value =>
    rw [Run.ofExcept, Run.bind_ok, Run.bind_ok]
    rcases hrun : c.condition.evaluate env with ⟨steps, f | b⟩
    · rw [hrun] at hsteps
      simp [Run.bind, Run.map, Except.map, hsteps]
    · rw [hrun] at hsteps
      simp [Run.bind, Run.map, Except.map, Run.say, hsteps, Step.shift, Outcome.shift]

/-- Clauses that are counted on from a number have the same outcomes and steps, counted on. -/
theorem evaluateClauses_add (env : Environment) (index k : Nat) (cs : List Clause) :
  evaluateClauses env (index + k) cs =
    (evaluateClauses env index cs).map (Step.shift k) (List.map (Outcome.shift k))
  := by
  induction cs generalizing index with
  | nil => rfl
  | cons c cs ih =>
    rw [evaluateClauses, evaluateClauses, Clause.evaluate_add, Nat.add_right_comm, ih]
    rcases c.evaluate env index with ⟨steps, f | o⟩
    · rfl
    · rcases evaluateClauses env (index + 1) cs with ⟨steps', f | os⟩
      · simp [Run.bind, Run.map, Except.map]
      · simp [Run.bind, Run.map, Except.map, Run.pure]

/-! ### Clauses in two parts -/

theorem Run.bind_assoc {α β γ : Type} (x : Run α) (f : α → Run β) (g : β → Run γ) :
  (x.bind f).bind g = x.bind fun a => (f a).bind g
  := by
  rcases x with ⟨steps, e | a⟩
  · rfl
  · rw [bind_ok, bind_ok]
    rcases f a with ⟨steps', e | b⟩
    · rfl
    · simp [bind]

/-- Clauses are evaluated one part after the other, the second one counted on from the first. -/
theorem evaluateClauses_append (env : Environment) (index : Nat) (cs ds : List Clause) :
  evaluateClauses env index (cs ++ ds) =
    (evaluateClauses env index cs).bind fun os =>
      (evaluateClauses env (index + cs.length) ds).bind fun os' => .pure (os ++ os')
  := by
  induction cs generalizing index with
  | nil =>
    simp only [List.nil_append, evaluateClauses, List.length_nil, Nat.add_zero]
    rcases evaluateClauses env index ds with ⟨steps, f | os⟩
    · rfl
    · simp [Run.bind, Run.pure]
  | cons c cs ih =>
    have hplace : index + 1 + cs.length = index + (c :: cs).length := by
      rw [List.length_cons]
      omega
    simp only [List.cons_append, evaluateClauses, ih, hplace, Run.bind_assoc]
    rfl

namespace Decision

/-- The third decision is that of two parts that make the other two: the value is that of the
second part, in which clauses are counted on from the given number, and the selected clause is that
of the first part only if none is selected in the second. -/
structure Joins (k : Nat) (d₁ d₂ d : Decision) : Prop where
  value : d.value = d₂.value
  selected : d.selected = (d₂.selected.map (· + k)).or d₁.selected
  outcomes : d.outcomes = d₁.outcomes ++ d₂.outcomes.map (Outcome.shift k)

/-- Of outcomes in two parts the decision is that of the second part, where the last clause returns
what the first part has decided. -/
theorem exists_joins_of_ofOutcomes {os os' : List Outcome} {n : Int} {d₁ d₂ : Decision}
    (h₁ : (ofOutcomes os n).result = .ok d₁) (h₂ : (ofOutcomes os' d₁.value).result = .ok d₂)
    (k : Nat) :
  ∃ d, (ofOutcomes (os ++ os'.map (Outcome.shift k)) n).result = .ok d ∧ d₁.Joins k d₂ d
  := by
  have hfind : (os ++ os'.map (Outcome.shift k)).reverse.find? (·.matched) =
      ((os'.reverse.find? (·.matched)).map (Outcome.shift k)).or
        (os.reverse.find? (·.matched)) := by
    rw [List.reverse_append, List.find?_append, ← List.map_reverse, List.find?_map]
    rfl
  have houtcomes := outcomes_of_ofOutcomes h₁
  rw [ofOutcomes] at h₁ h₂ ⊢
  rw [hfind]
  cases hsecond : os'.reverse.find? (·.matched) with
  | some o =>
    simp only [hsecond] at h₂
    cases h₂
    refine ⟨_, rfl, rfl, rfl, ?_⟩
    rw [houtcomes]
  | none =>
    simp only [hsecond] at h₂
    cases h₂
    cases hfirst : os.reverse.find? (·.matched) with
    | some o =>
      simp only [hfirst] at h₁
      cases h₁
      exact ⟨_, rfl, rfl, rfl, rfl⟩
    | none =>
      simp only [hfirst] at h₁
      cases h₁
      exact ⟨_, rfl, rfl, rfl, rfl⟩

end Decision

/-! ### Programs in two parts -/

theorem isSelection_evaluateClauses (env : Environment) (index : Nat) (cs : List Clause) :
  ∀ s ∈ (evaluateClauses env index cs).steps, s.isSelection = false
  := by
  induction cs generalizing index with
  | nil => simp [evaluateClauses, Run.pure]
  | cons c cs ih =>
    rw [evaluateClauses]
    apply Run.forall_mem_bind
    · rw [Clause.evaluate]
      apply Run.forall_mem_bind
      · simp [Run.ofExcept]
      · intro value
        apply Run.forall_mem_bind (c.condition.isSelection_evaluate env)
        simp [Run.say, Step.isSelection]
    · intro o
      apply Run.forall_mem_bind (ih (index + 1))
      simp [Run.pure]

/-- The selection is the only step that is made after the clauses. -/
theorem deliberation_of_outcomes (env : Environment) (cs : List Clause) (n : Int) :
  ((evaluateClauses env 0 cs).bind fun os => Decision.ofOutcomes os n).deliberation =
    (evaluateClauses env 0 cs).steps
  := by
  have hclauses : (evaluateClauses env 0 cs).steps.filter (fun s => !s.isSelection) =
      (evaluateClauses env 0 cs).steps := by
    rw [List.filter_eq_self]
    intro s hs
    rw [isSelection_evaluateClauses env 0 cs s hs]
    rfl
  rcases hrun : evaluateClauses env 0 cs with ⟨steps, f | os⟩
  · rw [hrun] at hclauses
    exact hclauses
  · rw [hrun] at hclauses
    rw [Run.bind_ok, Run.deliberation, List.filter_append, hclauses, Decision.ofOutcomes]
    cases os.reverse.find? (·.matched) with
    | some o => simp [Run.say, Step.isSelection]
    | none => simp [Run.say, Step.isSelection]

namespace Program

/-- The evaluation of a program whose last clause returns a number. -/
theorem evaluate_of_reduceClauses {cs ks : List Clause} (h : reduceClauses cs = .ok ks)
    (hne : cs ≠ []) {o : Otherwise} {n : Int} (ho : o.Returns n) (env : Environment) :
  (Program.mk cs o).evaluate env =
    (evaluateClauses env 0 ks).bind fun os => Decision.ofOutcomes os n
  := by
  have hks : ks ≠ [] := by
    rintro rfl
    exact hne (List.forall₂_nil_right_iff.mp (reducesTo_of_reduceClauses h))
  rw [evaluate_of_reduce (reduce_of_clauses h hks), ho]
  congr 1

/-- A program fails as its first part does, with the same steps. If the first part makes a decision,
the program fails as the second part does, and the steps are those of the first part and then those
of the second. If the last clause of the second part returns what the first part has decided, then
the decision of the program is made of both. -/
theorem evaluate_append {cs ds ms : List Clause} (h : reduceClauses (cs ++ ds) = .ok ms)
    (hcs : cs ≠ []) (hds : ds ≠ []) {o : Otherwise} {n : Int} (ho : o.Returns n)
    (env : Environment) :
  match ((Program.mk cs o).evaluate env).result with
  | .error _ => (Program.mk (cs ++ ds) o).evaluate env = (Program.mk cs o).evaluate env
  | .ok d₁ => ∀ o' n', o'.Returns n' →
      ((Program.mk (cs ++ ds) o).evaluate env).deliberation =
          ((Program.mk cs o).evaluate env).deliberation
            ++ ((Program.mk ds o').evaluate env).deliberation.map (Step.shift cs.length)
        ∧ Failure.of? ((Program.mk (cs ++ ds) o).evaluate env).result =
          Failure.of? ((Program.mk ds o').evaluate env).result
        ∧ (n' = d₁.value → ∀ d₂, ((Program.mk ds o').evaluate env).result = .ok d₂ →
          ∃ d, ((Program.mk (cs ++ ds) o).evaluate env).result = .ok d
            ∧ d₁.Joins cs.length d₂ d)
  := by
  obtain ⟨ks, ls, hks, hls, rfl⟩ := exists_of_reduceClauses_append h
  have hlength : cs.length = ks.length := (reducesTo_of_reduceClauses hks).length_eq
  have hne : cs ++ ds ≠ [] := by simp [hcs]
  have hsplit := evaluateClauses_append env 0 ks ls
  rw [evaluateClauses_add, ← hlength] at hsplit
  have hsteps := deliberation_of_outcomes env ks n
  rw [evaluate_of_reduceClauses hks hcs ho, evaluate_of_reduceClauses h hne ho]
  rcases hfirst : evaluateClauses env 0 ks with ⟨steps, f | os⟩
  · rw [hsplit, hfirst]
    rfl
  · obtain ⟨d₁, hd₁⟩ := Decision.exists_ofOutcomes os n
    have hdecision :
        (Run.bind ⟨steps, .ok os⟩ fun os => Decision.ofOutcomes os n).result = .ok d₁ := hd₁
    rw [hfirst] at hsteps
    rw [hdecision]
    intro o' n' ho'
    rw [evaluate_of_reduceClauses hls hds ho', deliberation_of_outcomes, deliberation_of_outcomes,
      hsteps, hsplit, hfirst, Run.bind_ok]
    rcases evaluateClauses env 0 ls with ⟨steps', f | os'⟩
    · refine ⟨rfl, rfl, ?_⟩
      rintro - d₂ ⟨⟩
    · obtain ⟨d₂, hd₂⟩ := Decision.exists_ofOutcomes os' n'
      obtain ⟨d, hd⟩ := Decision.exists_ofOutcomes (os ++ os'.map (Outcome.shift cs.length)) n
      simp only [Run.map, Except.map, Run.bind_ok, Run.pure, hd, hd₂, List.append_nil]
      refine ⟨trivial, rfl, ?_⟩
      rintro rfl d₂' ⟨⟩
      obtain ⟨d', hd', hjoins⟩ := Decision.exists_joins_of_ofOutcomes hd₁ hd₂ cs.length
      rw [hd] at hd'
      cases hd'
      exact ⟨d, rfl, hjoins⟩

/-- The program has been read from a text. Its groups may have been removed. -/
def IsRead (p : Program) : Prop :=
  ∃ text, Rule.program text = .ok p ∨ Rule.canonical text = .ok p

/-- What has been read is free of faults, unless the number of the last clause is too long. -/
theorem IsRead.exists_reduceClauses {p : Program} (h : p.IsRead)
    (hlength : p.otherwise.result.value.text.length ≤ Integer.maxDigits) :
  (∃ ks, reduceClauses p.clauses = .ok ks) ∧ ∃ n, p.otherwise.Returns n
  := by
  obtain ⟨text, hp | hq⟩ := h
  · obtain ⟨q, hreduce, hq⟩ := Rule.exists_reduce_of_program hp
    obtain ⟨hclauses, -, hotherwise⟩ := reduce_eq_ok hreduce
    have hlast := (Grammar.canonical_of_rule hq).otherwise
    rw [hotherwise] at hlast
    exact ⟨⟨_, hclauses⟩, hlast.result.exists_clauseValue hlength hlast.keyword⟩
  · have hcanonical := Grammar.canonical_of_rule hq
    constructor
    · apply exists_reduceClauses_of_reducible
      intro c hc
      apply (hcanonical.clauses c hc).condition.wellFormed.reducible
    · apply hcanonical.otherwise.result.exists_clauseValue hlength hcanonical.otherwise.keyword

/-- The number that a program decides is returned by its last clause, or would be if the last clause
had the number of the clause that is selected. -/
theorem exists_returns_value {p : Program} {env : Environment} {d : Decision}
    (h : (p.evaluate env).result = .ok d) :
  ∃ o : Otherwise, o.Returns d.value
  := by
  obtain ⟨ks, n, os, hks, hn, hos, hd⟩ := exists_of_evaluate_eq_ok h
  have htells := tells_of_evaluateClauses (reducesTo_of_reduceClauses hks) hos
  rw [Decision.ofOutcomes] at hd
  cases hfind : os.reverse.find? (·.matched) with
  | some o =>
    simp only [hfind] at hd
    cases hd
    have hmem : o ∈ os := List.mem_reverse.mp (List.mem_of_find?_eq_some hfind)
    obtain ⟨c, -, hclause⟩ := exists_mem_of_forall₂ htells hmem
    use ⟨p.otherwise.keyword, c.1.result⟩
    rw [Otherwise.Returns, clauseValue, (return_of_clauseValue hn).1]
    exact hclause.value
  | none =>
    simp only [hfind] at hd
    cases hd
    exact ⟨p.otherwise, hn⟩

/-- If a program makes a decision, then there is one outcome for each clause, in the order of the
clauses, and the last of them whose condition holds is selected, or the last clause if there is
none. If the clauses are divided in two, then the first part makes a decision, and so does the
second part with a last clause that returns what the first part has decided; the decision and the
steps of the program are those of the two parts, the clauses of the second part being counted on
from the first. A program that has been read, and whose last clause returns a number that is not too
long, fails if one of its parts does, and as the first part does if that fails. -/
theorem selection_of_parts (p : Program) (env : Environment) :
  (∀ d, (p.evaluate env).result = .ok d →
      List.Forall₂ (fun c o => o.Tells env c.2 c.1) p.clauses.zipIdx d.outcomes
        ∧ (∃ n, p.otherwise.Returns n ∧ d.Selects n)
        ∧ ∀ cs ds, p.clauses = cs ++ ds → cs ≠ [] → ds ≠ [] →
          ∃ d₁, ((Program.mk cs p.otherwise).evaluate env).result = .ok d₁
            ∧ (∃ o : Otherwise, o.Returns d₁.value)
            ∧ ∀ o : Otherwise, o.Returns d₁.value →
              ∃ d₂, ((Program.mk ds o).evaluate env).result = .ok d₂
                ∧ d₁.Joins cs.length d₂ d
                ∧ (p.evaluate env).deliberation =
                  ((Program.mk cs p.otherwise).evaluate env).deliberation
                    ++ ((Program.mk ds o).evaluate env).deliberation.map (Step.shift cs.length))
    ∧ (p.IsRead → p.otherwise.result.value.text.length ≤ Integer.maxDigits →
      ∀ cs ds, p.clauses = cs ++ ds → cs ≠ [] → ds ≠ [] →
        ∀ (o : Otherwise) (n : Int), o.Returns n →
          Failure.of? (p.evaluate env).result =
            (Failure.of? ((Program.mk cs p.otherwise).evaluate env).result).or
              (Failure.of? ((Program.mk ds o).evaluate env).result))
  := by
  obtain ⟨clauses, otherwise⟩ := p
  constructor
  · intro d hd
    obtain ⟨ks, n, os, hks, hn, -, -⟩ := exists_of_evaluate_eq_ok hd
    obtain ⟨htells, hselects⟩ := selects_of_evaluate hd
    refine ⟨htells, hselects, ?_⟩
    · rintro cs ds rfl hcs hds
      have hparts := evaluate_append hks hcs hds hn env
      cases hfirst : ((Program.mk cs otherwise).evaluate env).result with
      | error f =>
        rw [hfirst] at hparts
        have herror : ((Program.mk (cs ++ ds) otherwise).evaluate env).result = .error f := by
          rw [hparts, hfirst]
        rw [hd] at herror
        cases herror
      | ok d₁ =>
        rw [hfirst] at hparts
        refine ⟨d₁, rfl, exists_returns_value hfirst, ?_⟩
        intro o ho
        obtain ⟨hsteps, hfailure, hvalue⟩ := hparts o d₁.value ho
        cases hsecond : ((Program.mk ds o).evaluate env).result with
        | error f =>
          rw [hd, hsecond] at hfailure
          cases hfailure
        | ok d₂ =>
          obtain ⟨d', hd', hjoins⟩ := hvalue rfl d₂ hsecond
          rw [hd] at hd'
          cases hd'
          exact ⟨d₂, rfl, hjoins, hsteps⟩
  · rintro hread hlength cs ds rfl hcs hds o n ho
    obtain ⟨⟨ks, hks⟩, n', hn'⟩ := hread.exists_reduceClauses hlength
    have hparts := evaluate_append hks hcs hds hn' env
    cases hfirst : ((Program.mk cs otherwise).evaluate env).result with
    | error f =>
      rw [hfirst] at hparts
      rw [hparts, hfirst]
      rfl
    | ok d₁ =>
      rw [hfirst] at hparts
      obtain ⟨-, hfailure, -⟩ := hparts o n ho
      rw [hfailure]
      rfl

end Program

/-- A rule with two clauses. -/
def twofoldRule : String :=
  "IF (a > 0) RETURN 1 IF (IS-MISSING(b)) RETURN 2 ELSE RETURN 3"

/-- The first clause of `twofoldRule`. -/
def comparingClause : Clause :=
  ⟨⟨.keyword .ifWord, "IF", 0, 1, 1⟩, .compare "a" (.known .gt) 0,
    ⟨⟨.keyword .returnWord, "RETURN", 11, 1, 12⟩, ⟨.number, "1", 18, 1, 19⟩⟩⟩

/-- The second clause of `twofoldRule`. -/
def testingClause : Clause :=
  ⟨⟨.keyword .ifWord, "IF", 20, 1, 21⟩, .missing "b",
    ⟨⟨.keyword .returnWord, "RETURN", 39, 1, 40⟩, ⟨.number, "2", 46, 1, 47⟩⟩⟩

/-- The program that `twofoldRule` writes. -/
def twofoldProgram : Program where
  clauses := [comparingClause, testingClause]
  otherwise :=
    ⟨⟨.keyword .elseWord, "ELSE", 48, 1, 49⟩,
      ⟨⟨.keyword .returnWord, "RETURN", 53, 1, 54⟩, ⟨.number, "3", 60, 1, 61⟩⟩⟩

/-- The last clause of `twofoldProgram` with the number that its first part decides where `a` has
the value 1. -/
def decidedOtherwise : Otherwise :=
  ⟨⟨.keyword .elseWord, "ELSE", 48, 1, 49⟩, comparingClause.result⟩

/-- What `twofoldProgram` decides where `a` has the value 1 and `b` is absent. -/
def twofoldDecision : Decision :=
  ⟨2, some 1, [⟨0, true, 1⟩, ⟨1, true, 2⟩]⟩

/-- Where `a` has the value 1 and `b` is absent, both clauses of the rule hold, and the second one
is selected, as it is by itself. Where nothing is bound, the rule fails as its first clause does. -/
theorem selection_of_parts_twofoldProgram :
  (twofoldProgram.evaluate oneBound).result = .ok twofoldDecision
    ∧ twofoldDecision.Selects 3
    ∧ decidedOtherwise.Returns 1
    ∧ (∃ d₁ d₂ : Decision,
      ((Program.mk [testingClause] decidedOtherwise).evaluate oneBound).result = .ok d₂
        ∧ d₁.Joins 1 d₂ twofoldDecision)
    ∧ twofoldProgram.IsRead
    ∧ Failure.of? (twofoldProgram.evaluate .empty).result = some (Fault.undefined "a" "a > 0")
  := by
  have hdecision : (twofoldProgram.evaluate oneBound).result = .ok twofoldDecision := by rfl
  have hotherwise : twofoldProgram.otherwise.Returns 3 := by rfl
  have hdecided : decidedOtherwise.Returns 1 := by rfl
  have hread : twofoldProgram.IsRead := ⟨twofoldRule, Or.inl (by rfl)⟩
  have hparts : twofoldProgram.clauses = [comparingClause] ++ [testingClause] := by rfl
  obtain ⟨-, ⟨n, hn, hselects⟩, hjoined⟩ :=
    (Program.selection_of_parts twofoldProgram oneBound).1 twofoldDecision hdecision
  obtain ⟨d₁, hd₁, -, hsecond⟩ := hjoined _ _ hparts (by simp) (by simp)
  refine ⟨hdecision, ?_, hdecided, ?_, hread, ?_⟩
  · cases hn.symm.trans hotherwise
    exact hselects
  · cases hd₁
    obtain ⟨d₂, hd₂, hjoins, -⟩ := hsecond decidedOtherwise hdecided
    exact ⟨_, d₂, hd₂, hjoins⟩
  · rw [(Program.selection_of_parts twofoldProgram .empty).2 hread (by decide) _ _ hparts (by simp)
      (by simp) _ _ hotherwise]
    rfl

end Verdict
