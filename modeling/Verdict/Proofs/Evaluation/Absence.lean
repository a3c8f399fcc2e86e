import Verdict.Proofs.Evaluation.Lookups
import Verdict.Proofs.Evaluation.Writing
import Verdict.Proofs.Grammar.Acceptance

/-!
# Absent variables

A rule that has been accepted can fail in one way only where all integers are written: a comparison
is reached whose variable is absent. `Condition.comparisons` lists the comparisons that are reached,
and `Condition.holds` is the truth value of a condition when a comparison with an absent variable
counts as false. Neither speaks of failures; up to the first absent variable they follow the
evaluation, which fails there.
-/

namespace Verdict

/-- A comparison of a condition. -/
structure Comparison where
  name : String
  op : Operator Relation
  literal : Int
  deriving DecidableEq

/-- The text of a comparison. -/
def Comparison.text (c : Comparison) : String :=
  Condition.comparisonText c.name c.op c.literal

/-- The failure of a comparison whose variable is absent. -/
def Comparison.undefined (c : Comparison) : Failure :=
  Fault.undefined c.name c.text

/-- The first comparison whose variable is absent. -/
def firstAbsent? (env : Environment) (cs : List Comparison) : Option Comparison :=
  cs.find? fun c => (env.value? c.name).isNone

theorem firstAbsent?_append (env : Environment) (cs ds : List Comparison) :
  firstAbsent? env (cs ++ ds) = (firstAbsent? env cs).or (firstAbsent? env ds)
  := List.find?_append

/-- What is wrong with a comparison: its variable is absent, or else its operator is unknown. -/
def Comparison.fault? (env : Environment) (c : Comparison) : Option Failure :=
  match env.value? c.name, c.op with
  | none, _ => some c.undefined
  | some _, .foreign text => some (Fault.malformed (.relation text))
  | some _, .known _ => none

/-- Where all operators are known, only a variable can be at fault. -/
theorem findSome?_fault? {env : Environment} {cs : List Comparison}
    (h : ∀ c ∈ cs, c.op.isKnown = true) :
  cs.findSome? (Comparison.fault? env) = (firstAbsent? env cs).map Comparison.undefined
  := by
  induction cs with
  | nil => rfl
  | cons c cs ih =>
    rw [List.forall_mem_cons] at h
    rw [List.findSome?_cons, firstAbsent?, List.find?_cons, Comparison.fault?]
    cases env.value? c.name with
    | none => rfl
    | some v =>
      rcases c with ⟨name, r | text, literal⟩
      · exact ih h.2
      · cases h.1

namespace Condition

/-- The truth value of a condition when a comparison with an absent variable counts as false. -/
def holds (env : Environment) : Condition → Bool
  | .compare name (.known r) literal => (env.value? name).any fun v => v.stands r literal
  | .compare _ (.foreign _) _ => false
  | .missing name => isMissing (env.value? name)
  | .join (.known .and) left right => left.holds env && right.holds env
  | .join (.known .or) left right => left.holds env || right.holds env
  | .join (.foreign _) _ _ => false
  | .group inner => inner.holds env
  | .alien _ => false

/-- The comparisons that are reached from the left to the right: those on the right side of a
connective unless the left side settles the value. -/
def comparisons (env : Environment) : Condition → List Comparison
  | .compare name op literal => [⟨name, op, literal⟩]
  | .missing _ => []
  | .join (.known c) left right =>
    left.comparisons env ++ if left.holds env = c.deciding then [] else right.comparisons env
  | .join (.foreign _) left _ => left.comparisons env
  | .group inner => inner.comparisons env
  | .alien _ => []

/-- The names that occur in the comparisons of a condition. -/
def comparedNames : Condition → List String
  | .compare name _ _ => [name]
  | .missing _ => []
  | .join _ left right => left.comparedNames ++ right.comparedNames
  | .group inner => inner.comparedNames
  | .alien _ => []

/-- The names of the comparisons that are reached occur in comparisons. -/
theorem name_mem_comparedNames {env : Environment} {e : Condition} {c : Comparison}
    (h : c ∈ e.comparisons env) :
  c.name ∈ e.comparedNames
  := by
  induction e with
  | compare name op literal =>
    obtain rfl := List.mem_singleton.mp h
    apply List.mem_singleton_self
  | missing name => cases h
  | join op left right ihleft ihright =>
    rw [comparedNames, List.mem_append]
    cases op with
    | foreign text => exact Or.inl (ihleft h)
    | known k =>
      rcases List.mem_append.mp h with hleft | hright
      · exact Or.inl (ihleft hleft)
      · split at hright
        · cases hright
        · exact Or.inr (ihright hright)
  | group inner ih => apply ih h
  | alien typeName => cases h

/-- A connective has the value of its left side if that settles it, and of its right side
otherwise. -/
theorem holds_join (env : Environment) (c : Connective) (left right : Condition) :
  (join (.known c) left right).holds env =
    if left.holds env = c.deciding then left.holds env else right.holds env
  := by
  cases c
  all_goals
    rw [holds, Connective.deciding]
    cases left.holds env
    all_goals rfl

/-- The evaluation of a condition without groups fails at the first comparison that is reached and
has a fault, and otherwise gives the truth value of the condition. All integers are written. -/
theorem Reducible.evaluate_result {e : Condition} (h : e.Reducible) (hfree : e.GroupFree)
    (hwritable : e.IsWritable) {env : Environment} (henv : env.IsWritable) :
  (e.evaluate env).result =
    match (e.comparisons env).findSome? (Comparison.fault? env) with
    | none => .ok (e.holds env)
    | some f => .error f
  := by
  induction e with
  | compare name op literal =>
    rw [comparisons, List.findSome?_singleton, Comparison.fault?]
    cases hvalue : env.value? name with
    | none =>
      rw [evaluate_absent hvalue hwritable]
      rfl
    | some v =>
      cases op with
      | foreign text =>
        rw [evaluate, hvalue]
        rfl
      | known r =>
        rw [evaluate_present hvalue (henv.of_value? hvalue) r hwritable, holds, hvalue]
        rfl
  | missing name =>
    rw [evaluate_missing henv]
    rfl
  | join op left right ihleft ihright =>
    obtain ⟨hop, hleft, hright⟩ := h
    cases op with
    | foreign text => cases hop
    | known c =>
      have hl := ihleft hleft hfree.1 hwritable.1
      have hr := ihright hright hfree.2 hwritable.2
      rw [evaluate, Run.result_bind, hl, comparisons, List.findSome?_append, holds_join]
      cases (left.comparisons env).findSome? (Comparison.fault? env) with
      | some f => rfl
      | none =>
        by_cases hb : left.holds env = c.deciding
        · simp [Except.bind, hb, Run.say]
        · simp [Except.bind, hb, hr]
  | group inner => exact hfree.elim
  | alien typeName => exact h.elim

/-- The operators of the comparisons of a well-formed condition are known. -/
theorem WellFormed.isKnown_of_mem {e : Condition} (h : e.WellFormed) {env : Environment}
    {c : Comparison} (hc : c ∈ e.comparisons env) :
  c.op.isKnown = true
  := by
  induction e with
  | compare name op literal =>
    obtain rfl := List.mem_singleton.mp hc
    exact h.1
  | missing name => cases hc
  | join op left right ihleft ihright =>
    cases op with
    | foreign text => exact ihleft h.2.1 hc
    | known k =>
      rcases List.mem_append.mp hc with hleft | hright
      · exact ihleft h.2.1 hleft
      · split at hright
        · cases hright
        · exact ihright h.2.2 hright
  | group inner ih => apply ih h hc
  | alien typeName => cases hc

/-- The evaluation of a condition fails at the first comparison that is reached with its variable
absent, and otherwise gives the truth value of the condition. All integers are written. -/
theorem evaluate_result {e : Condition} (h : e.WellFormed) (hfree : e.GroupFree)
    (hwritable : e.IsWritable) {env : Environment} (henv : env.IsWritable) :
  (e.evaluate env).result =
    match firstAbsent? env (e.comparisons env) with
    | none => .ok (e.holds env)
    | some c => .error c.undefined
  := by
  rw [h.reducible.evaluate_result hfree hwritable henv, findSome?_fault? fun c => h.isKnown_of_mem]
  cases firstAbsent? env (e.comparisons env) with
  | none => rfl
  | some c => rfl

end Condition

/-! ### Programs -/

namespace Program

/-- The comparisons that are reached, clause by clause. -/
def comparisons (env : Environment) (p : Program) : List Comparison :=
  p.clauses.flatMap (·.condition.comparisons env)

/-- The names that occur in the comparisons of a program. -/
def comparedNames (p : Program) : List String :=
  p.clauses.flatMap (·.condition.comparedNames)

/-- The names of the comparisons that are reached occur in comparisons. -/
theorem name_mem_comparedNames {env : Environment} {p : Program} {c : Comparison}
    (h : c ∈ p.comparisons env) :
  c.name ∈ p.comparedNames
  := by
  obtain ⟨k, hk, hc⟩ := List.mem_flatMap.mp h
  exact List.mem_flatMap.mpr ⟨k, hk, Condition.name_mem_comparedNames hc⟩

end Program

/-- A keyword in its place is found to be one. -/
theorem Keyword.check_of_writes {k : Keyword} {t : Token} (h : t.Writes (.keyword k)) :
  k.check t = .ok ()
  := by
  have htext : t.text = k.text := by
    rw [← String.toList_inj]
    have hlexeme := h.lexeme
    cases k
    all_goals exact hlexeme
  rw [check, if_pos ⟨h.kind_eq, htext⟩]

/-- The keywords being in their places, the number of a clause is the one that it returns. -/
theorem Return.Canonical.clauseValue_eq {r : Return} (h : r.Canonical) {k : Keyword} {t : Token}
    (ht : t.Writes (.keyword k)) :
  clauseValue k t r = r.number.mapError .integer
  := by
  simp only [clauseValue, Keyword.check_of_writes ht, Return.evaluate,
    Keyword.check_of_writes h.keyword, if_pos h.value.kind_eq]

/-- A number to return that is not too long is read. -/
theorem Return.Canonical.exists_clauseValue {r : Return} (h : r.Canonical)
    (hlength : r.value.text.length ≤ Integer.maxDigits) {k : Keyword} {t : Token}
    (ht : t.Writes (.keyword k)) :
  ∃ n, clauseValue k t r = .ok n
  := by
  rw [h.clauseValue_eq ht, h.number_eq, if_neg (Nat.not_lt.mpr hlength)]
  exact ⟨_, rfl⟩

/-- The evaluation of canonical clauses whose numbers can be read fails at the first comparison
that is reached with its variable absent, and otherwise gives outcomes. -/
theorem evaluateClauses_result {cs : List Clause} (h : ∀ c ∈ cs, c.Canonical)
    (hlength : ∀ c ∈ cs, c.result.value.text.length ≤ Integer.maxDigits) {env : Environment}
    (henv : env.IsWritable) (index : Nat) :
  match firstAbsent? env (cs.flatMap (·.condition.comparisons env)) with
  | none => ∃ outcomes, (evaluateClauses env index cs).result = .ok outcomes
  | some c => (evaluateClauses env index cs).result = .error c.undefined
  := by
  induction cs generalizing index with
  | nil => exact ⟨[], rfl⟩
  | cons c cs ih =>
    rw [List.forall_mem_cons] at h hlength
    obtain ⟨hc, hcs⟩ := h
    have hrest := ih hcs hlength.2 (index + 1)
    obtain ⟨value, hvalue⟩ := hc.result.exists_clauseValue hlength.1 hc.keyword
    have hcondition :=
      Condition.evaluate_result hc.condition.wellFormed hc.condition.groupFree
        hc.condition.isWritable henv
    rw [List.flatMap_cons, firstAbsent?_append]
    rw [evaluateClauses, Clause.evaluate, hvalue]
    simp only [Run.ofExcept, Run.result_bind, hcondition]
    cases firstAbsent? env (c.condition.comparisons env) with
    | some c => rfl
    | none =>
      simp only [Except.bind, Run.say, Option.none_or]
      cases hfirst : firstAbsent? env (cs.flatMap (·.condition.comparisons env)) with
      | some d =>
        rw [hfirst] at hrest
        rw [hrest]
      | none =>
        rw [hfirst] at hrest
        obtain ⟨outcomes, houtcomes⟩ := hrest
        simp only [houtcomes]
        exact ⟨_, rfl⟩

theorem Decision.exists_ofOutcomes (outcomes : List Outcome) (otherwise : Int) :
  ∃ d, (ofOutcomes outcomes otherwise).result = .ok d
  := by
  rw [ofOutcomes]
  split
  all_goals exact ⟨_, rfl⟩

/-- The value of a rule is that of the program that it writes. -/
theorem Rule.evaluate_of_program {text : String} {p : Program} (h : Rule.program text = .ok p)
    (env : Environment) :
  Rule.evaluate text env = p.evaluate env
  := by
  rw [Rule.evaluate, Rule.evaluateIn, h]
  rfl

/-- The evaluation of a program whose groups have been removed. -/
theorem Program.evaluate_of_reduce {p q : Program} (h : p.reduce = .ok q) (env : Environment) :
  p.evaluate env =
    (evaluateClauses env 0 q.clauses).bind fun outcomes =>
      (Run.ofExcept (clauseValue .elseWord q.otherwise.keyword q.otherwise.result)).bind
        fun otherwise => Decision.ofOutcomes outcomes otherwise
  := by
  rw [evaluate, h]
  rfl

/-- A rule that has been accepted and whose numbers to return can be read is evaluated to a
decision, unless a comparison is reached whose variable is absent. The first such comparison is
undefined, and that is the failure of the rule. -/
theorem evaluate_of_canonical {text : String} {q : Program} (h : Rule.canonical text = .ok q)
    (hlength : ∀ r ∈ q.returns, r.value.text.length ≤ Integer.maxDigits) {env : Environment}
    (henv : env.IsWritable) :
  match firstAbsent? env (q.comparisons env) with
  | none => ∃ d, (Rule.evaluate text env).result = .ok d
  | some c => (Rule.evaluate text env).result = .error c.undefined
  := by
  have hcanonical := Grammar.canonical_of_rule h
  obtain ⟨p, hprogram, hreduce⟩ := Grammar.exists_program_of_canonical h
  rw [Program.forall_mem_returns] at hlength
  have hclauses := evaluateClauses_result hcanonical.clauses hlength.1 henv 0
  obtain ⟨otherwise, hotherwise⟩ :=
    hcanonical.otherwise.result.exists_clauseValue hlength.2 hcanonical.otherwise.keyword
  rw [Rule.evaluate_of_program hprogram, Program.evaluate_of_reduce hreduce, Program.comparisons,
    hotherwise]
  simp only [Run.result_bind]
  cases hfirst : firstAbsent? env (q.clauses.flatMap (·.condition.comparisons env)) with
  | some c =>
    rw [hfirst] at hclauses
    rw [hclauses]
    rfl
  | none =>
    rw [hfirst] at hclauses
    obtain ⟨outcomes, houtcomes⟩ := hclauses
    rw [houtcomes]
    apply Decision.exists_ofOutcomes

/-- A rule that has been accepted and whose numbers to return can be read is evaluated, where the
integers of the environment have few enough digits to be written, to a decision, or fails because a
variable is undefined. The variable is absent, and it is that of the first comparison that is
reached with its variable absent, clause by clause and from the left to the right. If the variables
of all comparisons of the rule are present, there is a decision. -/
theorem evaluate_or_undefined {text : String} {q : Program} (h : Rule.canonical text = .ok q)
    (hlength : ∀ r ∈ q.returns, r.value.text.length ≤ Integer.maxDigits) {env : Environment}
    (henv : env.IsWritable) :
  ((∃ d, (Rule.evaluate text env).result = .ok d)
        ∧ firstAbsent? env (q.comparisons env) = none
      ∨ ∃ c, firstAbsent? env (q.comparisons env) = some c ∧ env.value? c.name = none
        ∧ (Rule.evaluate text env).result = .error (Fault.undefined c.name c.text))
    ∧ ((∀ x ∈ q.comparedNames, env.value? x ≠ none) →
        ∃ d, (Rule.evaluate text env).result = .ok d)
  := by
  have hresult := evaluate_of_canonical h hlength henv
  constructor
  · cases hfirst : firstAbsent? env (q.comparisons env) with
    | none =>
      rw [hfirst] at hresult
      exact Or.inl ⟨hresult, rfl⟩
    | some c =>
      rw [hfirst] at hresult
      have habsent := List.find?_some hfirst
      exact Or.inr ⟨c, rfl, Option.isNone_iff_eq_none.mp habsent, hresult⟩
  · intro hpresent
    have hfirst : firstAbsent? env (q.comparisons env) = none := by
      rw [firstAbsent?, List.find?_eq_none]
      intro c hc habsent
      apply hpresent c.name (Program.name_mem_comparedNames hc)
      apply Option.isNone_iff_eq_none.mp habsent
    rw [hfirst] at hresult
    exact hresult

/-- The rule that writes `eitherProgram`. -/
def eitherRule : String :=
  "IF (a > 0 OR b > 0) RETURN 1 ELSE RETURN 2"

/-- The name `a` has the value 0, and nothing else is bound. -/
def zeroBound : Environment :=
  Environment.empty.set "a" (some (.integer 0))

/-- Where only `a` has a value, the comparison with `b` is undefined if it is reached. -/
theorem evaluate_or_undefined_eitherRule :
  Rule.canonical eitherRule = .ok eitherProgram
    ∧ (∀ r ∈ eitherProgram.returns, r.value.text.length ≤ Integer.maxDigits)
    ∧ (oneBound.IsWritable ∧ zeroBound.IsWritable ∧ crowdedBound.IsWritable)
    ∧ (∃ d, (Rule.evaluate eitherRule oneBound).result = .ok d)
    ∧ (Rule.evaluate eitherRule zeroBound).result = .error (Fault.undefined "b" "b > 0")
    ∧ (∀ x ∈ eitherProgram.comparedNames, crowdedBound.value? x ≠ none)
    ∧ ∃ d, (Rule.evaluate eitherRule crowdedBound).result = .ok d
  := by
  have h : Rule.canonical eitherRule = .ok eitherProgram := by rfl
  have hlength : ∀ r ∈ eitherProgram.returns, r.value.text.length ≤ Integer.maxDigits := by decide
  have hone : oneBound.IsWritable := Environment.isWritable_of_entries (by decide)
  have hzero : zeroBound.IsWritable := Environment.isWritable_of_entries (by decide)
  have hcrowded : crowdedBound.IsWritable := Environment.isWritable_of_entries (by decide)
  have hpresent : ∀ x ∈ eitherProgram.comparedNames, crowdedBound.value? x ≠ none := by decide
  refine ⟨h, hlength, ⟨hone, hzero, hcrowded⟩, ?_, ?_, hpresent,
    (evaluate_or_undefined h hlength hcrowded).2 hpresent⟩
  · rcases (evaluate_or_undefined h hlength hone).1 with hok | ⟨c, hfirst, -⟩
    · exact hok.1
    · cases hfirst
  · rcases (evaluate_or_undefined h hlength hzero).1 with ⟨-, hfirst⟩ | ⟨c, hfirst, -, hresult⟩
    · cases hfirst
    · cases hfirst
      exact hresult

end Verdict
