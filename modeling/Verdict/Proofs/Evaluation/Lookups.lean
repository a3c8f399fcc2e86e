import Verdict.Evaluation.Basic
import Verdict.Proofs.Environment.Binding
import Verdict.Proofs.Program.Reduction

/-!
# Lookups

`Condition.lookups` is the list of the names that an evaluation looks up, in their order. The
right side of a connective is left out together with the names in it, when the left side settles
the value or has none. `Program.lookups` goes on from clause to clause until an evaluation fails.
An evaluation depends on the values of the names that it looks up, and on no others: neither on
names that do not occur, nor on those that occur only where the evaluation does not come.

Every lookup leaves its mark. `Run.names` are the names that the steps of a run tell the values
of, and behind them the name at which it failed: one that is undefined, or that has a value with too
many digits to be written.
-/

namespace Verdict

/-- The right side of a connective is evaluated after a left side with the given result. -/
def Operator.goesOn (op : Operator Connective) : Except Failure Bool → Bool
  | .error _ => false
  | .ok b =>
    match op with
    | .known c => b != c.deciding
    | .foreign _ => false

namespace Condition

/-- The names that are looked up when a condition is evaluated. -/
def lookups (env : Environment) : Condition → List String
  | .compare name _ _ => [name]
  | .missing name => [name]
  | .join op left right =>
    left.lookups env ++
      if op.goesOn (left.evaluate env).result then right.lookups env else []
  | .group _ => []
  | .alien _ => []

/-- An environment in which the names that are looked up have the same values gives the same
run. -/
theorem evaluate_congr {env env' : Environment} {e : Condition}
    (h : ∀ x ∈ e.lookups env, env'.value? x = env.value? x) :
  e.evaluate env' = e.evaluate env
  := by
  induction e with
  | compare name op literal => rw [evaluate, evaluate, h name List.mem_cons_self]
  | missing name => rw [evaluate, evaluate, h name List.mem_cons_self]
  | join op left right ihleft ihright =>
    rw [lookups, List.forall_mem_append] at h
    obtain ⟨hleft, hright⟩ := h
    rw [evaluate, evaluate, ihleft hleft]
    rcases hrun : left.evaluate env with ⟨steps, f | b⟩
    · rfl
    · rw [hrun] at hright
      cases op with
      | foreign text => rfl
      | known c =>
        cases hgoes : (Operator.known c).goesOn (.ok b) with
        | true =>
          rw [if_pos hgoes] at hright
          rw [ihright hright]
        | false =>
          have hb : b = c.deciding := by simpa [Operator.goesOn] using hgoes
          simp only [Run.bind, if_pos hb]
  | group inner => rfl
  | alien typeName => rfl

/-- The names that occur in a condition. -/
def names : Condition → List String
  | .compare name _ _ => [name]
  | .missing name => [name]
  | .join _ left right => left.names ++ right.names
  | .group inner => inner.names
  | .alien _ => []

/-- Only names that occur are looked up. -/
theorem lookups_subset_names (env : Environment) (e : Condition) :
  e.lookups env ⊆ e.names
  := by
  induction e with
  | compare name op literal => apply List.Subset.refl
  | missing name => apply List.Subset.refl
  | join op left right ihleft ihright =>
    rw [lookups, names]
    apply List.append_subset.mpr
    constructor
    · apply List.Subset.trans ihleft (List.subset_append_left _ _)
    · split
      · apply List.Subset.trans ihright (List.subset_append_right _ _)
      · apply List.nil_subset
  | group inner => apply List.nil_subset
  | alien typeName => apply List.nil_subset

/-- A condition has the names that occur in it when its groups are removed. -/
theorem names_reduce {e e' : Condition} (h : e.reduce = .ok e') :
  e'.names = e.names
  := by
  induction e, e', h using reduce_induction with
  | compare | missing => rfl
  | join op l l' r r' hl hr hop ihl ihr => rw [names, names, ihl, ihr]
  | group e e' h ih => exact ih

end Condition

/-! ### Programs -/

/-- The names that are looked up when clauses are evaluated one after the other. A clause whose
keyword or number is malformed ends the evaluation before its condition, and a condition without
a value ends it there. -/
def clauseLookups (env : Environment) : List Clause → List String
  | [] => []
  | c :: cs =>
    match clauseValue .ifWord c.keyword c.result with
    | .error _ => []
    | .ok _ =>
      c.condition.lookups env ++
        if (c.condition.evaluate env).result.isOk then clauseLookups env cs else []

/-- Environments that agree on the names that are looked up give the same outcomes. -/
theorem evaluateClauses_congr {env env' : Environment} {cs : List Clause}
    (h : ∀ x ∈ clauseLookups env cs, env'.value? x = env.value? x) (index : Nat) :
  evaluateClauses env' index cs = evaluateClauses env index cs
  := by
  induction cs generalizing index with
  | nil => rfl
  | cons c cs ih =>
    rw [evaluateClauses, evaluateClauses, Clause.evaluate, Clause.evaluate]
    rw [clauseLookups] at h
    cases hvalue : clauseValue .ifWord c.keyword c.result with
    | error f => rfl
    | ok value =>
      simp only [hvalue, List.forall_mem_append] at h
      obtain ⟨hcondition, hrest⟩ := h
      rw [Condition.evaluate_congr hcondition]
      rcases hrun : c.condition.evaluate env with ⟨steps, f | b⟩
      · rfl
      · rw [hrun] at hrest
        rw [ih hrest]

/-- Only names that occur are looked up. -/
theorem clauseLookups_subset (env : Environment) (cs : List Clause) :
  clauseLookups env cs ⊆ cs.flatMap (·.condition.names)
  := by
  induction cs with
  | nil => apply List.nil_subset
  | cons c cs ih =>
    rw [clauseLookups, List.flatMap_cons]
    split
    · apply List.nil_subset
    · apply List.append_subset.mpr
      constructor
      · apply List.Subset.trans (c.condition.lookups_subset_names env)
          (List.subset_append_left _ _)
      · split
        · apply List.Subset.trans ih (List.subset_append_right _ _)
        · apply List.nil_subset

namespace Program

/-- The names that are looked up when a program is evaluated. -/
def lookups (env : Environment) (p : Program) : List String :=
  match p.reduce with
  | .error _ => []
  | .ok q => clauseLookups env q.clauses

/-- The names that occur in the conditions of a program. -/
def names (p : Program) : List String :=
  p.clauses.flatMap (·.condition.names)

theorem names_reduceClauses {cs ks : List Clause} (h : reduceClauses cs = .ok ks) :
  ks.flatMap (·.condition.names) = cs.flatMap (·.condition.names)
  := by
  induction cs generalizing ks with
  | nil =>
    cases h
    rfl
  | cons c cs ih =>
    obtain ⟨e, ks', hreduce, hrest, rfl⟩ := reduceClauses_cons h
    rw [List.flatMap_cons, List.flatMap_cons, ih hrest, Condition.names_reduce hreduce]

/-- Only names that occur are looked up. -/
theorem lookups_subset_names (env : Environment) (p : Program) :
  p.lookups env ⊆ p.names
  := by
  rw [lookups]
  split
  · apply List.nil_subset
  · next q hreduce =>
    rw [names, ← names_reduceClauses (reduce_eq_ok hreduce).1]
    apply clauseLookups_subset

/-- Environments that agree on the names that are looked up give the same run. -/
theorem evaluate_congr_lookups {env env' : Environment} {p : Program}
    (h : ∀ x ∈ p.lookups env, env'.value? x = env.value? x) :
  p.evaluate env' = p.evaluate env
  := by
  rw [evaluate, evaluate]
  rw [lookups] at h
  cases hreduce : p.reduce with
  | error f => rfl
  | ok q =>
    simp only [hreduce] at h
    simp only [Run.bind, Run.ofExcept, evaluateClauses_congr h]

end Program

/-! ### The marks of lookups -/

/-- The name whose value a step tells. -/
def Step.name? : Step → Option String
  | .compared name .. => some name
  | .tested name .. => some name
  | _ => none

/-- The name that a failure found to be undefined, or whose value is not written. -/
def Failure.name? : Failure → Option String
  | .fault (.undefined name _) => some name
  | .integer (.unwritable name) => some name
  | _ => none

/-- A step that has no line fails at its name. -/
theorem Step.name?_of_fault? {s : Step} {f : Integer.Fault} (h : s.fault? = some f) :
  (Failure.integer f).name? = s.name?
  := by
  cases s with
  | compared | tested =>
    rw [fault?] at h
    split at h
    · cases h
    · cases h
      rfl
  | skipped | clause | selected | otherwise => cases h

namespace Run

/-- The names whose values the steps of a run tell, and behind them the name at which it failed. -/
def names {α : Type} (x : Run α) : List String :=
  x.steps.filterMap Step.name? ++
    match x.result with
    | .error f => f.name?.toList
    | .ok _ => []

theorem names_bind {α β : Type} (x : Run α) (f : α → Run β) :
  (x.bind f).names = x.names ++
    match x.result with
    | .error _ => []
    | .ok a => (f a).names
  := by
  rw [names, bind]
  cases h : x.result with
  | error e => simp [names, h]
  | ok a => simp [names, h]

/-- A step with a name tells that name, whether or not it has a line. -/
theorem names_tell {α : Type} (s : Step) (a : α) :
  (tell s a).names = s.name?.toList
  := by
  rcases say_or_fail_of_tell s a with hsay | ⟨f, hf, hfail⟩
  · rw [hsay, names, say, List.append_nil, List.filterMap_cons]
    cases s.name? with
    | none => rfl
    | some name => rfl
  · rw [hfail, names, fail, ← Step.name?_of_fault? hf]
    rfl

theorem ofExcept_ok_bind {α β : Type} (a : α) (f : α → Run β) :
  (ofExcept (.ok a)).bind f = f a
  := rfl

end Run

/-- A comparison whose variable is absent fails at the name of the variable. -/
theorem Condition.name?_absence (name : String) (op : Operator Relation) (literal : Int) :
  (absence name op literal).name? = some name
  := by
  rw [absence]
  split
  all_goals rfl

/-- The run of a comparison with a known relation tells of its name. -/
theorem Condition.names_compare (env : Environment) (name : String) (r : Relation) (literal : Int) :
  ((compare name (.known r) literal).evaluate env).names = [name]
  := by
  rw [evaluate]
  cases env.value? name with
  | none => exact congrArg Option.toList (name?_absence name (.known r) literal)
  | some v => apply Run.names_tell (.compared name r literal v _)

theorem Condition.names_missing (env : Environment) (name : String) :
  ((missing name).evaluate env).names = [name]
  := by
  apply Run.names_tell (.tested name _ _)

/-- A well-formed condition looks up the names that its run tells of. -/
theorem Condition.lookups_eq_names {e : Condition} (h : e.WellFormed) (env : Environment) :
  e.lookups env = (e.evaluate env).names
  := by
  induction e with
  | compare name op literal =>
    cases op with
    | foreign text => cases h.1
    | known r => rw [lookups, names_compare]
  | missing name => rw [lookups, names_missing]
  | join op left right ihleft ihright =>
    obtain ⟨hop, hleft, hright⟩ := h
    cases op with
    | foreign text => cases hop
    | known c =>
      rw [lookups, evaluate, ihleft hleft, ihright hright, Run.names_bind]
      cases (left.evaluate env).result with
      | error f => rfl
      | ok b =>
        by_cases hb : b = c.deciding
        · simp [Operator.goesOn, hb, Run.names, Run.say, Step.name?]
        · simp [Operator.goesOn, hb]
  | group inner ih => rfl
  | alien typeName => exact h.elim

/-- What is not read as an integer is no name. -/
theorem Integer.name?_of_read {text : String} {f : Integer.Fault}
    (h : Integer.read text = .error f) :
  (Failure.integer f).name? = none
  := by
  simp only [read] at h
  split_ifs at h
  all_goals
    cases h
    rfl

/-- A malformed keyword or number is no undefined name. -/
theorem name?_of_clauseValue {k : Keyword} {t : Token} {r : Return} {f : Failure}
    (h : clauseValue k t r = .error f) :
  f.name? = none
  := by
  rw [clauseValue, Keyword.check] at h
  split at h
  · next hcheck =>
    split at hcheck
    · cases hcheck
    · cases hcheck
      cases h
      rfl
  · rw [Return.evaluate, Keyword.check] at h
    split at h
    · next hcheck =>
      split at hcheck
      · cases hcheck
      · cases hcheck
        cases h
        rfl
    · split at h
      · cases hnumber : r.number with
        | error f' =>
          rw [hnumber] at h
          cases h
          apply Integer.name?_of_read hnumber
        | ok n =>
          rw [hnumber] at h
          cases h
      · cases h
        rfl

/-- Clauses with well-formed conditions look up the names that their run tells of. -/
theorem clauseLookups_eq_names {cs : List Clause} (h : ∀ c ∈ cs, c.condition.WellFormed)
    (env : Environment) (index : Nat) :
  clauseLookups env cs = (evaluateClauses env index cs).names
  := by
  induction cs generalizing index with
  | nil => rfl
  | cons c cs ih =>
    rw [List.forall_mem_cons] at h
    rw [clauseLookups, evaluateClauses, Clause.evaluate]
    cases hvalue : clauseValue .ifWord c.keyword c.result with
    | error f => simp [Run.names, Run.ofExcept, Run.bind, name?_of_clauseValue hvalue]
    | ok value =>
      -- neither the line of the clause nor the list of outcomes tells of a name
      have hline : ∀ matched, (Run.say (Step.clause index matched value)
          (Outcome.mk index matched value)).names = [] := fun matched => rfl
      have hcons : ∀ o, ((evaluateClauses env (index + 1) cs).bind fun os => .pure (o :: os)).names
          = (evaluateClauses env (index + 1) cs).names := by
        intro o
        rw [Run.names_bind]
        cases (evaluateClauses env (index + 1) cs).result with
        | error f => apply List.append_nil
        | ok os => apply List.append_nil
      rw [Condition.lookups_eq_names h.1, ih h.2 (index + 1), Run.ofExcept_ok_bind, Run.names_bind,
        Run.names_bind]
      simp only [hline, hcons]
      cases hresult : (c.condition.evaluate env).result with
      | error f => simp [Run.bind, hresult, Except.isOk, Except.toBool]
      | ok b => simp [Run.bind, hresult, Run.say, Except.isOk, Except.toBool]

theorem Decision.names_ofOutcomes (outcomes : List Outcome) (otherwise : Int) :
  (ofOutcomes outcomes otherwise).names = []
  := by
  rw [ofOutcomes]
  split
  all_goals rfl

/-- A well-formed program looks up the names that its run tells of. -/
theorem Program.lookups_eq_names {p : Program} (h : p.WellFormed) (env : Environment) :
  p.lookups env = (p.evaluate env).names
  := by
  obtain ⟨q, hreduce, hformed⟩ := h.exists_reduce
  rw [lookups, evaluate, hreduce, Run.ofExcept_ok_bind, Run.names_bind]
  change clauseLookups env q.clauses = _
  rw [clauseLookups_eq_names hformed env 0]
  cases (evaluateClauses env 0 q.clauses).result with
  | error f => symm; apply List.append_nil
  | ok outcomes =>
    cases hvalue : clauseValue .elseWord q.otherwise.keyword q.otherwise.result with
    | error f => simp [Run.names, Run.ofExcept, Run.bind, name?_of_clauseValue hvalue]
    | ok otherwise => simp [Run.ofExcept_ok_bind, Decision.names_ofOutcomes]

/-! ### What a run depends on -/

/-- The run of a program depends on the values of the names that are looked up and on nothing
else. If the conditions are well formed, these are the names that the run itself tells of, up to
its end or its failure. Environments that agree on them give the same run, so it makes no
difference whether a name is bound to no value or not bound, what value a name has that does not
occur, or what value a name has that is not looked up. -/
theorem Program.evaluate_eq_of_lookups (p : Program) (env : Environment) :
  (p.WellFormed → p.lookups env = (p.evaluate env).names)
    ∧ (∀ env', (∀ x ∈ p.lookups env, env'.value? x = env.value? x) →
        p.evaluate env' = p.evaluate env)
    ∧ (∀ x, env.value? x = none → p.evaluate (env.set x none) = p.evaluate env)
    ∧ (∀ x, x ∉ p.names → ∀ v, p.evaluate (env.set x v) = p.evaluate env)
    ∧ (∀ x, x ∉ p.lookups env → ∀ v, p.evaluate (env.set x v) = p.evaluate env)
  := by
  have hunread : ∀ x, x ∉ p.lookups env → ∀ v, p.evaluate (env.set x v) = p.evaluate env := by
    intro x hx v
    apply evaluate_congr_lookups
    intro y hy
    apply Environment.value?_set_of_ne
    exact ne_of_mem_of_not_mem hy hx
  refine ⟨?_, ?_, ?_, ?_, hunread⟩
  · intro h
    apply lookups_eq_names h
  · intro env' h
    apply evaluate_congr_lookups h
  · intro x hx
    apply evaluate_congr_lookups
    intro y _
    apply Environment.value?_set_none hx
  · intro x hx
    apply hunread
    intro hmem
    exact hx (p.lookups_subset_names env hmem)

/-- The program `IF (a > 0 OR b > 0) RETURN 1 ELSE RETURN 2`. -/
def eitherProgram : Program where
  clauses :=
    [⟨⟨.keyword .ifWord, "IF", 0, 1, 1⟩,
      .join (.known .or) (.compare "a" (.known .gt) 0) (.compare "b" (.known .gt) 0),
      ⟨⟨.keyword .returnWord, "RETURN", 20, 1, 21⟩, ⟨.number, "1", 27, 1, 28⟩⟩⟩]
  otherwise :=
    ⟨⟨.keyword .elseWord, "ELSE", 29, 1, 30⟩,
      ⟨⟨.keyword .returnWord, "RETURN", 34, 1, 35⟩, ⟨.number, "2", 41, 1, 42⟩⟩⟩

/-- The name `a` has the value 1, and nothing else is bound. -/
def oneBound : Environment :=
  Environment.empty.set "a" (some (.integer 1))

/-- The name `a` has the value 1, and other names have values as well. -/
def crowdedBound : Environment :=
  ((Environment.empty.set "b" (some (.integer 9))).set "c" none).set "a" (some (.integer 1))

/-- Where `a` has the value 1, the value of `b` is not looked up. -/
theorem evaluate_eq_of_lookups_eitherProgram :
  eitherProgram.WellFormed ∧ eitherProgram.lookups oneBound = ["a"]
    ∧ (eitherProgram.evaluate oneBound).names = ["a"]
    ∧ eitherProgram.evaluate crowdedBound = eitherProgram.evaluate oneBound
    ∧ eitherProgram.evaluate (oneBound.set "b" none) = eitherProgram.evaluate oneBound
    ∧ eitherProgram.evaluate (oneBound.set "b" (some (.integer 5)))
        = eitherProgram.evaluate oneBound
    ∧ eitherProgram.evaluate (oneBound.set "z" (some (.integer 5)))
        = eitherProgram.evaluate oneBound
  := by
  obtain ⟨hnames, hcongr, hnone, hunknown, hunread⟩ := eitherProgram.evaluate_eq_of_lookups oneBound
  have hformed : eitherProgram.WellFormed := by decide
  have hlookups : eitherProgram.lookups oneBound = ["a"] := by rfl
  have hagree : ∀ x ∈ eitherProgram.lookups oneBound,
      crowdedBound.value? x = oneBound.value? x := by
    rw [hlookups, List.forall_mem_singleton]
    rfl
  have habsent : oneBound.value? "b" = none := by rfl
  have hb : "b" ∉ eitherProgram.lookups oneBound := by
    rw [hlookups]
    decide
  have hz : "z" ∉ eitherProgram.names := by decide
  refine ⟨hformed, hlookups, ?_, hcongr crowdedBound hagree, hnone "b" habsent, hunread "b" hb _,
    hunknown "z" hz _⟩
  rw [← hnames hformed, hlookups]

end Verdict
