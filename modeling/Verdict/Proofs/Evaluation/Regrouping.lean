import Verdict.Proofs.Evaluation.Selection

/-!
# Regrouping

In a condition with one connective it makes no difference how the leaves are joined. Every such
condition evaluates its leaves from the left to the right up to the first one that settles the
value, or that fails, as `Condition.evaluateLeaves` does with the list of leaves alone. Only the
steps that tell of a right side left out depend on how the leaves are joined.
-/

namespace Verdict

/-- The step tells the value of a leaf. -/
def Step.isOfLeaf : Step → Bool
  | .compared .. => true
  | .tested .. => true
  | _ => false

namespace Run

variable {α β : Type}

/-- The run with the steps of leaves alone. -/
def ofLeaves (x : Run α) : Run α :=
  ⟨x.steps.filter Step.isOfLeaf, x.result⟩

theorem ofLeaves_bind (x : Run α) (f : α → Run β) :
  (x.bind f).ofLeaves = x.ofLeaves.bind fun a => (f a).ofLeaves
  := by
  rcases x with ⟨steps, e | a⟩
  · rfl
  · simp [bind, ofLeaves]

/-- A leaf that is told is the same run with the steps of leaves alone. -/
theorem ofLeaves_tell {s : Step} (h : s.isOfLeaf = true) (a : α) :
  (tell s a).ofLeaves = tell s a
  := by
  rcases say_or_fail_of_tell s a with htold | ⟨f, -, htold⟩
  · simp [htold, ofLeaves, say, h]
  · simp [htold, ofLeaves, fail]

theorem bind_pure (x : Run α) :
  x.bind pure = x
  := by
  rcases x with ⟨steps, e | a⟩
  · rfl
  · simp [bind, pure]

end Run

namespace Condition

/-- The leaves of a condition in their order. -/
def leaves : Condition → List Condition
  | .compare name op literal => [.compare name op literal]
  | .missing name => [.missing name]
  | .join _ left right => left.leaves ++ right.leaves
  | .group inner => inner.leaves
  | .alien typeName => [.alien typeName]

/-- All connectives of the condition are the given one. -/
def JoinedBy (c : Connective) : Condition → Prop
  | .join op left right => op = .known c ∧ left.JoinedBy c ∧ right.JoinedBy c
  | .group inner => inner.JoinedBy c
  | _ => True

/-- The conditions of a list are evaluated up to the first one with the value that settles that of
the connective. -/
def evaluateLeaves (env : Environment) (c : Connective) : List Condition → Run Bool
  | [] => .pure (!c.deciding)
  | e :: es =>
    (e.evaluate env).bind fun b =>
      if b = c.deciding then .pure b else evaluateLeaves env c es

theorem evaluateLeaves_singleton (env : Environment) (c : Connective) (e : Condition) :
  evaluateLeaves env c [e] = e.evaluate env
  := by
  have hvalue : ∀ b, (if b = c.deciding then Run.pure b else .pure (!c.deciding)) = .pure b := by
    intro b
    cases b
    all_goals
      cases c.deciding
      all_goals rfl
  simp only [evaluateLeaves, hvalue]
  apply Run.bind_pure

/-- A list in two parts is evaluated part by part, the second one unless the first settles the
value. -/
theorem evaluateLeaves_append (env : Environment) (c : Connective) (es ds : List Condition) :
  evaluateLeaves env c (es ++ ds) =
    (evaluateLeaves env c es).bind fun b =>
      if b = c.deciding then .pure b else evaluateLeaves env c ds
  := by
  induction es with
  | nil =>
    have hneutral : ¬ (!c.deciding) = c.deciding := by simp
    change _ = (Run.pure (!c.deciding)).bind _
    rw [Run.pure, Run.bind_ok, if_neg hneutral]
    rfl
  | cons e es ih =>
    rw [List.cons_append, evaluateLeaves, evaluateLeaves, Run.bind_assoc, ih]
    congr
    funext b
    by_cases hb : b = c.deciding
    · rw [if_pos hb, if_pos hb, Run.pure, Run.bind_ok, if_pos hb]
      rfl
    · rw [if_neg hb, if_neg hb]

/-- The run of a leaf has steps of leaves alone. -/
theorem ofLeaves_compare (env : Environment) (name : String) (op : Operator Relation)
    (literal : Int) :
  ((compare name op literal).evaluate env).ofLeaves = (compare name op literal).evaluate env
  := by
  rw [evaluate]
  cases env.value? name with
  | none => rfl
  | some v =>
    cases op with
    | known r =>
      apply Run.ofLeaves_tell
      rfl
    | foreign text => rfl

/-- A condition with one connective evaluates its leaves up to the first one that settles the
value. -/
theorem ofLeaves_evaluate {c : Connective} {e : Condition} (h : e.JoinedBy c)
    (hfree : e.GroupFree) (env : Environment) :
  (e.evaluate env).ofLeaves = evaluateLeaves env c e.leaves
  := by
  induction e with
  | compare name op literal => rw [leaves, evaluateLeaves_singleton, ofLeaves_compare]
  | missing name =>
    rw [leaves, evaluateLeaves_singleton]
    apply Run.ofLeaves_tell
    rfl
  | join op left right ihleft ihright =>
    obtain ⟨rfl, hleft, hright⟩ := h
    rw [evaluate, Run.ofLeaves_bind, leaves, evaluateLeaves_append, ihleft hleft hfree.1,
      ← ihright hright hfree.2]
    congr
    funext b
    by_cases hb : b = c.deciding
    · simp only [if_pos hb]
      rfl
    · simp only [if_neg hb]
  | group inner => exact hfree.elim
  | alien typeName =>
    rw [leaves, evaluateLeaves_singleton]
    rfl

/-- Besides those of leaves a condition with one connective has only steps that tell of a right side
of this connective left out. -/
theorem isOfLeaf_or_skipped {c : Connective} {e : Condition} (h : e.JoinedBy c)
    (env : Environment) :
  ∀ s ∈ (e.evaluate env).steps, s.isOfLeaf = true ∨ s = .skipped c
  := by
  induction e with
  | compare name op literal =>
    rw [evaluate]
    cases env.value? name with
    | none => simp [Run.fail]
    | some v =>
      cases op with
      | foreign text => simp [Run.fail]
      | known r =>
        apply Run.forall_mem_tell
        exact Or.inl rfl
  | missing name =>
    apply Run.forall_mem_tell
    exact Or.inl rfl
  | join op left right ihleft ihright =>
    obtain ⟨rfl, hleft, hright⟩ := h
    rw [evaluate]
    apply Run.forall_mem_bind (ihleft hleft)
    intro b
    by_cases hb : b = c.deciding
    · simp [hb, Run.say]
    · simpa [hb] using ihright hright
  | group inner => simp [evaluate, Run.fail]
  | alien typeName => simp [evaluate, Run.fail]

/-- A well-formed condition without groups, all connectives of which are the given one. -/
structure IsUniform (c : Connective) (e : Condition) : Prop where
  wellFormed : e.WellFormed
  groupFree : e.GroupFree
  joinedBy : e.JoinedBy c

/-- The evaluation of a well-formed condition without groups gives a value, or fails because a
variable is undefined. All integers are written. -/
theorem exists_value_or_undefined {e : Condition} (h : e.WellFormed) (hfree : e.GroupFree)
    (hwritable : e.IsWritable) {env : Environment} (henv : env.IsWritable) :
  (∃ b, (e.evaluate env).result = .ok b)
    ∨ ∃ name comparison,
        (e.evaluate env).result = .error (Fault.undefined name comparison)
  := by
  rw [evaluate_result h hfree hwritable henv]
  cases firstAbsent? env (e.comparisons env) with
  | none => exact Or.inl ⟨_, rfl⟩
  | some c => exact Or.inr ⟨c.name, c.text, rfl⟩

/-- Two conditions with one connective and the same leaves in the same order, however these are
joined. Both have the same value, or both fail in the same way, which is for an undefined variable
where all integers have few enough digits to be written. They have the same steps of leaves in the
same order, and besides these only steps that tell of a right side of the connective left out. -/
theorem evaluate_regrouped {c : Connective} {e d : Condition} (he : e.IsUniform c)
    (hd : d.IsUniform c) (hleaves : e.leaves = d.leaves) (env : Environment) :
  (e.evaluate env).result = (d.evaluate env).result
    ∧ (e.IsWritable → env.IsWritable → (∃ b, (e.evaluate env).result = .ok b)
      ∨ ∃ name comparison,
          (e.evaluate env).result = .error (Fault.undefined name comparison))
    ∧ (e.evaluate env).steps.filter Step.isOfLeaf = (d.evaluate env).steps.filter Step.isOfLeaf
    ∧ ∀ s ∈ (e.evaluate env).steps ++ (d.evaluate env).steps, s.isOfLeaf = true ∨ s = .skipped c
  := by
  have hsame : (e.evaluate env).ofLeaves = (d.evaluate env).ofLeaves := by
    rw [ofLeaves_evaluate he.joinedBy he.groupFree, ofLeaves_evaluate hd.joinedBy hd.groupFree,
      hleaves]
  obtain ⟨hsteps, hresult⟩ := Run.mk.inj hsame
  refine ⟨hresult, ?_, hsteps, ?_⟩
  · intro hwritable henv
    apply exists_value_or_undefined he.wellFormed he.groupFree hwritable henv
  · rw [List.forall_mem_append]
    exact ⟨isOfLeaf_or_skipped he.joinedBy env, isOfLeaf_or_skipped hd.joinedBy env⟩

/-- Three leaves that are joined from the left. -/
def leftwards : Condition :=
  .join (.known .and)
    (.join (.known .and) (.compare "a" (.known .gt) 0) (.compare "b" (.known .gt) 0))
    (.missing "c")

/-- The same leaves joined from the right. -/
def rightwards : Condition :=
  .join (.known .and) (.compare "a" (.known .gt) 0)
    (.join (.known .and) (.compare "b" (.known .gt) 0) (.missing "c"))

/-- Where `a` has the value 1, both conditions fail because of `b`. Where it has the value 0, both
do not hold, and the one that is joined from the left tells of one right side more. -/
theorem evaluate_regrouped_leftwards :
  leftwards.IsUniform .and ∧ rightwards.IsUniform .and ∧ leftwards.leaves = rightwards.leaves
    ∧ (leftwards.evaluate oneBound).result = (rightwards.evaluate oneBound).result
    ∧ (rightwards.evaluate oneBound).result = .error (Fault.undefined "b" "b > 0")
    ∧ (leftwards.evaluate zeroBound).result = (rightwards.evaluate zeroBound).result
    ∧ (leftwards.evaluate zeroBound).steps.filter Step.isOfLeaf =
      (rightwards.evaluate zeroBound).steps.filter Step.isOfLeaf
    ∧ (leftwards.evaluate zeroBound).steps =
      (rightwards.evaluate zeroBound).steps ++ [.skipped .and]
  := by
  have hleft : leftwards.IsUniform .and :=
    ⟨by decide, ⟨⟨trivial, trivial⟩, trivial⟩, ⟨rfl, ⟨rfl, trivial, trivial⟩, trivial⟩⟩
  have hright : rightwards.IsUniform .and :=
    ⟨by decide, ⟨trivial, trivial, trivial⟩, ⟨rfl, trivial, rfl, trivial, trivial⟩⟩
  have hleaves : leftwards.leaves = rightwards.leaves := rfl
  obtain ⟨hone, -⟩ := evaluate_regrouped hleft hright hleaves oneBound
  obtain ⟨hzero, -, hsteps, -⟩ := evaluate_regrouped hleft hright hleaves zeroBound
  exact ⟨hleft, hright, hleaves, hone, rfl, hzero, hsteps, rfl⟩

end Condition

end Verdict
