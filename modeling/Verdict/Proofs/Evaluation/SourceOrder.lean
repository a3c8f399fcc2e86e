import Mathlib.Data.List.Forall2
import Mathlib.Tactic.Use
import Verdict.Proofs.Evaluation.Lookups
import Verdict.Proofs.Grammar.Acceptance

/-!
# Evaluation in the order of the source

A level of parentheses is a chain of operands with connectives between them. `Chain.trail` scans
the operands of a level from the left to the right and stops when a connective is settled by the
operand in front of it. An operand between parentheses is scanned in the same way and leaves
nothing of its own. The condition that the parser builds from a chain is nested to the right and
has its groups removed before it is evaluated, but it leaves the same trail: the same lines, the
same names looked up, and the same value or failure.
-/

namespace Verdict

/-- What the evaluation of a condition leaves: the lines of its steps, the names that were looked
up, and a value or a failure. -/
@[ext]
structure Trail where
  lines : List String
  names : List String
  result : Except Failure Bool

namespace Trail

/-- The trail of an operand that looks up a name and is told in one step. Where the step has no
line, there is a failure in its place. -/
def ofStep (name : String) (s : Step) (b : Bool) : Trail :=
  match s.fault? with
  | none => ⟨[s.text], [name], .ok b⟩
  | some f => ⟨[], [name], .error (.integer f)⟩

/-- A trail, and behind it another one, which gives the value. -/
def before (x y : Trail) : Trail :=
  ⟨x.lines ++ y.lines, x.names ++ y.names, y.result⟩

/-- A trail with one more line. -/
def noting (x : Trail) (line : String) : Trail :=
  ⟨x.lines ++ [line], x.names, x.result⟩

/-- The scan of a level, from the trails of its operands. All operands but the last stand in front
of a connective. -/
def scan : List (Trail × Connective) → (last : Trail) → Trail
  | [], last => last
  | (x, c) :: rest, last =>
    match c, x.result with
    | _, .error _ => x
    | .and, .ok false => x.noting "AND: left side false, right side skipped"
    | .or, .ok true => x.noting "OR: left side true, right side skipped"
    | _, .ok _ => x.before (scan rest last)

/-- A step that is told leaves the trail of an operand with that step. -/
theorem ofStep_tell (name : String) (s : Step) (b : Bool) :
  ⟨(Run.tell s b).lines, [name], (Run.tell s b).result⟩ = ofStep name s b
  := by
  rw [ofStep, Run.tell]
  cases s.fault? with
  | none => rfl
  | some f => rfl

/-- The scan of a level that goes on with another one. -/
theorem scan_cons (x : Trail) (c : Connective) (rest : List (Trail × Connective)) (last : Trail) :
  scan ((x, c) :: rest) last = scan [(x, c)] (scan rest last)
  := by
  obtain ⟨lines, names, f | b⟩ := x
  · cases c
    all_goals rfl
  · cases c
    all_goals
      cases b
      all_goals rfl

end Trail

/-- The trail of a condition. -/
def Condition.trail (env : Environment) (e : Condition) : Trail where
  lines := (e.evaluate env).lines
  names := e.lookups env
  result := (e.evaluate env).result

/-- A connective joins two conditions in the same way as two operands. -/
theorem Condition.trail_join (env : Environment) (c : Connective) (left right : Condition) :
  (Condition.join (.known c) left right).trail env =
    Trail.scan [(left.trail env, c)] (right.trail env)
  := by
  rw [trail, trail, evaluate, lookups]
  rcases left.evaluate env with ⟨steps, f | b⟩
  · rw [Operator.goesOn, if_neg Bool.false_ne_true, List.append_nil]
    cases c
    all_goals rfl
  · cases hgoes : (Operator.known c).goesOn (.ok b) with
    | false =>
      obtain rfl : b = c.deciding := by simpa [Operator.goesOn] using hgoes
      simp only [Run.bind, Run.lines, Run.say, if_pos, List.map_append, List.map_cons,
        List.map_nil, Bool.false_eq_true, if_false, List.append_nil]
      cases c
      all_goals rfl
    | true =>
      have hb : ¬ b = c.deciding := by simpa [Operator.goesOn] using hgoes
      simp only [Run.bind, Run.lines, if_neg hb, List.map_append, if_true]
      cases c with
      | and =>
        cases b with
        | false => exact absurd rfl hb
        | true => rfl
      | or =>
        cases b with
        | false => rfl
        | true => exact absurd rfl hb

namespace Grammar

mutual

/-- The trail of an operand. -/
def Operand.trail (env : Environment) : Operand → Trail
  | .compare name r _ literal =>
    let x := name.token.text
    let n := Text.ofDigitChars literal.token.text.toList
    match env.value? x with
    | none =>
      if Integer.isWritable n then
        ⟨[], [x], .error (Fault.undefined x (x ++ " " ++ r.text ++ " " ++ toString n))⟩
      else
        ⟨[], [x], .error (.integer (.unwritable x))⟩
    | some v =>
      let result := v.stands r n
      .ofStep x (.compared x r n v result) result
  | .missing _ _ name _ =>
    let x := name.token.text
    let result := isMissing (env.value? x)
    .ofStep x (.tested x (env.value? x) result) result
  | .group _ content _ => Trail.scan (content.trails env).1 (content.trails env).2

/-- The trails of the operands of a chain, all but the last with the connective behind it. -/
def Chain.trails (env : Environment) : Chain → List (Trail × Connective) × Trail
  | .last o => ([], o.trail env)
  | .link o c _ rest => ((o.trail env, c) :: (rest.trails env).1, (rest.trails env).2)

end

/-- The trail of a chain. -/
def Chain.trail (env : Environment) (c : Chain) : Trail :=
  Trail.scan (c.trails env).1 (c.trails env).2

theorem Chain.trail_link (env : Environment) (o : Operand) (c : Connective)
    (word : Terminal (.connective c)) (rest : Chain) :
  (Chain.link o c word rest).trail env = Trail.scan [(o.trail env, c)] (rest.trail env)
  := by
  rw [trail, trails]
  apply Trail.scan_cons

mutual

/-- An operand leaves the trail of the condition that remains of it when groups are removed. -/
theorem Operand.exists_reduce : ∀ o : Operand,
    ∃ e, o.condition.reduce = .ok e ∧ ∀ env, e.trail env = o.trail env
  | .compare name r _ literal => by
    use .compare name.token.text (.known r) (Text.ofDigitChars literal.token.text.toList), rfl
    intro env
    rw [Operand.trail, Condition.trail, Condition.evaluate]
    cases env.value? name.token.text with
    | none =>
      simp only [Condition.absence]
      split
      all_goals rfl
    | some v => apply Trail.ofStep_tell
  | .missing _ _ name _ => by
    use .missing name.token.text, rfl
    intro env
    apply Trail.ofStep_tell
  | .group _ content _ => by
    obtain ⟨e, hreduce, htrail⟩ := Chain.exists_reduce content
    use e, hreduce
    intro env
    rw [htrail, Chain.trail, Operand.trail]

/-- A chain leaves the trail of the condition that remains of it when groups are removed. -/
theorem Chain.exists_reduce : ∀ c : Chain,
    ∃ e, c.condition.reduce = .ok e ∧ ∀ env, e.trail env = c.trail env
  | .last o => by
    obtain ⟨e, hreduce, htrail⟩ := Operand.exists_reduce o
    use e, hreduce
    intro env
    rw [htrail, Chain.trail, Chain.trails, Trail.scan]
  | .link o c _ rest => by
    obtain ⟨e, hreduce, htrail⟩ := Operand.exists_reduce o
    obtain ⟨e', hreduce', htrail'⟩ := Chain.exists_reduce rest
    use .join (.known c) e e'
    constructor
    · rw [Chain.condition, Condition.reduce, hreduce, hreduce']
      rfl
    · intro env
      rw [Condition.trail_join, htrail, htrail', Chain.trail_link]

end

/-! ### Rules -/

/-- The condition of a clause leaves the trail of the chain from which it was read, in every
environment, and its evaluation depends on no values but those of the names in the trail. -/
def IfClause.Governs (c : IfClause) (k : Clause) : Prop :=
  ∀ env, k.condition.trail env = c.content.trail env
    ∧ ∀ env', (∀ x ∈ (c.content.trail env).names, env'.value? x = env.value? x) →
        k.condition.evaluate env' = k.condition.evaluate env

/-- The conditions that remain of clauses when groups are removed leave the trails of the chains
of the clauses. -/
theorem exists_reduceClauses (ds : List IfClause) :
  ∃ ks, Program.reduceClauses (ds.map IfClause.clause) = .ok ks
    ∧ List.Forall₂ (fun d k => ∀ env, k.condition.trail env = d.content.trail env) ds ks
  := by
  induction ds with
  | nil => exact ⟨[], rfl, .nil⟩
  | cons d ds ih =>
    obtain ⟨e, hreduce, htrail⟩ := d.content.exists_reduce
    obtain ⟨ks, hks, hall⟩ := ih
    have hclause : d.clause.condition.reduce = .ok e := hreduce
    use { d.clause with condition := e } :: ks
    constructor
    · rw [List.map_cons, Program.reduceClauses, hclause, hks]
    · exact .cons htrail hall

/-- In every clause of a rule that writes a program, the condition that remains when groups are
removed is evaluated in the order of the source. -/
theorem canonical_trail {text : String} {p : Program} (h : Rule.program text = .ok p) :
  ∃ (d : Derivation) (q : Program),
    Rule.tokens text = .ok d.tokens ∧ d.program = p ∧ Rule.canonical text = .ok q
      ∧ List.Forall₂ IfClause.Governs d.clauses q.clauses
  := by
  obtain ⟨ts, htokens, hp⟩ := exists_tokens_of_program h
  obtain ⟨d, rfl, rfl⟩ := exists_derivation_of_ofTokens (Token.hasNumeral_of_tokens htokens) hp
  obtain ⟨ks, hreduce, htrails⟩ := exists_reduceClauses d.clauses
  use d, ⟨ks, d.last.otherwise⟩, htokens, rfl
  constructor
  · rw [Rule.canonical, h]
    change Program.reduce ⟨d.clauses.map IfClause.clause, d.last.otherwise⟩ = _
    rw [Program.reduce, hreduce]
    cases ks with
    | nil => exact absurd (List.forall₂_nil_right_iff.mp htrails) d.nonempty
    | cons k ks => rfl
  · apply htrails.imp
    intro c k htrail env
    use htrail env
    intro env' hnames
    apply Condition.evaluate_congr
    rwa [← htrail env] at hnames

/-- The rule `IF (a > 0 AND (b > 0 OR c > 0)) RETURN 1 ELSE RETURN 2`. -/
def guardedRule : String :=
  "IF (a > 0 AND (b > 0 OR c > 0)) RETURN 1 ELSE RETURN 2"

theorem canonical_trail_guardedRule :
  ∃ (p : Program) (d : Derivation) (q : Program), Rule.program guardedRule = .ok p
    ∧ Rule.tokens guardedRule = .ok d.tokens ∧ d.program = p ∧ Rule.canonical guardedRule = .ok q
      ∧ List.Forall₂ IfClause.Governs d.clauses q.clauses
  := by
  have hprogram : ∃ p, Rule.program guardedRule = .ok p := ⟨_, rfl⟩
  obtain ⟨p, hp⟩ := hprogram
  obtain ⟨d, q, h⟩ := canonical_trail hp
  exact ⟨p, d, q, hp, h⟩

end Grammar

end Verdict
