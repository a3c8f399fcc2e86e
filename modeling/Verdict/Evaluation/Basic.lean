import Verdict.Evaluation.Run
import Verdict.Program.Basic

/-!
# Evaluation

A condition is evaluated from the left to the right, and the right side of a connective only
when the left side does not settle the value. A comparison needs the value of its variable; a
test for a missing value holds for a variable that is absent or has one of the values in
`missingCodes`. In a program every condition is evaluated, and of the clauses whose condition
holds the last one determines the value.
-/

namespace Verdict

/-- The values that stand for a missing one. -/
def missingCodes : List Int := [99, 999]

/-- The number stands in a relation to an integer. A value that is no number stands in none. -/
def Number.stands (v : Number) (r : Relation) (n : Int) : Bool :=
  (v.compareTo n).any r.holds

/-- The value is missing: there is none, or it stands for a missing one. -/
def isMissing : Option Number → Bool
  | none => true
  | some v => missingCodes.any fun n => v.stands .eq n

/-- The failure of a comparison whose variable is absent. It shows the comparison, so the integer
must be written. -/
def Condition.absence (name : String) (op : Operator Relation) (literal : Int) : Failure :=
  if Integer.isWritable literal then
    Fault.undefined name (comparisonText name op literal)
  else
    .integer (.unwritable name)

/-- The truth value of a condition. A group has none: groups are removed beforehand. -/
def Condition.evaluate (env : Environment) : Condition → Run Bool
  | .compare name op literal =>
    match env.value? name with
    | none => .fail (absence name op literal)
    | some v =>
      match op with
      | .foreign text => .fail (Fault.malformed (.relation text))
      | .known r =>
        let result := v.stands r literal
        .tell (.compared name r literal v result) result
  | .missing name =>
    let v := env.value? name
    .tell (.tested name v (isMissing v)) (isMissing v)
  | .join op left right =>
    (left.evaluate env).bind fun b =>
      match op with
      | .foreign text => .fail (Fault.malformed (.connective text))
      | .known c => if b = c.deciding then .say (.skipped c) b else right.evaluate env
  | .group _ => .fail (Fault.malformed .group)
  | .alien typeName => .fail (Fault.malformed (.alien typeName))

/-- The failure of a token that is not the given keyword, by its kind or by its text. -/
def Keyword.check (k : Keyword) (t : Token) : Except Failure Unit :=
  if t.kind = .keyword k ∧ t.text = k.text then
    .ok ()
  else
    .error (Fault.malformed (.keyword k t.text))

/-- The number that a clause returns, unless its keyword or its number is malformed. -/
def Return.evaluate (r : Return) : Except Failure Int :=
  match Keyword.returnWord.check r.keyword with
  | .error f => .error f
  | .ok _ =>
    if r.value.kind = .number then
      r.number.mapError .integer
    else
      .error (Fault.malformed (.returnValue r.value.text))

/-- The number of a clause with the given keyword. -/
def clauseValue (k : Keyword) (keyword : Token) (result : Return) : Except Failure Int :=
  match k.check keyword with
  | .error f => .error f
  | .ok _ => result.evaluate

/-- What came of a clause: its place among the clauses, whether its condition holds, and its
number. -/
structure Outcome where
  index : Nat
  matched : Bool
  value : Int
  deriving DecidableEq

/-- The outcome of the clause at the given place. -/
def Clause.evaluate (env : Environment) (index : Nat) (c : Clause) : Run Outcome :=
  (Run.ofExcept (clauseValue .ifWord c.keyword c.result)).bind fun value =>
    (c.condition.evaluate env).bind fun matched =>
      .say (.clause index matched value) ⟨index, matched, value⟩

/-- The outcomes of clauses, the first of which has the given place. -/
def evaluateClauses (env : Environment) (index : Nat) : List Clause → Run (List Outcome)
  | [] => .pure []
  | c :: cs =>
    (c.evaluate env index).bind fun o =>
      (evaluateClauses env (index + 1) cs).bind fun os => .pure (o :: os)

/-- The value of a program: the number of the selected clause, the place of that clause unless
it is the last one, and the outcomes of all others. -/
structure Decision where
  value : Int
  selected : Option Nat
  outcomes : List Outcome
  deriving DecidableEq

/-- The decision of some outcomes: the last clause whose condition holds, or else the one with
the number `otherwise`. -/
def Decision.ofOutcomes (outcomes : List Outcome) (otherwise : Int) : Run Decision :=
  match outcomes.reverse.find? (·.matched) with
  | some o => .say (.selected o.index o.value) ⟨o.value, some o.index, outcomes⟩
  | none => .say (.otherwise otherwise) ⟨otherwise, none, outcomes⟩

/-- The value of a program. Its groups are removed first, and the number of the last clause is
read after all conditions, whether it is needed or not. -/
def Program.evaluate (env : Environment) (p : Program) : Run Decision :=
  (Run.ofExcept p.reduce).bind fun p =>
    (evaluateClauses env 0 p.clauses).bind fun outcomes =>
      (Run.ofExcept (clauseValue .elseWord p.otherwise.keyword p.otherwise.result)).bind
        fun otherwise => Decision.ofOutcomes outcomes otherwise

end Verdict
