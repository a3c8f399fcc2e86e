import Verdict.Condition.Basic

/-!
# Programs

A program is a list of clauses, each with a condition and a number to return, followed by a
last clause without a condition. A program keeps the tokens of its keywords and numbers.
-/

namespace Verdict

/-- What a clause returns: a keyword and a number, as they are written. -/
structure Return where
  keyword : Token
  value : Token
  deriving DecidableEq

/-- The number that a clause returns. -/
def Return.number (r : Return) : Except Integer.Fault Int :=
  Integer.read r.value.text

/-- A clause with a condition. -/
structure Clause where
  keyword : Token
  condition : Condition
  result : Return
  deriving DecidableEq

/-- The last clause, which has no condition. -/
structure Otherwise where
  keyword : Token
  result : Return
  deriving DecidableEq

/-- A program. -/
structure Program where
  clauses : List Clause
  otherwise : Otherwise
  deriving DecidableEq

namespace Program

/-- Every condition is well formed and there is a clause. -/
def WellFormed (p : Program) : Prop :=
  p.clauses ≠ [] ∧ ∀ c ∈ p.clauses, c.condition.WellFormed

instance (p : Program) : Decidable p.WellFormed :=
  inferInstanceAs (Decidable (_ ∧ _))

/-- A program, unless it is not well formed. -/
def checked (p : Program) : Except Failure Program :=
  if p.WellFormed then .ok p else .error .invalid

/-- The clauses with the groups of their conditions removed. -/
def reduceClauses : List Clause → Except Failure (List Clause)
  | [] => .ok []
  | c :: cs =>
    match c.condition.reduce with
    | .error f => .error f
    | .ok condition =>
      match reduceClauses cs with
      | .error f => .error f
      | .ok rest => .ok ({ c with condition := condition } :: rest)

/-- The program with the groups of its conditions removed. A program without clauses is not
valid, which is found after its conditions. -/
def reduce (p : Program) : Except Failure Program :=
  match reduceClauses p.clauses with
  | .error f => .error f
  | .ok [] => .error .invalid
  | .ok clauses => .ok { p with clauses := clauses }

/-- The number of levels of the deepest condition. -/
def depth (p : Program) : Nat :=
  p.clauses.foldl (fun d c => max d c.condition.depth) 0

end Program

end Verdict
