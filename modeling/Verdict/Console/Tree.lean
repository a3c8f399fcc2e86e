import Verdict.Program.Basic

/-!
# Trees in text

The tree of a program has a branch for every clause and one for the last clause, and below a
clause the tree of its condition. Each line of the drawing shows one node behind the guides of
the branches it belongs to.
-/

namespace Verdict.Console

/-- The guide in front of a node; the last one of its siblings ends the line from above. -/
def guide (last : Bool) : String :=
  if last then "└── " else "├── "

/-- The guide in front of the nodes below a node. -/
def guideBelow (last : Bool) : String :=
  if last then "    " else "│   "

end Verdict.Console

namespace Verdict

open Console

/-- The line of a condition itself. -/
def Condition.label : Condition → String
  | .compare name op literal => comparisonText name op literal
  | .missing name => missingText name
  | .join op _ _ => op.text Connective.text
  | .group _ => "( )"
  | .alien _ => "( )"

/-- The lines of a condition and its parts, each behind `indent`, the guides of the branches
it belongs to. -/
def Condition.treeLines (indent : String) (last : Bool) : Condition → List String
  | .join op left right =>
    (indent ++ guide last ++ op.text Connective.text) ::
      (left.treeLines (indent ++ guideBelow last) false ++
        right.treeLines (indent ++ guideBelow last) true)
  | .group inner =>
    (indent ++ guide last ++ "( )") :: inner.treeLines (indent ++ guideBelow last) true
  | e => [indent ++ guide last ++ e.label]

/-- The lines of a clause at the given place. -/
def Clause.treeLines (index : Nat) (c : Clause) : Except Failure (List String) :=
  match c.result.number with
  | .error f => .error (.integer f)
  | .ok n =>
    .ok ((guide false ++ "IF #" ++ toString index ++ " → RETURN " ++ toString n) ::
      c.condition.treeLines (guideBelow false) true)

/-- The lines of clauses, the first of which has the given place. -/
def clauseTreeLines (index : Nat) : List Clause → Except Failure (List String)
  | [] => .ok []
  | c :: cs =>
    match c.treeLines index with
    | .error f => .error f
    | .ok lines =>
      match clauseTreeLines (index + 1) cs with
      | .error f => .error f
      | .ok rest => .ok (lines ++ rest)

/-- The lines of a program. The numbers of the clauses are shown by their value. -/
def Program.treeLines (p : Program) : Except Failure (List String) :=
  match clauseTreeLines 0 p.clauses with
  | .error f => .error f
  | .ok lines =>
    match p.otherwise.result.number with
    | .error f => .error (.integer f)
    | .ok n =>
      .ok ("RuleProgram" :: lines ++ [guide true ++ "ELSE → RETURN " ++ toString n])

end Verdict
