import Verdict.Failure

/-!
# Conditions

A `Condition` compares a variable with an integer, tests whether a variable is missing, joins
two conditions, or is a group, a condition between parentheses of its own. Conditions may be
put together by hand, so an operator may be unknown, an integer negative, and a value that is
no condition may stand in the place of one. `Condition.WellFormed` says that none of this is
so, and `Condition.GroupFree` that there are no groups.
-/

namespace Verdict

/-- A condition on the values of variables. -/
inductive Condition where
  | compare (name : String) (op : Operator Relation) (literal : Int)
  | missing (name : String)
  | join (op : Operator Connective) (left right : Condition)
  | group (inner : Condition)
  /-- A value of the named type in the place of a condition. -/
  | alien (typeName : String)
  deriving DecidableEq

namespace Condition

/-- All operators are known, no integer is negative, and every part is a condition. -/
def WellFormed : Condition → Prop
  | .compare _ op literal => op.isKnown = true ∧ 0 ≤ literal
  | .missing _ => True
  | .join op left right => op.isKnown = true ∧ left.WellFormed ∧ right.WellFormed
  | .group inner => inner.WellFormed
  | .alien _ => False

instance decidableWellFormed : (e : Condition) → Decidable e.WellFormed
  | .compare _ op literal => inferInstanceAs (Decidable (op.isKnown = true ∧ 0 ≤ literal))
  | .missing _ => inferInstanceAs (Decidable True)
  | .join _ left right =>
    have := decidableWellFormed left
    have := decidableWellFormed right
    inferInstanceAs (Decidable (_ ∧ _ ∧ _))
  | .group inner => decidableWellFormed inner
  | .alien _ => inferInstanceAs (Decidable False)

/-- No part of the condition is a group. -/
def GroupFree : Condition → Prop
  | .join _ left right => left.GroupFree ∧ right.GroupFree
  | .group _ => False
  | _ => True

/-- A condition, unless it is not well formed; a value that is no condition passes when it
stands alone. -/
def checked : Condition → Except Failure Condition
  | .alien typeName => .ok (.alien typeName)
  | e => if e.WellFormed then .ok e else .error .invalid

/-- The number of levels of a condition, where a group is a level of its own. -/
def depth : Condition → Nat
  | .join _ left right => max left.depth right.depth + 1
  | .group inner => inner.depth + 1
  | _ => 1

/-- The text of a comparison. -/
def comparisonText (name : String) (op : Operator Relation) (literal : Int) : String :=
  name ++ " " ++ op.text Relation.text ++ " " ++ toString literal

/-- The text of a test for a missing value. -/
def missingText (name : String) : String :=
  "IS-MISSING(" ++ name ++ ")"

/-- Groups removed: the condition with the content of a group in place of the group. The
reduction fails at the first part, the left before the right and the parts before the whole,
that is no condition or has an unknown connective. -/
def reduce : Condition → Except Failure Condition
  | .compare name op literal => .ok (.compare name op literal)
  | .missing name => .ok (.missing name)
  | .group inner => inner.reduce
  | .alien typeName => .error (Fault.malformed (.alien typeName))
  | .join op left right =>
    match left.reduce with
    | .error f => .error f
    | .ok l =>
      match right.reduce with
      | .error f => .error f
      | .ok r => if op.isKnown then .ok (.join op l r) else .error .invalid

end Condition

end Verdict
