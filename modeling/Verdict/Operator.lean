/-!
# Operators

The relations that compare a variable with an integer, the connectives that join two
conditions, and `Operator`, an operator as it may stand in a condition put together by hand:
a known one, or a text that names none. Each relation and connective has one spelling in a
condition, `Relation.text` and `Connective.text`.
-/

namespace Verdict

/-- A relation between a number and an integer. -/
inductive Relation where
  | gt
  | ge
  | lt
  | le
  | eq
  deriving DecidableEq

namespace Relation

/-- The spelling of a relation. -/
def text : Relation → String
  | .gt => ">"
  | .ge => ">="
  | .lt => "<"
  | .le => "<="
  | .eq => "=="

/-- The relation holds between two numbers that are so ordered. -/
def holds : Relation → Ordering → Bool
  | .gt, o => o == .gt
  | .ge, o => o != .lt
  | .lt, o => o == .lt
  | .le, o => o != .gt
  | .eq, o => o == .eq

/-- All relations. -/
def all : List Relation := [.gt, .ge, .lt, .le, .eq]

/-- The relation with the given spelling. -/
def ofText? (s : String) : Option Relation :=
  all.find? (·.text == s)

end Relation

/-- A connective between two conditions. -/
inductive Connective where
  | and
  | or
  deriving DecidableEq

namespace Connective

/-- The spelling of a connective. -/
def text : Connective → String
  | .and => "AND"
  | .or => "OR"

/-- The truth value of the left side that settles the value of the whole, which it then is. -/
def deciding : Connective → Bool
  | .and => false
  | .or => true

/-- The connective with the given spelling. -/
def ofText? (s : String) : Option Connective :=
  [Connective.and, .or].find? (·.text == s)

end Connective

/-- An operator of a condition: one of the known operators `α`, or a text that names none of
them. -/
inductive Operator (α : Type) where
  | known (op : α)
  | foreign (text : String)
  deriving DecidableEq

namespace Operator

/-- The operator is a known one. -/
def isKnown {α : Type} : Operator α → Bool
  | .known _ => true
  | .foreign _ => false

/-- The operator that a text names, where `named?` tells which texts name one. -/
def ofText {α : Type} (named? : String → Option α) (s : String) : Operator α :=
  match named? s with
  | some op => .known op
  | none => .foreign s

/-- The text of an operator. -/
def text {α : Type} (spelling : α → String) : Operator α → String
  | .known op => spelling op
  | .foreign s => s

end Operator

end Verdict
