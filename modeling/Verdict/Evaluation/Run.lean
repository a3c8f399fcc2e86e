import Verdict.Environment.Basic
import Verdict.Failure

/-!
# Runs

An evaluation tells what it does step by step. A `Run` is a list of steps and then a value or
a failure, so that a failure leaves the steps made before it. Runs are joined by `Run.bind`,
which puts the steps of the first in front of those of the second. A step shows the numbers
that it deals with, so it fails when one of them has too many digits to be written.
-/

namespace Verdict

/-- A step of an evaluation. -/
inductive Step where
  /-- A variable was compared with an integer. -/
  | compared (name : String) (r : Relation) (literal : Int) (value : Number) (result : Bool)
  /-- A variable was tested for a missing value. -/
  | tested (name : String) (value : Option Number) (result : Bool)
  /-- The left side settled the value, and the right side was left out. -/
  | skipped (c : Connective)
  /-- The condition of a clause was evaluated. -/
  | clause (index : Nat) (matched : Bool) (value : Int)
  /-- A clause was selected. -/
  | selected (index : Nat) (value : Int)
  /-- The last clause was selected. -/
  | otherwise (value : Int)
  deriving DecidableEq

namespace Step

/-- The result of a test as a step shows it. -/
def verdictText (b : Bool) : String :=
  if b then "True" else "False"

/-- The value of a condition as a step shows it. -/
def truthText (b : Bool) : String :=
  if b then "true" else "false"

/-- The value of a variable as a step shows it. -/
def shown : Option Number → String
  | some v => v.text
  | none => "absent"

/-- Why a step has no line: one of its numbers has too many digits. -/
def fault? : Step → Option Integer.Fault
  | .compared name _ literal value _ =>
    if Integer.isWritable literal && value.isWritable then none else some (.unwritable name)
  | .tested name value _ =>
    if value.all Number.isWritable then none else some (.unwritable name)
  | _ => none

/-- The line that shows a step. -/
def text : Step → String
  | .compared name r literal value result =>
    let comparison := " " ++ r.text ++ " " ++ toString literal
    name ++ comparison ++ ": " ++ value.text ++ comparison ++ " = " ++ verdictText result
  | .tested name value result =>
    "IS-MISSING(" ++ name ++ "): " ++ shown value ++ " = " ++ verdictText result
  | .skipped c =>
    c.text ++ ": left side " ++ truthText c.deciding ++ ", right side skipped"
  | .clause index matched value =>
    "IF #" ++ toString index ++ ": " ++ truthText matched ++ " -> " ++ toString value
  | .selected index value => "selected IF #" ++ toString index ++ " -> " ++ toString value
  | .otherwise value => "selected ELSE -> " ++ toString value

end Step

/-- Steps, and then a value or a failure. -/
structure Run (α : Type) where
  steps : List Step
  result : Except Failure α

namespace Run

/-- A value without a step. -/
def pure {α : Type} (a : α) : Run α := ⟨[], .ok a⟩

/-- A failure without a step. -/
def fail {α : Type} (f : Failure) : Run α := ⟨[], .error f⟩

/-- A value after one step. -/
def say {α : Type} (s : Step) (a : α) : Run α := ⟨[s], .ok a⟩

/-- A value after one step, unless the step has no line. -/
def tell {α : Type} (s : Step) (a : α) : Run α :=
  match s.fault? with
  | none => .say s a
  | some f => .fail (.integer f)

/-- A step is told, or the run fails because it has no line. -/
theorem say_or_fail_of_tell {α : Type} (s : Step) (a : α) :
  tell s a = .say s a ∨ ∃ f, s.fault? = some f ∧ tell s a = .fail (.integer f)
  := by
  rw [tell]
  cases s.fault? with
  | none => exact Or.inl rfl
  | some f => exact Or.inr ⟨f, rfl, rfl⟩

/-- A value or a failure without a step. -/
def ofExcept {α : Type} (r : Except Failure α) : Run α := ⟨[], r⟩

/-- A run, and then the run that its value determines. -/
def bind {α β : Type} (x : Run α) (f : α → Run β) : Run β :=
  match x.result with
  | .error e => ⟨x.steps, .error e⟩
  | .ok a =>
    let y := f a
    ⟨x.steps ++ y.steps, y.result⟩

/-- The result of a run and then another one is that of the second, unless the first fails. -/
theorem result_bind {α β : Type} (x : Run α) (f : α → Run β) :
  (x.bind f).result = x.result.bind fun a => (f a).result
  := by
  rw [bind]
  cases x.result with
  | error e => rfl
  | ok a => rfl

instance : Monad Run where
  pure := Run.pure
  bind := Run.bind

/-- The lines that show the steps of a run. -/
def lines {α : Type} (x : Run α) : List String :=
  x.steps.map Step.text

end Run

end Verdict
