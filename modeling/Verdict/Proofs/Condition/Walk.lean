import Verdict.Proofs.Program.Reduction

/-!
# Removing groups step by step

The groups of a condition can also be removed by a walk with two stacks. On one stack are the tasks,
parts of which the groups are still to be removed and connectives whose sides come first. On the
other is what is left of the parts that are done. However deep the condition is, the walk leaves the
stacks below it as they are, and after as many steps as the condition has size it has put on top
what `Condition.reduce` gives, or has failed as it does.
-/

namespace Verdict

/-- The number of steps that a walk takes for a condition: one for every leaf and group, and two for
every connective, which comes before and after its sides. -/
def Condition.size : Condition → Nat
  | .compare _ _ _ => 1
  | .missing _ => 1
  | .join _ left right => 1 + (left.size + (right.size + 1))
  | .group inner => 1 + inner.size
  | .alien _ => 1

/-- Something left to do: to remove the groups of a part, or to join the two parts that were done
last. -/
inductive Task where
  | part (e : Condition)
  | connective (op : Operator Connective)

/-- The tasks, of which the first is the next one, and what is left of the parts that are done, the
last of which comes first. -/
structure Walk where
  tasks : List Task
  done : List Condition

namespace Walk

/-- The walk through a condition at its beginning. -/
def start (e : Condition) : Walk :=
  ⟨[.part e], []⟩

/-- The walk at its end. -/
def finish (e : Condition) : Walk :=
  ⟨[], [e]⟩

/-- One step of a walk. -/
def step : Walk → Except Failure Walk
  | ⟨.part (.compare name op literal) :: tasks, done⟩ =>
    .ok ⟨tasks, .compare name op literal :: done⟩
  | ⟨.part (.missing name) :: tasks, done⟩ => .ok ⟨tasks, .missing name :: done⟩
  | ⟨.part (.group inner) :: tasks, done⟩ => .ok ⟨.part inner :: tasks, done⟩
  | ⟨.part (.join op left right) :: tasks, done⟩ =>
    .ok ⟨.part left :: .part right :: .connective op :: tasks, done⟩
  | ⟨.part (.alien typeName) :: _, _⟩ => .error (Fault.malformed (.alien typeName))
  | ⟨.connective op :: tasks, right :: left :: done⟩ =>
    if op.isKnown then .ok ⟨tasks, .join op left right :: done⟩ else .error .invalid
  -- nothing is to be done, or a connective lacks a side, which does not come about
  | w => .ok w

/-- The given number of steps, unless one fails. -/
def steps : Nat → Walk → Except Failure Walk
  | 0, w => .ok w
  | n + 1, w => w.step.bind (steps n)

theorem steps_one_add (n : Nat) (w : Walk) :
  steps (1 + n) w = w.step.bind (steps n)
  := by
  rw [Nat.add_comm]
  rfl

theorem steps_one (w : Walk) :
  steps 1 w = w.step
  := by
  rw [steps]
  cases w.step with
  | error f => rfl
  | ok w' => rfl

/-- Steps are taken one after the other. -/
theorem steps_add (m n : Nat) (w : Walk) :
  steps (m + n) w = (steps m w).bind (steps n)
  := by
  induction m generalizing w with
  | zero =>
    rw [Nat.zero_add]
    rfl
  | succ m ih =>
    rw [Nat.add_right_comm, steps, steps]
    cases w.step with
    | error f => rfl
    | ok w' => apply ih

/-- A part is walked through as it is reduced, whatever else is to be done and has been done. -/
theorem steps_part (e : Condition) (tasks : List Task) (done : List Condition) :
  steps e.size ⟨.part e :: tasks, done⟩ = e.reduce.map fun e' => ⟨tasks, e' :: done⟩
  := by
  induction e generalizing tasks done with
  | compare | missing | alien => rfl
  | join op left right ihleft ihright =>
    rw [Condition.size, steps_one_add, Condition.reduce]
    change steps (left.size + (right.size + 1))
      ⟨.part left :: .part right :: .connective op :: tasks, done⟩ = _
    rw [steps_add, ihleft]
    cases left.reduce with
    | error f => rfl
    | ok l =>
      change steps (right.size + 1) ⟨.part right :: .connective op :: tasks, l :: done⟩ = _
      rw [steps_add, ihright]
      cases right.reduce with
      | error f => rfl
      | ok r =>
        -- both sides are done, the right one last, and lie in front of the connective
        change steps 1 ⟨.connective op :: tasks, r :: l :: done⟩ = _
        rw [steps_one]
        cases op with
        | known c => rfl
        | foreign text => rfl
  | group inner ih =>
    rw [Condition.size, steps_one_add]
    apply ih

/-- The walk through a condition ends with what is left of it, or fails as its reduction does. -/
theorem steps_start (e : Condition) :
  (start e).steps e.size = e.reduce.map finish
  := steps_part e [] []

end Walk

end Verdict
