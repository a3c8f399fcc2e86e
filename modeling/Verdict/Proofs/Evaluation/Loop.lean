import Mathlib.Logic.Function.Iterate
import Verdict.Proofs.Condition.Walk
import Verdict.Proofs.Evaluation.FirstFault
import Verdict.Proofs.Grammar.Parentheses

/-!
# Evaluation step by step

A condition can also be evaluated by a loop that keeps a stack of the parts that are pending. A
connective lies on the stack twice, before its left side and after it; when it comes back, its right
side is put on the stack or left out. `Condition.visits` is the list of what the loop does, leaf by
leaf and with the right sides left out, each at its path from the whole condition. However deep the
condition is, the loop leaves what lies below it on the stack as it is, and after at most as many
steps as the condition has size it has the result and the steps of the evaluation.
-/

namespace Verdict

/-! ### Visits -/

/-- What is done at a part of a condition: a part other than a connective is evaluated, or the right
side of a connective is left out. -/
inductive Visit where
  | leaf (path : List Branch)
  | skip (path : List Branch)
  deriving DecidableEq

namespace Visit

/-- The visit of a part at a path, as one of the whole condition. -/
def under (path : List Branch) : Visit → Visit
  | .leaf q => .leaf (path ++ q)
  | .skip q => .skip (path ++ q)

@[simp]
theorem under_under (p q : List Branch) (v : Visit) :
  (v.under q).under p = v.under (p ++ q)
  := by
  cases v
  all_goals simp [under]

@[simp]
theorem under_nil (v : Visit) :
  v.under [] = v
  := by
  cases v
  all_goals rfl

end Visit

/-- What is done when a condition is evaluated. -/
def Condition.visits (env : Environment) : Condition → List Visit
  | .join op left right =>
    (left.visits env).map (Visit.under [.left]) ++
      match (left.evaluate env).result with
      | .error _ => []
      | .ok b =>
        match op with
        | .foreign _ => []
        | .known c =>
          if b = c.deciding then [.skip []] else (right.visits env).map (Visit.under [.right])
  | _ => [.leaf []]

theorem Visit.map_under (path : List Branch) (b : Branch) (vs : List Visit) :
  (vs.map (under [b])).map (under path) = vs.map (under (path ++ [b]))
  := by
  rw [List.map_map]
  apply List.map_congr_left
  intro v _
  apply under_under

namespace Condition

variable {env : Environment} {c : Connective} {left : Condition}

/-- A connective whose left side fails has no other visits. -/
theorem join_of_error {f : Failure} (h : (left.evaluate env).result = .error f)
    (op : Operator Connective) (right : Condition) :
  (join op left right).evaluate env = ⟨(left.evaluate env).steps, .error f⟩
    ∧ (join op left right).visits env = (left.visits env).map (Visit.under [.left])
  := by
  rw [evaluate, Run.bind, visits, h]
  simp

/-- A connective that is unknown fails after its left side. -/
theorem join_of_foreign {b : Bool} (h : (left.evaluate env).result = .ok b) (text : String)
    (right : Condition) :
  (join (.foreign text) left right).evaluate env =
      ⟨(left.evaluate env).steps, .error (Fault.malformed (.connective text))⟩
    ∧ (join (.foreign text) left right).visits env =
      (left.visits env).map (Visit.under [.left])
  := by
  rw [evaluate, Run.bind, visits, h]
  simp [Run.fail]

/-- A connective that its left side settles leaves its right side out. -/
theorem join_of_settled (h : (left.evaluate env).result = .ok c.deciding) (right : Condition) :
  (join (.known c) left right).evaluate env =
      ⟨(left.evaluate env).steps ++ [.skipped c], .ok c.deciding⟩
    ∧ (join (.known c) left right).visits env =
      (left.visits env).map (Visit.under [.left]) ++ [.skip []]
  := by
  rw [evaluate, Run.bind, visits, h]
  simp [Run.say]

/-- A connective that its left side does not settle goes on with its right side. -/
theorem join_of_open {b : Bool} (h : (left.evaluate env).result = .ok b) (hb : b ≠ c.deciding)
    (right : Condition) :
  (join (.known c) left right).evaluate env =
      ⟨(left.evaluate env).steps ++ (right.evaluate env).steps, (right.evaluate env).result⟩
    ∧ (join (.known c) left right).visits env =
      (left.visits env).map (Visit.under [.left]) ++ (right.visits env).map (Visit.under [.right])
  := by
  rw [evaluate, Run.bind, visits, h]
  simp [hb]

end Condition

/-! ### The loop -/

/-- A part that is pending: one that is still to be evaluated, or a connective whose left side is
done. -/
inductive Pending where
  | part (path : List Branch) (e : Condition)
  | sides (path : List Branch) (op : Operator Connective) (right : Condition)

/-- The pending parts, of which the first is the next one, the result of the last part that was
evaluated, and what has been done. -/
structure Loop where
  pending : List Pending
  result : Except Failure Bool
  visits : List Visit
  steps : List Step

namespace Loop

/-- The loop at its beginning. -/
def start (e : Condition) : Loop :=
  ⟨[.part [] e], .ok false, [], []⟩

/-- The loop at its end. -/
def finish (env : Environment) (e : Condition) : Loop :=
  ⟨[], (e.evaluate env).result, e.visits env, (e.evaluate env).steps⟩

/-- One step of the loop. After a failure nothing is pending. -/
def step (env : Environment) : Loop → Loop
  | ⟨.part path (.join op left right) :: pending, result, visits, steps⟩ =>
    ⟨.part (path ++ [.left]) left :: .sides path op right :: pending, result, visits, steps⟩
  | ⟨.part path e :: pending, _, visits, steps⟩ =>
    let x := e.evaluate env
    ⟨if x.result.isOk then pending else [], x.result, visits ++ [.leaf path], steps ++ x.steps⟩
  | ⟨.sides path (.known c) right :: pending, result, visits, steps⟩ =>
    if result = .ok c.deciding then
      ⟨pending, result, visits ++ [.skip path], steps ++ [.skipped c]⟩
    else
      ⟨.part (path ++ [.right]) right :: pending, result, visits, steps⟩
  | ⟨.sides _ (.foreign text) _ :: _, _, visits, steps⟩ =>
    ⟨[], .error (Fault.malformed (.connective text)), visits, steps⟩
  | ⟨[], result, visits, steps⟩ => ⟨[], result, visits, steps⟩

/-- The second state is reached from the first within the given number of steps. -/
def Reaches (env : Environment) (n : Nat) (m m' : Loop) : Prop :=
  ∃ k ≤ n, (step env)^[k] m = m'

variable {env : Environment} {m m' m'' : Loop}

theorem Reaches.single (h : m.step env = m') :
  Reaches env 1 m m'
  := ⟨1, Nat.le_refl 1, h⟩

theorem Reaches.trans {j k : Nat} (h : Reaches env j m m') (h' : Reaches env k m' m'') :
  Reaches env (j + k) m m''
  := by
  obtain ⟨a, ha, rfl⟩ := h
  obtain ⟨b, hb, rfl⟩ := h'
  refine ⟨b + a, by omega, ?_⟩
  apply Function.iterate_add_apply

theorem Reaches.mono {j k : Nat} (h : Reaches env j m m') (hle : j ≤ k) :
  Reaches env k m m'
  := by
  obtain ⟨a, ha, hsteps⟩ := h
  exact ⟨a, ha.trans hle, hsteps⟩

/-- The state in which a part at a path has been evaluated. What was pending is given up if the part
has failed. -/
def after (env : Environment) (path : List Branch) (e : Condition) (pending : List Pending)
    (visits : List Visit) (steps : List Step) : Loop :=
  ⟨if (e.evaluate env).result.isOk then pending else [], (e.evaluate env).result,
    visits ++ (e.visits env).map (Visit.under path), steps ++ (e.evaluate env).steps⟩

/-- A part that is no connective is evaluated in one step. -/
theorem reaches_leaf {e : Condition} (h : ∀ op left right, e ≠ .join op left right)
    (path : List Branch) (pending : List Pending) (result : Except Failure Bool)
    (visits : List Visit) (steps : List Step) :
  Reaches env 1 ⟨.part path e :: pending, result, visits, steps⟩
    (after env path e pending visits steps)
  := by
  have hvisits : (e.visits env).map (Visit.under path) = [.leaf path] := by
    cases e with
    | join op left right => exact absurd rfl (h op left right)
    | compare | missing | group | alien => simp [Condition.visits, Visit.under]
  rw [after, hvisits]
  apply Reaches.single
  cases e with
  | join op left right => exact absurd rfl (h op left right)
  | compare | missing | group | alien => rfl

/-- A part is evaluated as it is on its own, whatever else is pending and has been done. -/
theorem reaches_part (e : Condition) (path : List Branch) (pending : List Pending)
    (result : Except Failure Bool) (visits : List Visit) (steps : List Step) :
  Reaches env e.size ⟨.part path e :: pending, result, visits, steps⟩
    (after env path e pending visits steps)
  := by
  induction e generalizing path pending result visits steps with
  | compare name op literal => apply reaches_leaf (by simp)
  | missing name => apply reaches_leaf (by simp)
  | join op left right ihleft ihright =>
    have hleft := (Reaches.single rfl : Reaches env 1
      ⟨.part path (.join op left right) :: pending, result, visits, steps⟩ _).trans
        (ihleft _ _ _ _ _)
    rw [after] at hleft
    rw [after]
    cases hresult : (left.evaluate env).result with
    | error f =>
      obtain ⟨hrun, hvisits⟩ := Condition.join_of_error hresult op right
      rw [hresult] at hleft
      rw [hrun, hvisits, Visit.map_under]
      apply hleft.mono
      rw [Condition.size]
      omega
    | ok b =>
      rw [hresult] at hleft
      cases op with
      | foreign text =>
        obtain ⟨hrun, hvisits⟩ := Condition.join_of_foreign hresult text right
        rw [hrun, hvisits, Visit.map_under]
        apply (hleft.trans (.single rfl)).mono
        rw [Condition.size]
        omega
      | known c =>
        by_cases hb : b = c.deciding
        · subst hb
          obtain ⟨hrun, hvisits⟩ := Condition.join_of_settled hresult right
          rw [hrun, hvisits, List.map_append, Visit.map_under, List.map_singleton, Visit.under,
            List.append_nil, ← List.append_assoc, ← List.append_assoc]
          apply (hleft.trans (.single (if_pos rfl))).mono
          rw [Condition.size]
          omega
        · obtain ⟨hrun, hvisits⟩ := Condition.join_of_open hresult hb right
          have hopen : (.ok b : Except Failure Bool) ≠ .ok c.deciding := by simpa using hb
          rw [hrun, hvisits, List.map_append, Visit.map_under, Visit.map_under,
            ← List.append_assoc, ← List.append_assoc]
          apply ((hleft.trans (.single (if_neg hopen))).trans (ihright _ _ _ _ _)).mono
          rw [Condition.size]
          omega
  | group inner => apply (reaches_leaf (by simp) _ _ _ _ _).mono (Nat.le_add_right 1 _)
  | alien typeName => apply reaches_leaf (by simp)

theorem iterate_step_of_done (n : Nat) (e : Condition) :
  (step env)^[n] (finish env e) = finish env e
  := Function.iterate_fixed rfl n

/-- After as many steps as the condition has size the loop is at its end. -/
theorem iterate_step_start (env : Environment) (e : Condition) :
  (step env)^[e.size] (start e) = finish env e
  := by
  have hreaches : Reaches env e.size (start e) (after env [] e [] [] []) :=
    reaches_part e [] [] (.ok false) [] []
  have hafter : after env [] e [] [] [] = finish env e := by
    rw [after, finish, ite_self, List.nil_append, List.nil_append, List.map_id'' Visit.under_nil]
  rw [hafter] at hreaches
  obtain ⟨n, hn, hsteps⟩ := hreaches
  obtain ⟨k, hk⟩ := Nat.exists_eq_add_of_le' hn
  rw [hk, Function.iterate_add_apply, hsteps, iterate_step_of_done]

end Loop

end Verdict
