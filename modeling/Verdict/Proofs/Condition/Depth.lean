import Mathlib.Order.Bounds.Basic
import Verdict.Proofs.Evaluation.Visits

/-!
# Levels

The depth of a condition is the number of nodes on its longest path, from the whole down to a leaf.
A loop with a stack finds it: every part lies on the stack with its level, and the greatest level of
a part that was taken from the stack is kept. A group that is removed takes away at most one level,
and the operands of a chain without groups are as many as the levels of its condition.
-/

namespace Verdict

namespace Condition

/-! ### Paths from the whole to the leaves -/

/-- The number of nodes on each path from the whole to a leaf. -/
def pathLengths (e : Condition) : List Nat :=
  e.leafPaths.map fun path => path.length + 1

theorem pathLengths_join (op : Operator Connective) (left right : Condition) :
  (join op left right).pathLengths = (left.pathLengths ++ right.pathLengths).map (· + 1)
  := by simp [pathLengths, leafPaths, Function.comp_def]

theorem pathLengths_group (inner : Condition) :
  (group inner).pathLengths = inner.pathLengths.map (· + 1)
  := by simp [pathLengths, leafPaths, Function.comp_def]

theorem depth_mem_pathLengths (e : Condition) :
  e.depth ∈ e.pathLengths
  := by
  induction e with
  | compare | missing | alien => apply List.mem_singleton_self
  | join op left right ihleft ihright =>
    rw [pathLengths_join, depth]
    apply List.mem_map_of_mem
    rw [List.mem_append]
    -- the longer one of the two paths is a path of its side
    rcases Nat.le_total left.depth right.depth with hle | hle
    · rw [Nat.max_eq_right hle]
      right
      apply ihright
    · rw [Nat.max_eq_left hle]
      left
      apply ihleft
  | group inner ih =>
    rw [pathLengths_group, depth]
    apply List.mem_map_of_mem ih

theorem one_le_depth (e : Condition) :
  1 ≤ e.depth
  := by
  cases e
  all_goals simp [depth]

theorem le_depth {e : Condition} {n : Nat} (h : n ∈ e.pathLengths) :
  n ≤ e.depth
  := by
  induction e generalizing n with
  | compare | missing | alien =>
    cases List.mem_singleton.mp h
    apply Nat.le_refl
  | join op left right ihleft ihright =>
    rw [pathLengths_join] at h
    obtain ⟨m, hm, rfl⟩ := List.mem_map.mp h
    apply Nat.succ_le_succ
    rcases List.mem_append.mp hm with hleft | hright
    · apply (ihleft hleft).trans (Nat.le_max_left ..)
    · apply (ihright hright).trans (Nat.le_max_right ..)
  | group inner ih =>
    rw [pathLengths_group] at h
    obtain ⟨m, hm, rfl⟩ := List.mem_map.mp h
    apply Nat.succ_le_succ (ih hm)

/-- The depth of a condition is the number of nodes on its longest path. -/
theorem isGreatest_depth (e : Condition) :
  IsGreatest {n | n ∈ e.pathLengths} e.depth
  := ⟨e.depth_mem_pathLengths, fun _ => le_depth⟩

/-! ### Groups -/

/-- The number of groups in a condition. -/
def groupCount : Condition → Nat
  | .join _ left right => left.groupCount + right.groupCount
  | .group inner => inner.groupCount + 1
  | _ => 0

theorem depth_le_of_reduce {e e' : Condition} (h : e.reduce = .ok e') :
  e'.depth ≤ e.depth
  := by
  induction e, e', h using reduce_induction with
  | compare | missing => apply Nat.le_refl
  | join op l l' r r' hl hr hop ihl ihr =>
    rw [depth, depth]
    omega
  | group e e' h ih =>
    rw [depth]
    omega

/-- Not more levels are lost than there are groups. -/
theorem depth_le_add_groupCount {e e' : Condition} (h : e.reduce = .ok e') :
  e.depth ≤ e'.depth + e.groupCount
  := by
  induction e, e', h using reduce_induction with
  | compare | missing => apply Nat.le_refl
  | join op l l' r r' hl hr hop ihl ihr =>
    rw [depth, depth, groupCount]
    omega
  | group e e' h ih =>
    rw [depth, groupCount]
    omega

end Condition

/-- A chain without groups has as many levels as leaves. -/
theorem Grammar.Chain.depth_condition : ∀ c : Chain, c.condition.GroupFree →
    c.condition.depth = c.condition.leaves.length
  | .last (.compare ..), _ => rfl
  | .last (.missing ..), _ => rfl
  | .last (.group ..), h => h.elim
  | .link o c word rest, h => by
    have ih := rest.depth_condition h.2
    have hleaves := rest.condition.one_le_length_leaves
    have hfree : o.condition.GroupFree := h.1
    rw [condition, Condition.depth, Condition.leaves, List.length_append, ih]
    cases o with
    | compare name r sign literal =>
      rw [show (Operand.compare name r sign literal).condition.depth = 1 from rfl,
        show (Operand.compare name r sign literal).condition.leaves.length = 1 from rfl]
      omega
    | missing word left name right =>
      rw [show (Operand.missing word left name right).condition.depth = 1 from rfl,
        show (Operand.missing word left name right).condition.leaves.length = 1 from rfl]
      omega
    | group left content right => exact hfree.elim

/-! ### The loop -/

/-- The number of nodes of a condition. -/
def Condition.nodeCount : Condition → Nat
  | .join _ left right => left.nodeCount + right.nodeCount + 1
  | .group inner => inner.nodeCount + 1
  | _ => 1

/-- The nodes that are still to be visited, of which the first is the next one, each with its level,
and the greatest level of those that have been visited. -/
structure Descent where
  pending : List (Condition × Nat)
  deepest : Nat

namespace Descent

/-- The loop at its beginning. -/
def start (e : Condition) : Descent :=
  ⟨[(e, 1)], 0⟩

/-- The next node is visited, and the parts right below it are put on the stack. -/
def step : Descent → Descent
  | ⟨[], deepest⟩ => ⟨[], deepest⟩
  | ⟨(e, level) :: pending, deepest⟩ =>
    let below :=
      match e with
      | .join _ left right => [(right, level + 1), (left, level + 1)]
      | .group inner => [(inner, level + 1)]
      | _ => []
    ⟨below ++ pending, max deepest level⟩

/-- The nodes of a condition are visited, and the others are left as they are. -/
theorem iterate_step_part (e : Condition) (level : Nat) (pending : List (Condition × Nat))
    (deepest : Nat) :
  step^[e.nodeCount] ⟨(e, level + 1) :: pending, deepest⟩ =
    ⟨pending, max deepest (level + e.depth)⟩
  := by
  induction e generalizing level pending deepest with
  | compare | missing | alien => rfl
  | join op left right ihleft ihright =>
    rw [Condition.nodeCount, Function.iterate_succ_apply, Function.iterate_add_apply]
    change step^[left.nodeCount] (step^[right.nodeCount]
      ⟨(right, level + 1 + 1) :: (left, level + 1 + 1) :: pending, max deepest (level + 1)⟩) = _
    -- the right side lies on top, so its nodes are visited before those of the left one
    rw [ihright, ihleft, Condition.depth]
    congr 1
    omega
  | group inner ih =>
    rw [Condition.nodeCount, Function.iterate_succ_apply]
    change step^[inner.nodeCount] ⟨(inner, level + 1 + 1) :: pending, max deepest (level + 1)⟩ = _
    rw [ih, Condition.depth]
    congr 1
    have hdepth := inner.one_le_depth
    omega

/-- The loop ends with the depth of the condition. -/
theorem iterate_step_start (e : Condition) :
  step^[e.nodeCount] (start e) = ⟨[], e.depth⟩
  := by
  rw [start, iterate_step_part e 0, Nat.zero_max, Nat.zero_add]

end Descent

/-! ### Programs -/

namespace Program

/-- The number of nodes on each path from the whole of one of the conditions to a leaf. -/
def pathLengths (p : Program) : List Nat :=
  p.clauses.flatMap fun c => c.condition.pathLengths

/-- The depth of a program is the greatest depth of its conditions. -/
theorem max?_depth {p : Program} (h : p.clauses ≠ []) :
  (p.clauses.map fun c => c.condition.depth).max? = some p.depth
  := by
  obtain ⟨c, cs, hclauses⟩ := List.exists_cons_of_ne_nil h
  rw [depth, hclauses, List.map_cons, List.max?_cons', List.foldl_map, List.foldl_cons,
    Nat.zero_max]

/-- The depth of a program is the number of nodes on the longest path of its conditions. -/
theorem isGreatest_depth {p : Program} (h : p.clauses ≠ []) :
  IsGreatest {n | n ∈ p.pathLengths} p.depth
  := by
  obtain ⟨hmem, hle⟩ := List.max?_eq_some_iff.mp (max?_depth h)
  constructor
  · obtain ⟨c, hc, hdepth⟩ := List.mem_map.mp hmem
    apply List.mem_flatMap.mpr
    use c, hc
    rw [← hdepth]
    apply c.condition.depth_mem_pathLengths
  · intro n hn
    obtain ⟨c, hc, hn⟩ := List.mem_flatMap.mp hn
    apply (Condition.le_depth hn).trans
    apply hle
    apply List.mem_map_of_mem hc

/-- The depth of a program depends on its conditions only. -/
theorem depth_congr {p q : Program}
    (h : p.clauses.map (·.condition) = q.clauses.map (·.condition)) :
  p.depth = q.depth
  := by
  have hfold : ∀ r : Program, r.depth =
      (r.clauses.map (·.condition)).foldl (fun d e => max d e.depth) 0 := by
    intro r
    rw [depth, List.foldl_map]
  rw [hfold, hfold, h]

end Program

end Verdict
