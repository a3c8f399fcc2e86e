import Mathlib.Data.List.Nodup
import Verdict.Proofs.Evaluation.Loop
import Verdict.Proofs.Evaluation.Regrouping

/-!
# Leaves and lines

Every leaf of a condition is evaluated at most once, from the left to the right, and adds one line
unless it fails. A connective adds a line only when its left side settles it, and then no leaf of
its right side is evaluated. So there are never more lines than leaves.

`Condition.Course` tells with which visits a condition is evaluated and what comes of it: a leaf on
its own, and a connective whose left side fails, settles it, or leaves it to the right side. What is
said of visits is proved along these four cases.
-/

namespace Verdict

/-! ### Visits of a condition -/

/-- The name that a leaf looks up. -/
def Condition.name? : Condition → Option String
  | .compare name _ _ => some name
  | .missing name => some name
  | _ => none

namespace Visit

/-- The path of a leaf that is evaluated. -/
def leaf? : Visit → Option (List Branch)
  | .leaf path => some path
  | .skip _ => none

/-- The steps that a visit adds to the evaluation of a condition. -/
def steps (env : Environment) (e : Condition) : Visit → List Step
  | .leaf path =>
    match e.node? path with
    | some d => (d.evaluate env).steps
    | none => []
  | .skip path =>
    match e.node? path with
    | some (.join (.known c) _ _) => [.skipped c]
    | _ => []

/-- The name that is looked up at a visit. -/
def name? (e : Condition) : Visit → Option String
  | .leaf path => (e.node? path).bind Condition.name?
  | .skip _ => none

variable {b b' : Branch} {p : List Branch} {vs : List Visit}

@[simp]
theorem leaf_cons_mem :
  .leaf (b :: p) ∈ vs.map (under [b']) ↔ b = b' ∧ .leaf p ∈ vs
  := by
  constructor
  · intro h
    obtain ⟨v, hv, heq⟩ := List.mem_map.mp h
    cases v with
    | leaf q =>
      cases heq
      exact ⟨rfl, hv⟩
    | skip q => cases heq
  · rintro ⟨rfl, h⟩
    exact List.mem_map.mpr ⟨.leaf p, h, rfl⟩

@[simp]
theorem skip_cons_mem :
  .skip (b :: p) ∈ vs.map (under [b']) ↔ b = b' ∧ .skip p ∈ vs
  := by
  constructor
  · intro h
    obtain ⟨v, hv, heq⟩ := List.mem_map.mp h
    cases v with
    | leaf q => cases heq
    | skip q =>
      cases heq
      exact ⟨rfl, hv⟩
  · rintro ⟨rfl, h⟩
    exact List.mem_map.mpr ⟨.skip p, h, rfl⟩

@[simp]
theorem leaf_nil_not_mem :
  .leaf [] ∉ vs.map (under [b])
  := by
  intro h
  obtain ⟨v, -, heq⟩ := List.mem_map.mp h
  cases v
  all_goals cases heq

@[simp]
theorem skip_nil_not_mem :
  .skip [] ∉ vs.map (under [b])
  := by
  intro h
  obtain ⟨v, -, heq⟩ := List.mem_map.mp h
  cases v
  all_goals cases heq

theorem filterMap_leaf?_map_under (b : Branch) (vs : List Visit) :
  (vs.map (under [b])).filterMap leaf? = (vs.filterMap leaf?).map (b :: ·)
  := by
  rw [List.filterMap_map, List.map_filterMap]
  congr
  funext v
  cases v
  all_goals rfl

theorem under_injective (b : Branch) :
  Function.Injective (under [b])
  := by
  intro v w h
  cases v with
  | leaf p =>
    cases w with
    | leaf q => simpa [under] using h
    | skip q => cases h
  | skip p =>
    cases w with
    | leaf q => cases h
    | skip q => simpa [under] using h

/-- The steps of a visit to one side of a connective. -/
theorem flatMap_steps_map_under (env : Environment) (op : Operator Connective)
    (left right : Condition) (vs : List Visit) :
  (vs.map (under [.left])).flatMap (steps env (.join op left right)) =
      vs.flatMap (steps env left)
    ∧ (vs.map (under [.right])).flatMap (steps env (.join op left right)) =
      vs.flatMap (steps env right)
  := by
  rw [List.flatMap_map, List.flatMap_map]
  constructor
  · congr
    funext v
    cases v
    all_goals rfl
  · congr
    funext v
    cases v
    all_goals rfl

/-- The names of visits to one side of a connective. -/
theorem filterMap_name?_map_under (op : Operator Connective) (left right : Condition)
    (vs : List Visit) :
  (vs.map (under [.left])).filterMap (name? (.join op left right)) = vs.filterMap (name? left)
    ∧ (vs.map (under [.right])).filterMap (name? (.join op left right)) =
      vs.filterMap (name? right)
  := by
  rw [List.filterMap_map, List.filterMap_map]
  constructor
  · congr
    funext v
    cases v
    all_goals rfl
  · congr
    funext v
    cases v
    all_goals rfl

end Visit

namespace Condition

/-- The paths to the leaves of a condition in their order. -/
def leafPaths : Condition → List (List Branch)
  | .join _ left right => left.leafPaths.map (.left :: ·) ++ right.leafPaths.map (.right :: ·)
  | .group inner => inner.leafPaths.map (.inner :: ·)
  | _ => [[]]

theorem map_node?_leafPaths (e : Condition) :
  e.leafPaths.map (node? · e) = e.leaves.map some
  := by
  induction e with
  | compare | missing | alien => rfl
  | join op left right ihleft ihright =>
    rw [leafPaths, leaves, List.map_append, List.map_append, List.map_map, List.map_map, ← ihleft,
      ← ihright]
    rfl
  | group inner ih =>
    rw [leafPaths, leaves, List.map_map, ← ih]
    rfl

theorem one_le_length_leaves (e : Condition) :
  1 ≤ e.leaves.length
  := by
  induction e with
  | compare | missing | alien => apply Nat.le_refl
  | join op left right ihleft ihright =>
    rw [leaves, List.length_append]
    omega
  | group inner ih => exact ih

theorem nodup_leafPaths (e : Condition) :
  e.leafPaths.Nodup
  := by
  induction e with
  | compare | missing | alien => apply List.nodup_singleton
  | join op left right ihleft ihright =>
    rw [leafPaths, List.nodup_append]
    refine ⟨ihleft.map List.cons_injective, ihright.map List.cons_injective, ?_⟩
    simp
  | group inner ih => exact ih.map List.cons_injective

/-- The condition is a comparison with a known relation or a test for a missing value. -/
inductive IsLeaf : Condition → Prop where
  | compare (name : String) (r : Relation) (literal : Int) :
    IsLeaf (.compare name (.known r) literal)
  | missing (name : String) : IsLeaf (.missing name)

/-- A leaf gives a value with one step, or it fails without a step. -/
theorem IsLeaf.say_or_fail {d : Condition} (h : d.IsLeaf) (env : Environment) :
  (∃ s b, d.evaluate env = .say s b) ∨ ∃ f, d.evaluate env = .fail f
  := by
  have htold (s : Step) (b : Bool) :
      (∃ s' b', Run.tell s b = .say s' b') ∨ ∃ f, Run.tell s b = .fail f := by
    rcases Run.say_or_fail_of_tell s b with htold | ⟨f, -, htold⟩
    · exact Or.inl ⟨s, b, htold⟩
    · exact Or.inr ⟨_, htold⟩
  cases h with
  | compare name r literal =>
    rw [evaluate]
    cases env.value? name with
    | none => exact Or.inr ⟨_, rfl⟩
    | some v => apply htold
  | missing name => apply htold

/-- A condition is evaluated with the given visits, and the given run comes of it. -/
inductive Course (env : Environment) : Condition → List Visit → Run Bool → Prop where
  | leaf {d : Condition} (h : d.IsLeaf) : Course env d [.leaf []] (d.evaluate env)
  /-- The left side fails. -/
  | failed {c : Connective} {left right : Condition} {vs : List Visit} {x : Run Bool} {f : Failure}
      (hleft : Course env left vs x) (h : x.result = .error f) :
    Course env (.join (.known c) left right) (vs.map (.under [.left])) ⟨x.steps, .error f⟩
  /-- The left side settles the value. -/
  | settled {c : Connective} {left right : Condition} {vs : List Visit} {x : Run Bool}
      (hleft : Course env left vs x) (h : x.result = .ok c.deciding) :
    Course env (.join (.known c) left right) (vs.map (.under [.left]) ++ [.skip []])
      ⟨x.steps ++ [.skipped c], .ok c.deciding⟩
  /-- The value is that of the right side. -/
  | both {c : Connective} {left right : Condition} {vs ws : List Visit} {x y : Run Bool} {b : Bool}
      (hleft : Course env left vs x) (h : x.result = .ok b) (hb : b ≠ c.deciding)
      (hright : Course env right ws y) :
    Course env (.join (.known c) left right)
      (vs.map (.under [.left]) ++ ws.map (.under [.right])) ⟨x.steps ++ y.steps, y.result⟩

/-- A well-formed condition without groups is evaluated in one of these ways. -/
theorem WellFormed.course {e : Condition} (h : e.WellFormed) (hfree : e.GroupFree)
    (env : Environment) :
  Course env e (e.visits env) (e.evaluate env)
  := by
  induction e with
  | compare name op literal =>
    cases op with
    | foreign text => cases h.1
    | known r => exact .leaf (.compare name r literal)
  | missing name => exact .leaf (.missing name)
  | join op left right ihleft ihright =>
    obtain ⟨hop, hleft, hright⟩ := h
    cases op with
    | foreign text => cases hop
    | known c =>
      have hl := ihleft hleft hfree.1
      cases hresult : (left.evaluate env).result with
      | error f =>
        obtain ⟨hrun, hvisits⟩ := join_of_error hresult (.known c) right
        rw [hrun, hvisits]
        apply hl.failed hresult
      | ok b =>
        by_cases hb : b = c.deciding
        · subst hb
          obtain ⟨hrun, hvisits⟩ := join_of_settled hresult right
          rw [hrun, hvisits]
          apply hl.settled hresult
        · obtain ⟨hrun, hvisits⟩ := join_of_open hresult hb right
          rw [hrun, hvisits]
          apply hl.both hresult hb (ihright hright hfree.2)
  | group inner => exact hfree.elim
  | alien typeName => exact h.elim

namespace Course

variable {env : Environment} {e : Condition} {vs : List Visit} {x : Run Bool}

theorem run_eq (h : Course env e vs x) :
  x = e.evaluate env
  := by
  induction h with
  | leaf h => rfl
  | failed hleft h ih =>
    subst ih
    exact (join_of_error h _ _).1.symm
  | settled hleft h ih =>
    subst ih
    exact (join_of_settled h _).1.symm
  | both hleft h hb hright ihleft ihright =>
    subst ihleft ihright
    exact (join_of_open h hb _).1.symm

/-- The leaves that are evaluated are leaves of the condition, in their order. -/
theorem visited_sublist (h : Course env e vs x) :
  (vs.filterMap Visit.leaf?).Sublist e.leafPaths
  := by
  induction h with
  | leaf h =>
    cases h
    all_goals apply List.Sublist.refl
  | failed hleft h ih =>
    rw [Visit.filterMap_leaf?_map_under, leafPaths]
    apply (ih.map _).trans (List.sublist_append_left _ _)
  | settled hleft h ih =>
    rw [List.filterMap_append, Visit.filterMap_leaf?_map_under, leafPaths]
    apply (ih.map _).append (List.nil_sublist _)
  | both hleft h hb hright ihleft ihright =>
    rw [List.filterMap_append, Visit.filterMap_leaf?_map_under, Visit.filterMap_leaf?_map_under,
      leafPaths]
    apply (ihleft.map _).append (ihright.map _)

/-- The first leaf of the left side is the first leaf of a connective. -/
theorem exists_head_join {left : Condition}
    (h : ∃ p, (vs.filterMap Visit.leaf?).head? = some p ∧ left.leafPaths.head? = some p)
    (op : Operator Connective) (right : Condition) (ws : List Visit) :
  ∃ p, ((vs.map (Visit.under [.left]) ++ ws).filterMap Visit.leaf?).head? = some p
    ∧ (join op left right).leafPaths.head? = some p
  := by
  obtain ⟨p, hvisited, hleaf⟩ := h
  use .left :: p
  rw [List.filterMap_append, Visit.filterMap_leaf?_map_under, leafPaths, List.head?_append,
    List.head?_append, List.head?_map, List.head?_map, hvisited, hleaf]
  exact ⟨rfl, rfl⟩

/-- The first leaf is always evaluated, before all others. -/
theorem exists_head (h : Course env e vs x) :
  ∃ p, (vs.filterMap Visit.leaf?).head? = some p ∧ e.leafPaths.head? = some p
  := by
  induction h with
  | leaf h =>
    cases h
    all_goals exact ⟨[], rfl, rfl⟩
  | failed hleft h ih =>
    rw [← List.append_nil (List.map _ _)]
    apply exists_head_join ih
  | settled hleft h ih => apply exists_head_join ih
  | both hleft h hb hright ihleft ihright => apply exists_head_join ihleft

theorem exists_leaf_mem (h : Course env e vs x) :
  ∃ p, .leaf p ∈ vs
  := by
  obtain ⟨p, hvisited, -⟩ := h.exists_head
  obtain ⟨v, hv, hpath⟩ := List.mem_filterMap.mp (List.mem_of_mem_head? hvisited)
  cases v with
  | leaf q => exact ⟨q, hv⟩
  | skip q => cases hpath

/-- Nothing is done twice. -/
theorem nodup (h : Course env e vs x) :
  vs.Nodup
  := by
  induction h with
  | leaf h => apply List.nodup_singleton
  | failed hleft h ih => apply ih.map (Visit.under_injective _)
  | settled hleft h ih =>
    rw [List.nodup_append]
    refine ⟨ih.map (Visit.under_injective _), List.nodup_singleton _, ?_⟩
    rintro v hv w hw rfl
    obtain rfl := List.mem_singleton.mp hw
    exact Visit.skip_nil_not_mem hv
  | both hleft h hb hright ihleft ihright =>
    rw [List.nodup_append]
    refine ⟨ihleft.map (Visit.under_injective _), ihright.map (Visit.under_injective _), ?_⟩
    rintro v hv w hw rfl
    obtain ⟨v', -, rfl⟩ := List.mem_map.mp hv
    cases v' with
    | leaf p => simp [Visit.under] at hw
    | skip p => simp [Visit.under] at hw

/-- The steps of the run are those of the visits. -/
theorem steps_eq (h : Course env e vs x) :
  x.steps = vs.flatMap (Visit.steps env e)
  := by
  induction h with
  | leaf h => exact (List.append_nil _).symm
  | failed hleft h ih => rw [(Visit.flatMap_steps_map_under ..).1, ih]
  | settled hleft h ih =>
    rw [List.flatMap_append, (Visit.flatMap_steps_map_under ..).1, ih]
    rfl
  | both hleft h hb hright ihleft ihright =>
    rw [List.flatMap_append, (Visit.flatMap_steps_map_under ..).1,
      (Visit.flatMap_steps_map_under ..).2, ihleft, ihright]

/-- The names that the run tells of are those that are looked up at the visits. -/
theorem names_eq (h : Course env e vs x) :
  x.names = vs.filterMap (Visit.name? e)
  := by
  induction h with
  | leaf h =>
    cases h with
    | compare name r literal => apply names_compare
    | missing name => apply names_missing
  | failed hleft h ih =>
    rw [(Visit.filterMap_name?_map_under ..).1, ← ih, Run.names, Run.names, h]
  | settled hleft h ih =>
    rw [List.filterMap_append, (Visit.filterMap_name?_map_under ..).1, ← ih, Run.names, Run.names,
      h, List.filterMap_append, List.append_nil, List.append_nil]
    rfl
  | both hleft h hb hright ihleft ihright =>
    rw [List.filterMap_append, (Visit.filterMap_name?_map_under ..).1,
      (Visit.filterMap_name?_map_under ..).2, ← ihleft, ← ihright, Run.names, Run.names, Run.names,
      h, List.filterMap_append]
    simp

/-- There are not more steps than leaves. -/
theorem length_steps_le (h : Course env e vs x) :
  x.steps.length ≤ e.leaves.length
  := by
  induction h with
  | @leaf d h =>
    rcases h.say_or_fail env with ⟨s, b, hrun⟩ | ⟨f, hrun⟩
    · rw [hrun]
      apply d.one_le_length_leaves
    · rw [hrun]
      apply Nat.zero_le
  | failed hleft h ih =>
    rw [leaves, List.length_append]
    apply Nat.le_add_right_of_le ih
  | @settled c left right vs x hleft h ih =>
    -- the line of the connective stands for the leaves of the right side
    have hright := right.one_le_length_leaves
    rw [leaves, List.length_append, List.length_append]
    exact Nat.add_le_add ih hright
  | both hleft h hb hright ihleft ihright =>
    rw [leaves, List.length_append, List.length_append]
    apply Nat.add_le_add ihleft ihright

/-- A run that gives a value has a step. -/
theorem one_le_length_steps (h : Course env e vs x) {b : Bool} (hx : x.result = .ok b) :
  1 ≤ x.steps.length
  := by
  induction h with
  | leaf h =>
    rcases h.say_or_fail env with ⟨s, b', hrun⟩ | ⟨f, hrun⟩
    · rw [hrun]
      apply Nat.le_refl
    · rw [hrun] at hx
      cases hx
  | failed hleft h ih => cases hx
  | settled hleft h ih =>
    rw [List.length_append]
    apply Nat.le_add_left
  | both hleft h hb hright ihleft ihright =>
    rw [List.length_append]
    apply Nat.le_add_left_of_le (ihright hx)

/-- A leaf that is evaluated is one of the condition, and if it fails, the run fails as it does. -/
theorem leaf_of_mem (h : Course env e vs x) {p : List Branch} (hp : .leaf p ∈ vs) :
  ∃ d, e.node? p = some d ∧ d.IsLeaf
    ∧ ∀ f, (d.evaluate env).result = .error f → x.result = .error f
  := by
  induction h generalizing p with
  | @leaf d h =>
    cases List.mem_singleton.mp hp
    exact ⟨d, rfl, h, fun _ => id⟩
  | failed hleft h ih =>
    cases p with
    | nil => simp at hp
    | cons b p =>
      obtain ⟨rfl, hmem⟩ := Visit.leaf_cons_mem.mp hp
      obtain ⟨d, hnode, hd, hfail⟩ := ih hmem
      exact ⟨d, hnode, hd, fun f hf => h.symm.trans (hfail f hf)⟩
  | settled hleft h ih =>
    cases p with
    | nil => simp at hp
    | cons b p =>
      rw [List.mem_append, Visit.leaf_cons_mem] at hp
      rcases hp with ⟨rfl, hmem⟩ | hlast
      · obtain ⟨d, hnode, hd, hfail⟩ := ih hmem
        exact ⟨d, hnode, hd, fun f hf => h.symm.trans (hfail f hf)⟩
      · simp at hlast
  | both hleft h hb hright ihleft ihright =>
    cases p with
    | nil => simp at hp
    | cons b p =>
      rw [List.mem_append, Visit.leaf_cons_mem, Visit.leaf_cons_mem] at hp
      rcases hp with ⟨rfl, hmem⟩ | ⟨rfl, hmem⟩
      · obtain ⟨d, hnode, hd, hfail⟩ := ihleft hmem
        refine ⟨d, hnode, hd, ?_⟩
        intro f hf
        cases h.symm.trans (hfail f hf)
      · apply ihright hmem

/-- A right side is left out where the left side of a connective is evaluated and settles it. -/
theorem skip_mem_iff (h : Course env e vs x) (p : List Branch) :
  .skip p ∈ vs ↔ ∃ c left right, e.node? p = some (.join (.known c) left right)
    ∧ (∃ q, .leaf (p ++ .left :: q) ∈ vs) ∧ (left.evaluate env).result = .ok c.deciding
  := by
  induction h generalizing p with
  | leaf h =>
    cases h
    all_goals
      cases p with
      | nil => simp [node?]
      | cons b p => cases b <;> simp [node?]
  | failed hleft h ih =>
    rw [hleft.run_eq] at h
    cases p with
    | nil => simp [node?, h]
    | cons b p =>
      cases b with
      | left => simp [node?, ih]
      | right => simp
      | inner => simp
  | settled hleft h ih =>
    rw [hleft.run_eq] at h
    obtain ⟨q, hq⟩ := hleft.exists_leaf_mem
    cases p with
    | nil =>
      constructor
      · intro _
        exact ⟨_, _, _, rfl, ⟨q, by simp [hq]⟩, h⟩
      · intro _
        simp
    | cons b p =>
      cases b with
      | left => simp [node?, ih]
      | right => simp
      | inner => simp
  | both hleft h hb hright ihleft ihright =>
    rw [hleft.run_eq] at h
    cases p with
    | nil => simp [node?, h, hb]
    | cons b p =>
      cases b with
      | left => simp [node?, ihleft]
      | right => simp [node?, ihright]
      | inner => simp

/-- Of a right side that is left out no leaf is evaluated. -/
theorem leaf_not_mem_of_skip (h : Course env e vs x) {p : List Branch} (hp : .skip p ∈ vs)
    (q : List Branch) :
  .leaf (p ++ .right :: q) ∉ vs
  := by
  induction h generalizing p with
  | leaf h => simp at hp
  | failed hleft h ih =>
    cases p with
    | nil => simp
    | cons b p =>
      cases b with
      | left => simpa using ih (by simpa using hp)
      | right => simp at hp
      | inner => simp at hp
  | settled hleft h ih =>
    cases p with
    | nil => simp
    | cons b p =>
      cases b with
      | left => simpa using ih (by simpa using hp)
      | right => simp at hp
      | inner => simp at hp
  | both hleft h hb hright ihleft ihright =>
    cases p with
    | nil => simp at hp
    | cons b p =>
      cases b with
      | left => simpa using ihleft (by simpa using hp)
      | right => simpa using ihright (by simpa using hp)
      | inner => simp at hp

end Course

/-- The evaluation of a condition visits every leaf at most once. A loop with a stack does what the
visits tell, with the same result and the same steps, in as many steps as the condition has size.
The steps are those of the visits one after the other, and so are the names that are looked up. The
leaves that are visited are leaves of the condition in their order, the first of them included. Such
a leaf has one step, or it fails and the evaluation fails as it does. A right side is left out, with
one step, where the left side of the connective is evaluated and settles it, and then none of its
leaves is visited. There are not more steps than leaves, and at least one if there is a value. -/
theorem evaluate_visits {e : Condition} (h : e.WellFormed) (hfree : e.GroupFree)
    (env : Environment) :
  (Loop.step env)^[e.size] (.start e) =
      ⟨[], (e.evaluate env).result, e.visits env, (e.evaluate env).steps⟩
    ∧ (e.evaluate env).steps = (e.visits env).flatMap (Visit.steps env e)
    ∧ (e.evaluate env).names = (e.visits env).filterMap (Visit.name? e)
    ∧ (e.visits env).Nodup
    ∧ e.leafPaths.Nodup ∧ e.leafPaths.map (node? · e) = e.leaves.map some
    ∧ ((e.visits env).filterMap Visit.leaf?).Sublist e.leafPaths
    ∧ (∃ p, ((e.visits env).filterMap Visit.leaf?).head? = some p ∧ e.leafPaths.head? = some p)
    ∧ (∀ p, .leaf p ∈ e.visits env → ∃ d, e.node? p = some d ∧ d.IsLeaf
      ∧ ((∃ s b, d.evaluate env = .say s b ∧ Visit.steps env e (.leaf p) = [s])
        ∨ ∃ f, d.evaluate env = .fail f ∧ Visit.steps env e (.leaf p) = []
          ∧ (e.evaluate env).result = .error f))
    ∧ (∀ p, .skip p ∈ e.visits env ↔ ∃ c left right, e.node? p = some (.join (.known c) left right)
      ∧ (∃ q, .leaf (p ++ .left :: q) ∈ e.visits env)
      ∧ (left.evaluate env).result = .ok c.deciding)
    ∧ (∀ p c left right, e.node? p = some (.join (.known c) left right) →
      Visit.steps env e (.skip p) = [.skipped c])
    ∧ (∀ p, .skip p ∈ e.visits env → ∀ q, .leaf (p ++ .right :: q) ∉ e.visits env)
    ∧ (e.evaluate env).steps.length ≤ e.leaves.length
    ∧ ∀ b, (e.evaluate env).result = .ok b → 1 ≤ (e.evaluate env).steps.length
  := by
  have hcourse := h.course hfree env
  refine ⟨Loop.iterate_step_start env e, hcourse.steps_eq, hcourse.names_eq, hcourse.nodup,
    nodup_leafPaths e, map_node?_leafPaths e, hcourse.visited_sublist, hcourse.exists_head, ?_,
    hcourse.skip_mem_iff, ?_, fun p => hcourse.leaf_not_mem_of_skip, hcourse.length_steps_le,
    fun b => hcourse.one_le_length_steps⟩
  · intro p hp
    obtain ⟨d, hnode, hd, hfail⟩ := hcourse.leaf_of_mem hp
    use d, hnode, hd
    rw [Visit.steps, hnode]
    rcases hd.say_or_fail env with ⟨s, b, hrun⟩ | ⟨f, hrun⟩
    · exact Or.inl ⟨s, b, hrun, congrArg Run.steps hrun⟩
    · have hresult : (d.evaluate env).result = .error f := congrArg Run.result hrun
      exact Or.inr ⟨f, hrun, congrArg Run.steps hrun, hfail f hresult⟩
  · intro p c left right hnode
    rw [Visit.steps, hnode]

/-- The condition `(a > 0 OR b > 0) AND IS-MISSING(c)` without its group. -/
def twofoldCondition : Condition :=
  .join (.known .and)
    (.join (.known .or) (.compare "a" (.known .gt) 0) (.compare "b" (.known .gt) 0))
    (.missing "c")

/-- Where `a` has the value 1, the comparison with `b` is left out. -/
theorem evaluate_visits_twofoldCondition :
  twofoldCondition.WellFormed ∧ twofoldCondition.GroupFree
    ∧ twofoldCondition.visits oneBound = [.leaf [.left, .left], .skip [.left], .leaf [.right]]
    ∧ (∀ q, .leaf ([.left] ++ .right :: q) ∉ twofoldCondition.visits oneBound)
    ∧ (twofoldCondition.evaluate oneBound).steps.length ≤ 3
  := by
  have h : twofoldCondition.WellFormed := by decide
  have hfree : twofoldCondition.GroupFree := ⟨⟨trivial, trivial⟩, trivial⟩
  have hvisits : twofoldCondition.visits oneBound =
      [.leaf [.left, .left], .skip [.left], .leaf [.right]] := rfl
  obtain ⟨-, -, -, -, -, -, -, -, -, -, -, hskip, hlength, -⟩ := evaluate_visits h hfree oneBound
  have hmem : .skip [.left] ∈ twofoldCondition.visits oneBound := by simp [hvisits]
  exact ⟨h, hfree, hvisits, hskip [.left] hmem, hlength⟩

end Condition

end Verdict
