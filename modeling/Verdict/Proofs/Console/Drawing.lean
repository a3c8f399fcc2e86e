import Verdict.Console.Tree
import Verdict.Proofs.Condition.Depth
import Verdict.Proofs.Program.Rendering

/-!
# Drawings of trees

A drawing is a tree with a label at each node. Its lines show one node each, a node above all that
hangs on it, behind the guides of the branches it belongs to. The drawing of a program is made by
hanging one branch after the other on the nodes that are already there. For a condition this is done
with a stack, on which every part lies with the place of the node that it hangs on. However deep the
condition is, the stack below it stays as it is, and the drawing of the whole condition hangs where
it belongs.
-/

namespace Verdict

open Console

/-- A tree with a label at each node. -/
inductive Drawing where
  | node (label : String) (branches : List Drawing)

namespace Drawing

/-! ### The lines of a drawing -/

mutual

/-- The lines of a branch behind the guides `indent`. -/
def branchLines (indent : String) (last : Bool) : Drawing → List String
  | .node label branches =>
    (indent ++ guide last ++ label) :: linesBelow (indent ++ guideBelow last) branches

/-- The lines of the branches of a node behind the guides `indent`. -/
def linesBelow (indent : String) : List Drawing → List String
  | [] => []
  | d :: ds => d.branchLines indent ds.isEmpty ++ linesBelow indent ds

end

/-- The lines of a drawing. -/
def lines : Drawing → List String
  | .node label branches => label :: linesBelow "" branches

theorem linesBelow_append_singleton (indent : String) (ds : List Drawing) (d : Drawing) :
  linesBelow indent (ds ++ [d]) =
    (ds.flatMap (branchLines indent false)) ++ d.branchLines indent true
  := by
  induction ds with
  | nil => simp [linesBelow]
  | cons c ds ih =>
    have hmore : (ds ++ [d]).isEmpty = false := by simp
    simp [linesBelow, ih, hmore]

/-! ### Hanging a branch on a node -/

/-- The part of a drawing at a place, which is given by the numbers of the branches that lead
there. -/
def node? : List Nat → Drawing → Option Drawing
  | [], d => some d
  | i :: place, .node _ branches => branches[i]?.bind (node? place)

/-- The drawing with one more branch, the last one, on the node at a place. -/
def add : Drawing → List Nat → Drawing → Drawing
  | .node label branches, [], b => .node label (branches ++ [b])
  | .node label branches, i :: place, b =>
    .node label (branches.modify i fun d => add d place b)

/-- The number of branches of the node at a place. -/
def width (d : Drawing) (place : List Nat) : Nat :=
  match d.node? place with
  | some (.node _ branches) => branches.length
  | none => 0

variable {d : Drawing} {place : List Nat} {label : String} {branches : List Drawing}

theorem width_eq (h : d.node? place = some (.node label branches)) :
  d.width place = branches.length
  := by rw [width, h]

/-- The new branch is the last one of its node. -/
theorem node?_add (h : d.node? place = some (.node label branches)) (b : Drawing) :
  (d.add place b).node? (place ++ [branches.length]) = some b
  := by
  induction place generalizing d with
  | nil =>
    cases h
    simp [add, node?]
  | cons i place ih =>
    obtain ⟨l, ds⟩ := d
    obtain ⟨c, hc, hnode⟩ := Option.bind_eq_some_iff.mp h
    simp [add, node?, hc, ih hnode]

/-- A branch is hung on the new branch as if that had come with it. -/
theorem add_add (h : d.node? place = some (.node label branches)) (l : String) (ds : List Drawing)
    (b : Drawing) :
  (d.add place (.node l ds)).add (place ++ [branches.length]) b =
    d.add place (.node l (ds ++ [b]))
  := by
  induction place generalizing d with
  | nil =>
    cases h
    have hlast : branches.length < (branches ++ [node l ds]).length := by simp
    simp [add, List.modify_eq_take_cons_drop hlast]
  | cons i place ih =>
    obtain ⟨l', ds'⟩ := d
    obtain ⟨c, hc, hnode⟩ := Option.bind_eq_some_iff.mp h
    rw [List.cons_append, add, add, add, List.modify_modify_eq]
    congr 1
    apply List.ext_getElem?
    intro j
    by_cases hj : i = j
    · subst hj
      simp [hc, ih hnode]
    · simp [hj]

end Drawing

/-! ### Drawing a condition -/

/-- The drawing of a condition. -/
def Condition.drawing : Condition → Drawing
  | .join op left right => .node (label (.join op left right)) [left.drawing, right.drawing]
  | .group inner => .node (label (.group inner)) [inner.drawing]
  | e => .node e.label []

/-- The lines of a condition are those of its drawing. -/
theorem Condition.branchLines_drawing (e : Condition) (indent : String) (last : Bool) :
  e.drawing.branchLines indent last = e.treeLines indent last
  := by
  induction e generalizing indent last with
  | compare | missing | alien => rfl
  | join op left right ihleft ihright =>
    rw [drawing, Drawing.branchLines, Drawing.linesBelow, Drawing.linesBelow, Drawing.linesBelow,
      ihleft, treeLines, List.append_nil]
    congr 2
    apply ihright
  | group inner ih =>
    rw [drawing, Drawing.branchLines, Drawing.linesBelow, Drawing.linesBelow, treeLines,
      List.append_nil]
    congr 1
    apply ih

/-- A drawing that is being made, and the parts that are still to be drawn, of which the first is
the next one, each with the place of the node that it hangs on. -/
structure Sketch where
  drawing : Drawing
  pending : List (List Nat × Condition)

namespace Sketch

/-- The next part is drawn without the parts right below it, which are put on the stack. -/
def step : Sketch → Sketch
  | ⟨d, []⟩ => ⟨d, []⟩
  | ⟨d, (place, e) :: pending⟩ =>
    let place' := place ++ [d.width place]
    let below :=
      match e with
      | .join _ left right => [(place', left), (place', right)]
      | .group inner => [(place', inner)]
      | _ => []
    ⟨d.add place (.node e.label []), below ++ pending⟩

/-- A part is drawn with all that is below it, and the others are left as they are. -/
theorem iterate_step_part (e : Condition) {d : Drawing} {place : List Nat} {label : String}
    {branches : List Drawing} (h : d.node? place = some (.node label branches))
    (pending : List (List Nat × Condition)) :
  step^[e.nodeCount] ⟨d, (place, e) :: pending⟩ = ⟨d.add place e.drawing, pending⟩
  := by
  induction e generalizing d place label branches pending with
  | compare | missing | alien => rfl
  | join op left right ihleft ihright =>
    rw [Condition.nodeCount, Function.iterate_succ_apply, Nat.add_comm, Function.iterate_add_apply]
    rw [step, Drawing.width_eq h]
    change step^[right.nodeCount] (step^[left.nodeCount] ⟨_, _ :: _ :: pending⟩) = _
    -- the left side lies on top, so it becomes the first branch of the connective
    rw [ihleft (Drawing.node?_add h _), Drawing.add_add h, List.nil_append,
      ihright (Drawing.node?_add h _), Drawing.add_add h]
    rfl
  | group inner ih =>
    rw [Condition.nodeCount, Function.iterate_succ_apply, step, Drawing.width_eq h]
    change step^[inner.nodeCount] ⟨_, _ :: pending⟩ = _
    rw [ih (Drawing.node?_add h _), Drawing.add_add h]
    rfl

end Sketch

/-- The drawing with a condition hung on the node at a place. -/
def Drawing.addCondition (d : Drawing) (place : List Nat) (e : Condition) : Drawing :=
  (Sketch.step^[e.nodeCount] ⟨d, [(place, e)]⟩).drawing

/-! ### Drawing a program -/

/-- The label of a clause at the given place. -/
def clauseLabel (index : Nat) (n : Int) : String :=
  "IF #" ++ toString index ++ " → RETURN " ++ toString n

/-- The label of the last clause. -/
def otherwiseLabel (n : Int) : String :=
  "ELSE → RETURN " ++ toString n

/-- The drawings of clauses, the first of which has the given place. -/
def clauseDrawings (index : Nat) : List (Condition × Int) → List Drawing
  | [] => []
  | (e, n) :: cs => .node (clauseLabel index n) [e.drawing] :: clauseDrawings (index + 1) cs

/-- The drawing with clauses hung on its root, the first of which has the given place. -/
def Drawing.addClauses (index : Nat) (d : Drawing) : List (Condition × Int) → Drawing
  | [] => d
  | (e, n) :: cs =>
    addClauses (index + 1)
      ((d.add [] (.node (clauseLabel index n) [])).addCondition [d.width []] e) cs

namespace Outline

/-- The drawing of an outline. -/
def drawing (o : Outline) : Drawing :=
  .node "RuleProgram" (clauseDrawings 0 o.clauses ++ [.node (otherwiseLabel o.otherwise) []])

/-- The drawing of an outline as it is made, branch by branch. -/
def sketched (o : Outline) : Drawing :=
  (Drawing.addClauses 0 (.node "RuleProgram" []) o.clauses).add []
    (.node (otherwiseLabel o.otherwise) [])

end Outline

theorem Drawing.addClauses_node (index : Nat) (label : String) (branches : List Drawing)
    (cs : List (Condition × Int)) :
  addClauses index (.node label branches) cs =
    .node label (branches ++ clauseDrawings index cs)
  := by
  induction cs generalizing index branches with
  | nil => simp [addClauses, clauseDrawings]
  | cons c cs ih =>
    obtain ⟨e, n⟩ := c
    have hroot : (node label branches).node? [] = some (.node label branches) := rfl
    have hbranch := node?_add hroot (.node (clauseLabel index n) [])
    rw [addClauses, addCondition, width_eq hroot, ← List.nil_append [branches.length],
      Sketch.iterate_step_part e hbranch, add_add hroot, List.nil_append, add, ih, clauseDrawings,
      List.append_assoc, List.singleton_append]

/-- The drawing that is made is the one of the outline. -/
theorem Outline.sketched_eq (o : Outline) :
  o.sketched = o.drawing
  := by
  rw [sketched, Drawing.addClauses_node]
  rfl

theorem clauseTreeLines_of_says {ks : List Clause} {cs : List (Condition × Int)}
    (h : List.Forall₂ Clause.Says ks cs) (index : Nat) :
  clauseTreeLines index ks =
    .ok ((clauseDrawings index cs).flatMap (Drawing.branchLines "" false))
  := by
  induction h generalizing index with
  | nil => rfl
  | @cons k c ks cs hk _ ih =>
    obtain ⟨e, n⟩ := c
    obtain ⟨rfl, hnumber⟩ := hk
    have hlines : k.treeLines index =
        .ok ((Drawing.node (clauseLabel index n) [k.condition.drawing]).branchLines "" false) := by
      rw [Clause.treeLines, hnumber, Drawing.branchLines, Drawing.linesBelow, Drawing.linesBelow,
        Condition.branchLines_drawing]
      simp [clauseLabel, String.append_assoc]
    rw [clauseTreeLines, hlines, ih]
    rfl

/-- The lines of a program are those of the drawing of what it says. -/
theorem Program.Says.treeLines_eq {p : Program} {o : Outline} (h : p.Says o) :
  p.treeLines = .ok o.drawing.lines
  := by
  rw [treeLines, clauseTreeLines_of_says h.clauses, h.otherwise, Outline.drawing, Drawing.lines,
    Drawing.linesBelow_append_singleton]
  simp [Drawing.branchLines, Drawing.linesBelow, otherwiseLabel, String.append_assoc]

end Verdict
