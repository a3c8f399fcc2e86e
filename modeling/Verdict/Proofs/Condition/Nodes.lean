import Verdict.Proofs.Condition.Depth

/-!
# Nodes in order

The nodes of a condition in the order in which a tree is read: a node comes before the parts below
it, and the left side of a connective with all its parts before the right side. On paths this is the
lexicographic order. What comes between a node and one of the parts right below it belongs to the
node, and so it has a longer path.
-/

namespace Verdict

/-- The one path comes before the other: it ends where the other goes on, or it goes to the left
where the other goes to the right. -/
def Precedes : List Branch → List Branch → Prop :=
  List.Lex fun b b' => b = .left ∧ b' = .right

namespace Precedes

theorem cons {p q : List Branch} (h : Precedes p q) (b : Branch) :
  Precedes (b :: p) (b :: q)
  := List.Lex.cons h

theorem nil_cons (b : Branch) (p : List Branch) :
  Precedes [] (b :: p)
  := List.Lex.nil

theorem left_right (p q : List Branch) :
  Precedes (.left :: p) (.right :: q)
  := List.Lex.rel ⟨rfl, rfl⟩

/-- Between a path and one that goes on by one branch there are longer paths only. -/
theorem length_lt_of_between {p q : List Branch} {b : Branch} (h : Precedes p q)
    (h' : Precedes q (p ++ [b])) :
  p.length < q.length
  := by
  induction p generalizing q with
  | nil =>
    cases h
    apply Nat.zero_lt_succ
  | cons a p ih =>
    cases h with
    | cons h =>
      cases h' with
      | cons h' => exact Nat.succ_lt_succ (ih h h')
      | rel hturn => cases hturn.1.symm.trans hturn.2
    | rel hturn =>
      -- the second path has gone to the right, and the third to the left
      obtain ⟨rfl, rfl⟩ := hturn
      cases h' with
      | rel hturn => cases hturn.1

end Precedes

namespace Condition

/-- A node of a part, as one of the whole. -/
def under (b : Branch) (x : List Branch × Condition) : List Branch × Condition :=
  (b :: x.1, x.2)

/-- The nodes of a condition with their paths. -/
def nodes : Condition → List (List Branch × Condition)
  | .join op left right =>
    ([], .join op left right) ::
      (left.nodes.map (under .left) ++ right.nodes.map (under .right))
  | .group inner => ([], .group inner) :: inner.nodes.map (under .inner)
  | e => [([], e)]

theorem mem_map_under {b b' : Branch} {path : List Branch} {d : Condition}
    {xs : List (List Branch × Condition)} :
  (b :: path, d) ∈ xs.map (under b') ↔ b = b' ∧ (path, d) ∈ xs
  := by
  simp only [List.mem_map, under, Prod.mk.injEq, List.cons.injEq]
  constructor
  · rintro ⟨⟨path', d'⟩, hx, ⟨rfl, rfl⟩, rfl⟩
    exact ⟨rfl, hx⟩
  · rintro ⟨rfl, hx⟩
    exact ⟨_, hx, ⟨rfl, rfl⟩, rfl⟩

theorem nil_not_mem_map_under {b : Branch} {d : Condition} {xs : List (List Branch × Condition)} :
  ([], d) ∉ xs.map (under b)
  := by simp [under]

/-- The nodes are the parts of the condition, each at its path. -/
theorem mem_nodes_iff {e d : Condition} {path : List Branch} :
  (path, d) ∈ e.nodes ↔ e.node? path = some d
  := by
  induction e generalizing path with
  | compare | missing | alien =>
    cases path with
    | nil => simp [nodes, node?, eq_comm]
    | cons b path => cases b <;> simp [nodes, node?]
  | join op left right ihleft ihright =>
    cases path with
    | nil => simp [nodes, node?, nil_not_mem_map_under, eq_comm]
    | cons b path => cases b <;> simp [nodes, node?, mem_map_under, ihleft, ihright]
  | group inner ih =>
    cases path with
    | nil => simp [nodes, node?, nil_not_mem_map_under, eq_comm]
    | cons b path => cases b <;> simp [nodes, node?, mem_map_under, ih]

theorem length_nodes (e : Condition) :
  e.nodes.length = e.nodeCount
  := by
  induction e with
  | compare | missing | alien => rfl
  | join op left right ihleft ihright => simp [nodes, nodeCount, ihleft, ihright]
  | group inner ih => simp [nodes, nodeCount, ih]

theorem pairwise_map_under {xs : List (List Branch × Condition)} (b : Branch)
    (h : xs.Pairwise fun x y => Precedes x.1 y.1) :
  (xs.map (under b)).Pairwise fun x y => Precedes x.1 y.1
  := by
  rw [List.pairwise_map]
  apply h.imp
  intro x y hxy
  apply hxy.cons

theorem precedes_of_mem_map_under {b : Branch} {xs : List (List Branch × Condition)}
    {x : List Branch × Condition} (h : x ∈ xs.map (under b)) :
  Precedes [] x.1
  := by
  obtain ⟨y, -, rfl⟩ := List.mem_map.mp h
  apply Precedes.nil_cons

/-- The nodes stand in the order of their paths. -/
theorem pairwise_precedes_nodes (e : Condition) :
  e.nodes.Pairwise fun x y => Precedes x.1 y.1
  := by
  induction e with
  | compare | missing | alien => apply List.pairwise_singleton
  | join op left right ihleft ihright =>
    rw [nodes, List.pairwise_cons, List.pairwise_append]
    refine ⟨?_, pairwise_map_under _ ihleft, pairwise_map_under _ ihright, ?_⟩
    · intro x hx
      rcases List.mem_append.mp hx with hleft | hright
      · apply precedes_of_mem_map_under hleft
      · apply precedes_of_mem_map_under hright
    · intro x hx y hy
      obtain ⟨x, -, rfl⟩ := List.mem_map.mp hx
      obtain ⟨y, -, rfl⟩ := List.mem_map.mp hy
      apply Precedes.left_right
  | group inner ih =>
    rw [nodes, List.pairwise_cons]
    use fun _ => precedes_of_mem_map_under
    apply pairwise_map_under _ ih

end Condition

end Verdict
