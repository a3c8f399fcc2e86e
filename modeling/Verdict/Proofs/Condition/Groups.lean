import Verdict.Proofs.Condition.Walk
import Verdict.Proofs.Evaluation.Absence

/-!
# Conditions up to their groups

Two conditions are the same up to their groups if one becomes the other when groups are put around
parts and taken away again, anywhere and any number of times. Removing all groups picks one
condition out of each class: it stays in the class, it is the same for all conditions of the class,
and from what is left nothing more is removed. A program is therefore evaluated in the same way when
its groups have been removed before. -/

namespace Verdict

namespace Condition

/-! ### What is left -/

/-- What stands in a condition besides its groups: a leaf, or a connective between two sides. -/
inductive Symbol where
  | compare (name : String) (op : Operator Relation) (literal : Int)
  | missing (name : String)
  | connective (op : Operator Connective)
  deriving DecidableEq

/-- The leaves and connectives of a condition in their order. -/
def symbols : Condition → List Symbol
  | .compare name op literal => [.compare name op literal]
  | .missing name => [.missing name]
  | .join op left right => left.symbols ++ .connective op :: right.symbols
  | .group inner => inner.symbols
  | .alien _ => []

/-- Nothing but groups is removed. -/
theorem symbols_reduce {e e' : Condition} (h : e.reduce = .ok e') :
  e'.symbols = e.symbols
  := by
  induction e, e', h using reduce_induction with
  | compare | missing => rfl
  | join op l l' r r' hl hr hop ihl ihr => rw [symbols, symbols, ihl, ihr]
  | group e e' h ih => exact ih

/-- From what is left nothing is removed. -/
theorem reduce_idempotent {e e' : Condition} (h : e.reduce = .ok e') :
  e'.reduce = .ok e'
  := by
  induction e, e', h using reduce_induction with
  | compare | missing => rfl
  | join op l l' r r' hl hr hop ihl ihr =>
    rw [reduce, ihl, ihr]
    exact if_pos hop
  | group e e' h ih => exact ih

/-! ### Sameness up to groups -/

/-- The two conditions are the same up to their groups: the smallest equivalence that respects
connectives and groups and identifies every group with its content. -/
inductive SameUpToGroups : Condition → Condition → Prop where
  | refl (e : Condition) : SameUpToGroups e e
  | symm {e d : Condition} (h : SameUpToGroups e d) : SameUpToGroups d e
  | trans {e d c : Condition} (h : SameUpToGroups e d) (h' : SameUpToGroups d c) :
    SameUpToGroups e c
  | join (op : Operator Connective) {l l' r r' : Condition} (hleft : SameUpToGroups l l')
    (hright : SameUpToGroups r r') : SameUpToGroups (.join op l r) (.join op l' r')
  | group {e d : Condition} (h : SameUpToGroups e d) : SameUpToGroups (.group e) (.group d)
  | content (e : Condition) : SameUpToGroups (.group e) e

/-- A condition is the same as what is left of it. -/
theorem sameUpToGroups_of_reduce {e e' : Condition} (h : e.reduce = .ok e') :
  SameUpToGroups e e'
  := by
  induction e, e', h using reduce_induction with
  | compare | missing => apply SameUpToGroups.refl
  | join op l l' r r' hl hr hop ihl ihr => apply SameUpToGroups.join op ihl ihr
  | group e e' h ih => apply SameUpToGroups.trans (.content e) ih

/-- Of conditions that are the same up to their groups the same is left. -/
theorem SameUpToGroups.reduce_eq {e d : Condition} (h : SameUpToGroups e d) :
  e.reduce = d.reduce
  := by
  induction h with
  | refl e => rfl
  | symm _ ih => exact ih.symm
  | trans _ _ ih ih' => exact ih.trans ih'
  | join op _ _ ihleft ihright => rw [reduce, reduce, ihleft, ihright]
  | group _ ih => exact ih
  | content e => rfl

/-- Conditions of which the same is left are the same up to their groups. -/
theorem sameUpToGroups_of_reduce_eq {e d : Condition} (he : e.Reducible)
    (h : e.reduce = d.reduce) :
  SameUpToGroups e d
  := by
  obtain ⟨e', he'⟩ := he.exists_reduce
  rw [he'] at h
  apply (sameUpToGroups_of_reduce he').trans (sameUpToGroups_of_reduce h.symm).symm

end Condition

/-! ### Programs -/

namespace Program

theorem reduceClauses_idempotent {cs ks : List Clause} (h : reduceClauses cs = .ok ks) :
  reduceClauses ks = .ok ks
  := by
  induction cs generalizing ks with
  | nil =>
    cases h
    rfl
  | cons c cs ih =>
    obtain ⟨e, ks', hreduce, hrest, rfl⟩ := reduceClauses_cons h
    rw [reduceClauses, Condition.reduce_idempotent hreduce, ih hrest]

theorem reduce_idempotent {p q : Program} (h : p.reduce = .ok q) :
  q.reduce = .ok q
  := by
  obtain ⟨hclauses, hne, -⟩ := reduce_eq_ok h
  apply reduce_of_clauses (reduceClauses_idempotent hclauses) hne

/-- A program is evaluated in the same way when its groups have been removed before. -/
theorem evaluate_reduced {p q : Program} (h : p.reduce = .ok q) (env : Environment) :
  q.evaluate env = p.evaluate env
  := by
  rw [evaluate_of_reduce h, evaluate_of_reduce (reduce_idempotent h)]

end Program

/-- The groups of a condition that is put together from comparisons, tests for missing values, known
connectives and groups can be removed, by recursion or step by step. No groups are left, nothing
else is removed or put in another place, and from what is left nothing more is removed. The same is
left of two such conditions if and only if they are the same up to their groups. A program of such
conditions has the same run when its groups have been removed before. -/
theorem Condition.reduce_representative :
  (∀ e : Condition, e.Reducible → ∃ e', e.reduce = .ok e'
      ∧ (Walk.start e).steps e.size = .ok (.finish e') ∧ e'.GroupFree
      ∧ e'.symbols = e.symbols ∧ e'.reduce = .ok e')
    ∧ (∀ e d : Condition, e.Reducible → d.Reducible →
        (e.reduce = d.reduce ↔ SameUpToGroups e d))
    ∧ ∀ p : Program, p.clauses ≠ [] → (∀ c ∈ p.clauses, c.condition.Reducible) →
        ∃ q, p.reduce = .ok q ∧ ∀ env, q.evaluate env = p.evaluate env
  := by
  refine ⟨?_, ?_, ?_⟩
  · intro e he
    obtain ⟨e', h⟩ := he.exists_reduce
    have hwalk := Walk.steps_start e
    rw [h] at hwalk
    exact ⟨e', h, hwalk, groupFree_reduce h, symbols_reduce h, reduce_idempotent h⟩
  · intro e d he _
    exact ⟨sameUpToGroups_of_reduce_eq he, SameUpToGroups.reduce_eq⟩
  · intro p hne hp
    obtain ⟨q, hq⟩ := Program.exists_reduce_of_reducible hne hp
    exact ⟨q, hq, Program.evaluate_reduced hq⟩

/-- A condition with groups around its whole and its parts. -/
def wrapped : Condition :=
  .group (.join (.known .and) (.group (.missing "x")) (.group (.group (.missing "y"))))

/-- The same condition without groups. -/
def unwrapped : Condition :=
  .join (.known .and) (.missing "x") (.missing "y")

/-- The sides of the condition have changed places. -/
def turned : Condition :=
  .join (.known .and) (.missing "y") (.missing "x")

/-- The program `eitherProgram` with a group around its condition. -/
def wrappedProgram : Program :=
  { eitherProgram with
    clauses := eitherProgram.clauses.map fun c => { c with condition := .group c.condition } }

theorem Condition.reduce_representative_wrapped :
  wrapped.Reducible ∧ unwrapped.Reducible
    ∧ (∃ e', wrapped.reduce = .ok e'
      ∧ (Walk.start wrapped).steps wrapped.size = .ok (.finish e') ∧ e'.GroupFree
      ∧ e'.symbols = wrapped.symbols ∧ e'.reduce = .ok e')
    ∧ SameUpToGroups wrapped unwrapped
    ∧ ¬ SameUpToGroups wrapped turned
    ∧ wrappedProgram.clauses ≠ [] ∧ (∀ c ∈ wrappedProgram.clauses, c.condition.Reducible)
    ∧ ∃ q, wrappedProgram.reduce = .ok q ∧ ∀ env, q.evaluate env = wrappedProgram.evaluate env
  := by
  obtain ⟨hreduce, hsame, hprogram⟩ := reduce_representative
  have hwrapped : wrapped.Reducible := ⟨rfl, trivial, trivial⟩
  have hunwrapped : unwrapped.Reducible := ⟨rfl, trivial, trivial⟩
  have hturned : turned.Reducible := ⟨rfl, trivial, trivial⟩
  have hne : wrappedProgram.clauses ≠ [] := List.cons_ne_nil _ _
  have hclauses : ∀ c ∈ wrappedProgram.clauses, c.condition.Reducible := by
    intro c hc
    obtain rfl := List.mem_singleton.mp hc
    exact ⟨rfl, trivial, trivial⟩
  refine ⟨hwrapped, hunwrapped, hreduce wrapped hwrapped, ?_, ?_, hne, hclauses,
    hprogram wrappedProgram hne hclauses⟩
  · apply (hsame wrapped unwrapped hwrapped hunwrapped).mp
    rfl
  · intro h
    have hequal := (hsame wrapped turned hwrapped hturned).mpr h
    revert hequal
    decide

end Verdict
