import Mathlib.Data.List.Forall2
import Mathlib.Tactic.Use
import Verdict.Program.Basic

/-!
# Removing groups

A well-formed condition has its groups removed, and what is left is well formed and has no groups.
Clauses keep their keywords and numbers, and a program as many clauses as it had.
-/

namespace Verdict

/-! ### Conditions -/

/-- A connective that is reduced is a known one between two conditions that are reduced. -/
theorem Condition.reduce_join {op : Operator Connective} {left right e : Condition}
    (h : (join op left right).reduce = .ok e) :
  ∃ l r, left.reduce = .ok l ∧ right.reduce = .ok r ∧ op.isKnown = true ∧ e = .join op l r
  := by
  rw [reduce] at h
  cases hleft : left.reduce with
  | error f => simp [hleft] at h
  | ok l =>
    cases hright : right.reduce with
    | error f => simp [hleft, hright] at h
    | ok r =>
      simp only [hleft, hright] at h
      split at h
      · next hop =>
        cases h
        exact ⟨l, r, rfl, rfl, hop, rfl⟩
      · cases h

/-- What holds of every leaf and itself, and goes over from the sides to a connective and from the
content to a group, holds of every condition and what is left of it when groups are removed. -/
@[elab_as_elim]
theorem Condition.reduce_induction {motive : (e e' : Condition) → e.reduce = .ok e' → Prop}
    (compare : ∀ name op literal, motive (.compare name op literal) (.compare name op literal) rfl)
    (missing : ∀ name, motive (.missing name) (.missing name) rfl)
    (join : ∀ op l l' r r' (hl : l.reduce = .ok l') (hr : r.reduce = .ok r'),
      op.isKnown = true → motive l l' hl → motive r r' hr →
      ∀ h : (Condition.join op l r).reduce = .ok (.join op l' r'),
        motive (.join op l r) (.join op l' r') h)
    (group : ∀ e e' (h : e.reduce = .ok e'), motive e e' h → motive (.group e) e' h)
    (e e' : Condition) (h : e.reduce = .ok e') :
  motive e e' h
  := by
  induction e generalizing e' with
  | compare name op literal =>
    cases h
    apply compare
  | missing name =>
    cases h
    apply missing
  | join op left right ihleft ihright =>
    obtain ⟨l, r, hl, hr, hop, rfl⟩ := reduce_join h
    apply join op left l right r hl hr hop (ihleft l hl) (ihright r hr)
  | group inner ih => apply group inner e' h (ih e' h)
  | alien typeName => cases h

/-- The condition is put together from comparisons, tests for missing values, known connectives and
groups. -/
def Condition.Reducible : Condition → Prop
  | .compare _ _ _ => True
  | .missing _ => True
  | .join op left right => op.isKnown = true ∧ left.Reducible ∧ right.Reducible
  | .group inner => inner.Reducible
  | .alien _ => False

theorem Condition.WellFormed.reducible {e : Condition} (h : e.WellFormed) :
  e.Reducible
  := by
  induction e with
  | compare name op literal => exact trivial
  | missing name => exact trivial
  | join op left right ihleft ihright => exact ⟨h.1, ihleft h.2.1, ihright h.2.2⟩
  | group inner ih => apply ih h
  | alien typeName => exact h

/-- A reducible condition has its groups removed. -/
theorem Condition.Reducible.exists_reduce {e : Condition} (h : e.Reducible) :
  ∃ e', e.reduce = .ok e'
  := by
  induction e with
  | compare name op literal => exact ⟨_, rfl⟩
  | missing name => exact ⟨_, rfl⟩
  | join op left right ihleft ihright =>
    obtain ⟨hop, hleft, hright⟩ := h
    obtain ⟨l, hl⟩ := ihleft hleft
    obtain ⟨r, hr⟩ := ihright hright
    use .join op l r
    rw [reduce, hl, hr]
    exact if_pos hop
  | group inner ih => apply ih h
  | alien typeName => exact h.elim

/-- What is left of a condition is reducible. -/
theorem Condition.reducible_of_reduce {e e' : Condition} (h : e.reduce = .ok e') :
  e'.Reducible
  := by
  induction e, e', h using reduce_induction with
  | compare | missing => exact trivial
  | join op l l' r r' hl hr hop ihl ihr => exact ⟨hop, ihl, ihr⟩
  | group e e' h ih => exact ih

/-- What is left of a well-formed condition is well formed. -/
theorem Condition.WellFormed.of_reduce {e e' : Condition} (h : e.WellFormed)
    (hreduce : e.reduce = .ok e') :
  e'.WellFormed
  := by
  induction e, e', hreduce using reduce_induction with
  | compare | missing => exact h
  | join op l l' r r' hl hr hop ihl ihr => exact ⟨hop, ihl h.2.1, ihr h.2.2⟩
  | group e e' hreduce ih => apply ih h

/-- A well-formed condition has its groups removed, and what is left is well formed. -/
theorem Condition.WellFormed.exists_reduce {e : Condition} (h : e.WellFormed) :
  ∃ e', e.reduce = .ok e' ∧ e'.WellFormed
  := by
  obtain ⟨e', hreduce⟩ := h.reducible.exists_reduce
  exact ⟨e', hreduce, h.of_reduce hreduce⟩

/-- No groups are left when groups are removed. -/
theorem Condition.groupFree_reduce {e e' : Condition} (h : e.reduce = .ok e') :
  e'.GroupFree
  := by
  induction e, e', h using reduce_induction with
  | compare | missing => exact trivial
  | join op l l' r r' hl hr hop ihl ihr => exact ⟨ihl, ihr⟩
  | group e e' h ih => exact ih

/-! ### Programs -/

/-- Of two lists that are related, every element of the second is related to one of the first. -/
theorem exists_mem_of_forall₂ {α β : Type} {R : α → β → Prop} {as : List α} {bs : List β}
    (h : List.Forall₂ R as bs) {b : β} (hb : b ∈ bs) :
  ∃ a ∈ as, R a b
  := by
  obtain ⟨i, hi', rfl⟩ := List.getElem_of_mem hb
  have hi : i < as.length := by rwa [h.length_eq]
  exact ⟨as[i], List.getElem_mem hi, h.get hi hi'⟩

/-- The second clause is what is left of the first one: the condition is reduced, and the keyword
and the number are the same. -/
structure Clause.ReducesTo (c k : Clause) : Prop where
  condition : c.condition.reduce = .ok k.condition
  keyword : k.keyword = c.keyword
  result : k.result = c.result

namespace Program

/-- A program that has its groups removed has the clauses that are left of its own. -/
theorem reduce_eq_ok {p q : Program} (h : p.reduce = .ok q) :
  reduceClauses p.clauses = .ok q.clauses ∧ q.clauses ≠ [] ∧ q.otherwise = p.otherwise
  := by
  rw [reduce] at h
  split at h
  · cases h
  · cases h
  · next cs hne hcs =>
    cases h
    refine ⟨hcs, ?_, rfl⟩
    rintro rfl
    exact hne rfl

theorem reduce_of_clauses {p : Program} {ks : List Clause}
    (h : reduceClauses p.clauses = .ok ks) (hne : ks ≠ []) :
  p.reduce = .ok ⟨ks, p.otherwise⟩
  := by
  rw [reduce, h]
  cases ks with
  | nil => exact absurd rfl hne
  | cons k ks => rfl

/-- What is left of a clause when its groups are removed: the reduced condition, and the same
keyword and number. -/
theorem reduceClauses_cons {c : Clause} {cs ks : List Clause}
    (h : reduceClauses (c :: cs) = .ok ks) :
  ∃ e ks', c.condition.reduce = .ok e ∧ reduceClauses cs = .ok ks'
    ∧ ks = { c with condition := e } :: ks'
  := by
  rw [reduceClauses] at h
  cases hreduce : c.condition.reduce with
  | error f => simp [hreduce] at h
  | ok e =>
    cases hrest : reduceClauses cs with
    | error f => simp [hreduce, hrest] at h
    | ok ks' =>
      simp only [hreduce, hrest] at h
      cases h
      exact ⟨e, ks', rfl, rfl, rfl⟩

/-- The clauses that are left are, one by one, what is left of the clauses. -/
theorem reducesTo_of_reduceClauses {cs ks : List Clause} (h : reduceClauses cs = .ok ks) :
  List.Forall₂ Clause.ReducesTo cs ks
  := by
  induction cs generalizing ks with
  | nil =>
    cases h
    exact .nil
  | cons c cs ih =>
    obtain ⟨e, ks', hreduce, hrest, rfl⟩ := reduceClauses_cons h
    exact .cons ⟨hreduce, rfl, rfl⟩ (ih hrest)

/-- Every clause that is left is what is left of some clause. -/
theorem exists_of_mem_reduceClauses {cs ks : List Clause} (h : reduceClauses cs = .ok ks) :
  ∀ k ∈ ks, ∃ c ∈ cs, c.ReducesTo k
  := by
  intro k hk
  apply exists_mem_of_forall₂ (reducesTo_of_reduceClauses h) hk

/-- Clauses in two parts have their groups removed if both parts have. -/
theorem exists_of_reduceClauses_append {cs ds ms : List Clause}
    (h : reduceClauses (cs ++ ds) = .ok ms) :
  ∃ ks ls, reduceClauses cs = .ok ks ∧ reduceClauses ds = .ok ls ∧ ms = ks ++ ls
  := by
  induction cs generalizing ms with
  | nil => exact ⟨[], ms, rfl, h, rfl⟩
  | cons c cs ih =>
    obtain ⟨e, ms', hreduce, hrest, rfl⟩ := reduceClauses_cons h
    obtain ⟨ks, ls, hks, hls, rfl⟩ := ih hrest
    use { c with condition := e } :: ks, ls
    refine ⟨?_, hls, rfl⟩
    rw [reduceClauses, hreduce, hks]

end Program

theorem exists_reduceClauses_of_reducible {cs : List Clause}
    (h : ∀ c ∈ cs, c.condition.Reducible) :
  ∃ ks, Program.reduceClauses cs = .ok ks
  := by
  induction cs with
  | nil => exact ⟨[], rfl⟩
  | cons c cs ih =>
    rw [List.forall_mem_cons] at h
    obtain ⟨e, hreduce⟩ := h.1.exists_reduce
    obtain ⟨ks, hks⟩ := ih h.2
    use { c with condition := e } :: ks
    rw [Program.reduceClauses, hreduce, hks]

namespace Program

/-- A program whose conditions are reducible has its groups removed, if it has clauses. -/
theorem exists_reduce_of_reducible {p : Program} (hne : p.clauses ≠ [])
    (h : ∀ c ∈ p.clauses, c.condition.Reducible) :
  ∃ q, p.reduce = .ok q
  := by
  obtain ⟨ks, hks⟩ := exists_reduceClauses_of_reducible h
  use ⟨ks, p.otherwise⟩
  apply reduce_of_clauses hks
  rintro rfl
  exact hne (List.forall₂_nil_right_iff.mp (reducesTo_of_reduceClauses hks))

/-- A well-formed program has its groups removed, and its conditions stay well formed. -/
theorem WellFormed.exists_reduce {p : Program} (h : p.WellFormed) :
  ∃ q, p.reduce = .ok q ∧ ∀ k ∈ q.clauses, k.condition.WellFormed
  := by
  obtain ⟨q, hq⟩ := exists_reduce_of_reducible h.1 fun c hc => (h.2 c hc).reducible
  use q, hq
  intro k hk
  obtain ⟨c, hc, hreduces⟩ := exists_of_mem_reduceClauses (reduce_eq_ok hq).1 k hk
  apply (h.2 c hc).of_reduce hreduces.condition

end Program

end Verdict
