import Mathlib.Data.List.Sort
import Verdict.Environment.Basic

/-!
# The bindings of an environment

Binding a name anew changes the binding of that name and of no other one. Environments with the same
bindings are equal, so different names may be bound in any order. In two environments that are
merged a name has the binding of the second, or else that of the first; merging is associative, and
the empty environment is its unit. -/

namespace Verdict.Environment

theorem find?_put_self (name : String) (v : Option Number) (l : List (String × Option Number)) :
  (put name v l).find? (·.1 == name) = some (name, v)
  := by
  induction l with
  | nil => simp [put]
  | cons e rest ih =>
    rw [put]
    split
    · simp
    · split
      · simp
      · next hne =>
        rw [List.find?_cons_of_neg (by simpa using Ne.symm hne), ih]

theorem find?_put_of_ne {name other : String} (h : other ≠ name) (v : Option Number)
    (l : List (String × Option Number)) :
  (put name v l).find? (·.1 == other) = l.find? (·.1 == other)
  := by
  have hname : (name == other) = false := by simpa using Ne.symm h
  induction l with
  | nil => simp only [put, List.find?_cons, hname]
  | cons e rest ih =>
    rw [put]
    split
    · simp only [List.find?_cons, hname]
    · split
      · next heq =>
        rw [heq] at hname
        simp only [List.find?_cons, heq, hname]
      · simp only [List.find?_cons, ih]

/-- The binding of a name after a name has been bound anew. -/
theorem find?_set (env : Environment) (name other : String) (v : Option Number) :
  (env.set name v).find? other = if other = name then some v else env.find? other
  := by
  rw [find?, find?, set]
  split
  · next heq =>
    rw [heq, find?_put_self]
    rfl
  · next hne => rw [find?_put_of_ne hne]

/-- The value of a name after a name has been bound anew. -/
theorem value?_set (env : Environment) (name other : String) (v : Option Number) :
  (env.set name v).value? other = if other = name then v else env.value? other
  := by
  rw [value?, value?, find?_set]
  split
  · rfl
  · rfl

theorem value?_set_of_ne {name other : String} (h : other ≠ name) (env : Environment)
    (v : Option Number) :
  (env.set name v).value? other = env.value? other
  := by
  rw [value?_set, if_neg h]

/-- Binding an absent name to no value leaves the values of all names as they are. -/
theorem value?_set_none {env : Environment} {name : String} (h : env.value? name = none)
    (other : String) :
  (env.set name none).value? other = env.value? other
  := by
  rw [value?_set]
  split
  · next heq => rw [heq, h]
  · rfl

/-! ### Environments with the same bindings -/

theorem mem_iff_find? {l : List (String × Option Number)} (h : Sorted l) {name : String}
    {v : Option Number} :
  (name, v) ∈ l ↔ (l.find? (·.1 == name)).map (·.2) = some v
  := by
  induction l with
  | nil => simp
  | cons e l ih =>
    obtain ⟨hfirst, hrest⟩ := List.pairwise_cons.mp h
    obtain ⟨other, w⟩ := e
    by_cases heq : name = other
    · subst heq
      have hnot : (name, v) ∉ l := fun hmem => String.lt_irrefl name (hfirst _ hmem)
      rw [List.find?_cons_of_pos (by simp)]
      simp [hnot, eq_comm]
    · rw [List.find?_cons_of_neg (by simpa using Ne.symm heq), ← ih hrest]
      simp [heq]

/-- The entries of an environment are its bindings. -/
theorem mem_entries_iff {env : Environment} {name : String} {v : Option Number} :
  (name, v) ∈ env.entries ↔ env.find? name = some v
  := mem_iff_find? env.sorted

/-- An environment is determined by the bindings of the names. -/
theorem ext_find? {env env' : Environment} (h : ∀ name, env.find? name = env'.find? name) :
  env = env'
  := by
  have hirrefl : Std.Irrefl fun a b : String × Option Number => a.1 < b.1 :=
    ⟨fun a => String.lt_irrefl a.1⟩
  have hantisymm : Std.Antisymm fun a b : String × Option Number => a.1 < b.1 :=
    ⟨fun a b hab hba => absurd (String.lt_trans hab hba) (String.lt_irrefl a.1)⟩
  have hentries : env.entries = env'.entries := by
    apply env.sorted.eq_of_mem_iff env'.sorted
    rintro ⟨name, v⟩
    rw [mem_entries_iff, mem_entries_iff, h]
  cases env
  cases env'
  congr

/-- Different names may be bound in either order. -/
theorem set_comm {name other : String} (h : name ≠ other) (env : Environment)
    (v w : Option Number) :
  (env.set name v).set other w = (env.set other w).set name v
  := by
  apply ext_find?
  intro n
  simp only [find?_set]
  split
  · next heq =>
    rw [if_neg]
    rintro rfl
    apply h heq
  · rfl

/-! ### Merging -/

/-- No binding of a list has a name that comes before those of the list. -/
theorem find?_eq_none_of_lt {e : String × Option Number} {l : List (String × Option Number)}
    (h : ∀ d ∈ l, e.1 < d.1) :
  l.find? (·.1 == e.1) = none
  := by
  rw [List.find?_eq_none]
  intro d hd heq
  rw [beq_iff_eq] at heq
  have hlt := h d hd
  rw [heq] at hlt
  apply String.lt_irrefl e.1 hlt

/-- Of bindings with different names that are added to an environment, the one of a name
prevails. -/
theorem find?_foldl_set {l : List (String × Option Number)} (h : Sorted l) (env : Environment)
    (name : String) :
  (l.foldl (fun env e => env.set e.1 e.2) env).find? name =
    ((l.find? (·.1 == name)).map (·.2)).or (env.find? name)
  := by
  induction l generalizing env with
  | nil => rfl
  | cons e l ih =>
    obtain ⟨hfirst, hrest⟩ := List.pairwise_cons.mp h
    rw [List.foldl_cons, ih hrest, find?_set]
    by_cases heq : name = e.1
    · rw [if_pos heq, heq, find?_eq_none_of_lt hfirst, List.find?_cons_of_pos (by simp)]
      rfl
    · have hskip : (e :: l).find? (·.1 == name) = l.find? (·.1 == name) := by
        apply List.find?_cons_of_neg
        simpa using Ne.symm heq
      rw [if_neg heq, hskip]

/-- The binding of a name in two environments merged is that of the second one, if it has one. -/
theorem find?_merge (env new : Environment) (name : String) :
  (env.merge new).find? name = (new.find? name).or (env.find? name)
  := by
  apply find?_foldl_set new.sorted

theorem empty_merge (env : Environment) :
  empty.merge env = env
  := by
  apply ext_find?
  intro name
  rw [find?_merge]
  apply Option.or_none

theorem merge_assoc (a b c : Environment) :
  (a.merge b).merge c = a.merge (b.merge c)
  := by
  apply ext_find?
  intro name
  simp only [find?_merge, Option.or_assoc]

/-- To bind a name anew is to merge its binding. -/
theorem merge_set_empty (env : Environment) (name : String) (v : Option Number) :
  env.merge (empty.set name v) = env.set name v
  := rfl

theorem merge_set (env new : Environment) (name : String) (v : Option Number) :
  env.merge (new.set name v) = (env.merge new).set name v
  := by
  rw [← merge_set_empty new, ← merge_assoc, merge_set_empty]

/-- The bindings of an environment make the environment in every order. -/
theorem ofList_of_perm {env : Environment} {bs : List (String × Option Number)}
    (h : bs.Perm env.entries) :
  ofList bs = env
  := by
  have hcomm : ∀ b ∈ bs, ∀ d ∈ bs, ∀ env' : Environment,
      (env'.set b.1 b.2).set d.1 d.2 = (env'.set d.1 d.2).set b.1 b.2 := by
    rintro ⟨name, v⟩ hb ⟨other, w⟩ hd env'
    by_cases heq : name = other
    · subst heq
      have hv := mem_entries_iff.mp (h.mem_iff.mp hb)
      have hw := mem_entries_iff.mp (h.mem_iff.mp hd)
      rw [hv] at hw
      cases hw
      rfl
    · apply set_comm heq
  rw [ofList, h.foldl_eq' hcomm]
  apply empty_merge

end Verdict.Environment
