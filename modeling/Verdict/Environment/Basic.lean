import Verdict.Number.Basic

/-!
# Environments

An `Environment` binds names to values. A name may be bound to no value at all, which makes it
absent just as if it were not bound, but counts as a binding when environments are merged. The
bindings are kept in the order of their names, so two environments with the same bindings are
equal.
-/

namespace Verdict

/-- A list of names and values in which the names increase. -/
abbrev Environment.Sorted (l : List (String × Option Number)) : Prop :=
  l.Pairwise fun a b => a.1 < b.1

/-- The bindings of names to values, in the order of the names. -/
structure Environment where
  entries : List (String × Option Number)
  sorted : Environment.Sorted entries

namespace Environment

/-- A list with the value of a name replaced, or the name put in its place. -/
def put (name : String) (v : Option Number) :
    List (String × Option Number) → List (String × Option Number)
  | [] => [(name, v)]
  | e :: rest =>
    if name < e.1 then (name, v) :: e :: rest
    else if name = e.1 then (name, v) :: rest
    else e :: put name v rest

theorem mem_put {name : String} {v : Option Number} {l : List (String × Option Number)}
    {e : String × Option Number} (h : e ∈ put name v l) :
  e = (name, v) ∨ e ∈ l
  := by
  induction l with
  | nil => simpa [put] using h
  | cons d rest ih =>
    rw [put] at h
    split at h
    · simpa using h
    · split at h
      · simp only [List.mem_cons] at h ⊢
        rcases h with h | h
        · exact Or.inl h
        · exact Or.inr (Or.inr h)
      · simp only [List.mem_cons] at h ⊢
        rcases h with h | h
        · exact Or.inr (Or.inl h)
        · rcases ih h with h | h
          · exact Or.inl h
          · exact Or.inr (Or.inr h)

theorem sorted_put {name : String} {v : Option Number} {l : List (String × Option Number)}
    (h : Sorted l) :
  Sorted (put name v l)
  := by
  induction l with
  | nil => simp [put, Sorted]
  | cons d rest ih =>
    obtain ⟨hd, hrest⟩ := List.pairwise_cons.mp h
    rw [put]
    split
    · next hlt =>
      apply List.pairwise_cons.mpr
      refine ⟨?_, h⟩
      intro e he
      rcases List.mem_cons.mp he with rfl | he
      · exact hlt
      · exact String.lt_trans hlt (hd e he)
    · split
      · next heq =>
        apply List.pairwise_cons.mpr
        exact ⟨fun e he => heq ▸ hd e he, hrest⟩
      · next hlt hne =>
        apply List.pairwise_cons.mpr
        refine ⟨?_, ih hrest⟩
        intro e he
        rcases mem_put he with rfl | he
        · exact Std.lt_of_le_of_ne (String.not_lt.mp hlt) (Ne.symm hne)
        · exact hd e he

/-- Nothing is bound. -/
def empty : Environment := ⟨[], List.Pairwise.nil⟩

/-- The environment with a name bound anew. -/
def set (env : Environment) (name : String) (v : Option Number) : Environment :=
  ⟨put name v env.entries, sorted_put env.sorted⟩

/-- The binding of a name: `some none` for a name that is bound to no value. -/
def find? (env : Environment) (name : String) : Option (Option Number) :=
  (env.entries.find? (·.1 == name)).map (·.2)

/-- The value of a name that is present. -/
def value? (env : Environment) (name : String) : Option Number :=
  (env.find? name).join

/-- The name has a value. -/
def contains (env : Environment) (name : String) : Bool :=
  (env.value? name).isSome

/-- The number of names that are bound, those without a value included. -/
def size (env : Environment) : Nat :=
  env.entries.length

/-- The bindings of a list, of which a later one prevails. -/
def ofList (l : List (String × Option Number)) : Environment :=
  l.foldl (fun env e => env.set e.1 e.2) empty

/-- Both environments; where both bind a name, the second prevails. -/
def merge (env new : Environment) : Environment :=
  new.entries.foldl (fun env e => env.set e.1 e.2) env

end Environment

end Verdict
