import Verdict.Proofs.Environment.Assignments
import Verdict.Proofs.Environment.Binding
import Verdict.Proofs.Number.Writing

/-!
# Environments that are written

An environment is writable if all integers among its values have few enough digits to be written.
New bindings keep an environment writable if their values are, and so every list of assignments that
is read gives a writable environment.
-/

namespace Verdict

namespace Environment

/-- All integers that are values of variables have few enough digits to be written. -/
def IsWritable (env : Environment) : Prop :=
  ∀ x n, env.value? x = some (.integer n) → Integer.isWritable n = true

variable {env new : Environment} {name : String} {v : Option Number}

/-- The value of a variable is written. -/
theorem IsWritable.of_value? (h : env.IsWritable) {v : Number} (hv : env.value? name = some v) :
  v.isWritable = true
  := by
  apply Number.isWritable_of_integer
  rintro n rfl
  apply h name n hv

/-- The value of a variable is written, if it has one. -/
theorem IsWritable.all (h : env.IsWritable) (name : String) :
  (env.value? name).all Number.isWritable = true
  := by
  cases hv : env.value? name with
  | none => rfl
  | some v => exact h.of_value? hv

theorem isWritable_empty :
  empty.IsWritable
  := by
  intro x n hn
  cases hn

/-- A binding whose value is written keeps an environment writable. -/
theorem IsWritable.set (h : env.IsWritable) (hv : v.all Number.isWritable = true) :
  (env.set name v).IsWritable
  := by
  intro x n hn
  rw [value?_set] at hn
  split at hn
  · rw [hn] at hv
    exact hv
  · apply h x n hn

theorem IsWritable.set_some (h : env.IsWritable) {v : Number} (hv : v.isWritable = true) :
  (env.set name (some v)).IsWritable
  := by
  apply h.set
  rwa [Option.all_some]

/-- The merge of writable environments is writable. -/
theorem IsWritable.merge (h : env.IsWritable) (hnew : new.IsWritable) :
  (env.merge new).IsWritable
  := by
  intro x n hn
  rw [value?, find?_merge] at hn
  cases hx : new.find? x with
  | none => exact h x n (by rwa [hx] at hn)
  | some v =>
    apply hnew x n
    rw [value?, hx]
    rwa [hx] at hn

/-- An environment is writable if all values of its bindings are written. -/
theorem isWritable_of_entries (h : ∀ b ∈ env.entries, b.2.all Number.isWritable = true) :
  env.IsWritable
  := by
  intro x n hn
  have hfind : env.find? x = some (some (.integer n)) := by
    rw [value?] at hn
    cases hx : env.find? x with
    | none =>
      rw [hx] at hn
      cases hn
    | some v =>
      rw [hx] at hn
      rw [show v = some (.integer n) from hn]
  apply h _ (mem_entries_iff.mpr hfind)

/-! ### Lists of assignments -/

theorem isWritable_of_readValue {piece : String} {s : List Char}
    (h : readValue piece s = .ok v) :
  v.all Number.isWritable = true
  := by
  rw [readValue] at h
  split_ifs at h
  · cases h
    rfl
  · cases h
    apply Number.isWritable_binary
  · cases hread : Integer.read (String.ofList s) with
    | error f => simp [hread] at h
    | ok n =>
      simp only [hread, Except.ok.injEq] at h
      rw [← h]
      apply Integer.isWritable_of_read hread

/-- The values that pieces of a list of assignments give to names are written. -/
theorem isWritable_of_readPiece {s : List Char} (h : readPiece s = .ok (some (name, v))) :
  v.all Number.isWritable = true
  := by
  simp only [readPiece] at h
  split at h
  · cases h
  · split at h
    · cases h
    · split at h
      · obtain ⟨w, hread, heq⟩ := exists_of_map_eq_ok h
        cases heq
        apply isWritable_of_readValue hread
      · cases h

/-- A piece that is read keeps an environment writable. -/
theorem IsWritable.assignPiece (h : env.IsWritable) {s : List Char}
    (hassign : assignPiece env s = .ok new) :
  new.IsWritable
  := by
  obtain ⟨b, hread, heq⟩ := exists_of_map_eq_ok hassign
  rcases b with - | ⟨name, v⟩
  · rwa [← show env = new from heq]
  · rw [← show env.set name v = new from heq]
    apply h.set (isWritable_of_readPiece hread)

/-- The environment that a list of assignments gives is writable. -/
theorem isWritable_of_ofAssignments {text : String} (h : ofAssignments text = .ok env) :
  env.IsWritable
  := by
  apply foldlM_preserves _ isWritable_empty h
  intro start hstart piece _ next hassign
  apply hstart.assignPiece hassign

end Environment

end Verdict
