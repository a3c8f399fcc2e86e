import Mathlib.Data.List.Infix
import Mathlib.Tactic.Use
import Verdict.Failure

/-!
# What can fail

`FailsOnly P r` says that the result `r` is a value, or fails with something that has the property
`P`. Such bounds are joined along the ways in which results are put together, so that every
function gets one from those that it calls. There are two kinds of failures of texts: faults, and
runs of digits that are too long for `Integer.read`.
-/

namespace Verdict

section

variable {ε α β : Type} {r : Except ε α} {b : β}

/-- A result that goes on to a value has one itself. -/
theorem exists_of_bind_eq_ok {k : α → Except ε β} (h : r.bind k = .ok b) :
  ∃ a, r = .ok a ∧ k a = .ok b
  := by
  cases r with
  | error f => cases h
  | ok a => exact ⟨a, rfl, h⟩

theorem exists_of_map_eq_ok {k : α → β} (h : r.map k = .ok b) :
  ∃ a, r = .ok a ∧ k a = b
  := by
  cases r with
  | error f => cases h
  | ok a => exact ⟨a, rfl, Except.ok.inj h⟩

theorem eq_error_of_map_eq_error {k : α → β} (h : r.map k = .error f) :
  r = .error f
  := by
  cases r with
  | error e => rw [Except.error.inj h]
  | ok a => cases h

/-- What every element of a list keeps is kept by the whole list, if that has a value. -/
theorem foldlM_preserves {xs : List α} {k : β → α → Except ε β} {P : β → Prop}
    (h : ∀ b, P b → ∀ a ∈ xs, ∀ b', k b a = .ok b' → P b') {b b' : β} (hb : P b)
    (hfold : xs.foldlM k b = .ok b') :
  P b'
  := by
  induction xs generalizing b with
  | nil =>
    cases hfold
    exact hb
  | cons a xs ih =>
    rw [List.foldlM_cons] at hfold
    obtain ⟨c, hc, hrest⟩ := exists_of_bind_eq_ok hfold
    apply ih _ (h b hb a List.mem_cons_self c hc) hrest
    intro b hb a' ha'
    apply h b hb a' (List.mem_cons_of_mem a ha')

end

/-- The result is a value, or its failure has the property. -/
def FailsOnly {ε α : Type} (P : ε → Prop) : Except ε α → Prop
  | .ok _ => True
  | .error f => P f

namespace FailsOnly

variable {ε ε' α β : Type} {P Q : ε → Prop} {P' : ε' → Prop}

theorem of_error {r : Except ε α} {f : ε} (h : FailsOnly P r) (hr : r = .error f) :
  P f
  := by
  subst hr
  exact h

theorem mono {r : Except ε α} (h : FailsOnly P r) (hle : ∀ f, P f → Q f) :
  FailsOnly Q r
  := by
  cases r with
  | ok a => trivial
  | error f => exact hle f h

theorem bind {r : Except ε α} {k : α → Except ε β} (h : FailsOnly P r)
    (hk : ∀ a, r = .ok a → FailsOnly P (k a)) :
  FailsOnly P (r.bind k)
  := by
  cases r with
  | ok a => exact hk a rfl
  | error f => exact h

theorem map {r : Except ε α} (h : FailsOnly P r) (k : α → β) :
  FailsOnly P (r.map k)
  := by
  cases r with
  | ok a => trivial
  | error f => exact h

theorem mapError {r : Except ε α} {k : ε → ε'} (h : FailsOnly P r) (hk : ∀ f, P f → P' (k f)) :
  FailsOnly P' (r.mapError k)
  := by
  cases r with
  | ok a => trivial
  | error f => exact hk f h

theorem foldlM {xs : List α} {k : β → α → Except ε β} (h : ∀ b, ∀ a ∈ xs, FailsOnly P (k b a))
    (b : β) :
  FailsOnly P (xs.foldlM k b)
  := by
  induction xs generalizing b with
  | nil => trivial
  | cons a xs ih =>
    rw [List.foldlM_cons]
    apply (h b a List.mem_cons_self).bind
    intro b' _
    apply ih
    intro b'' a' ha'
    apply h b'' a' (List.mem_cons_of_mem a ha')

end FailsOnly

namespace Failure

/-- The failure is a fault of one of the kinds. -/
def IsFault (kinds : List String) (f : Failure) : Prop :=
  ∃ g : Fault, f = .fault g ∧ g.kind ∈ kinds

/-- The failure is that of digits that follow one another in the text, and are too many to be
read. -/
def IsOverlong (s : List Char) (f : Failure) : Prop :=
  ∃ ds, ds <:+: s ∧ (∀ c ∈ ds, Text.isDigit c = true) ∧ Integer.maxDigits < ds.length
    ∧ f = .integer (.tooLong ds.length)

theorem IsFault.mono {kinds kinds' : List String} {f : Failure} (h : f.IsFault kinds)
    (hle : kinds ⊆ kinds') :
  f.IsFault kinds'
  := by
  obtain ⟨g, rfl, hg⟩ := h
  exact ⟨g, rfl, hle hg⟩

theorem IsOverlong.mono {s s' : List Char} {f : Failure} (h : f.IsOverlong s) (hle : s <:+: s') :
  f.IsOverlong s'
  := by
  obtain ⟨ds, hds, hdigits, hlong, rfl⟩ := h
  exact ⟨ds, hds.trans hle, hdigits, hlong, rfl⟩

end Failure

end Verdict
