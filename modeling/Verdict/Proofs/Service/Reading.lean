import Verdict.Proofs.Environment.Writing
import Verdict.Service.Basic

/-!
# Values that are read

Integers with too many digits are refused when a body is read, in JSON as in texts that stand for
numbers. The variables of a request are therefore those of a writable environment.
-/

namespace Verdict

namespace Json

/-! ### The reader -/

theorem isLegible_readNumber {s rest : List Char} {j : Json} (h : readNumber s = .ok (j, rest)) :
  j.isLegible = true
  := by
  simp only [readNumber] at h
  split_ifs at h
  · generalize hread : Integer.read _ = r at h
    cases r with
    | error f => cases h
    | ok n =>
      cases h
      apply Integer.isWritable_of_read hread
  · generalize Decimal.read? _ = r at h
    cases r with
    | none => cases h
    | some d =>
      cases h
      apply Number.isWritable_binary

theorem isLegible_of_mem_words {w : List Char × Json} (h : w ∈ words) :
  w.2.isLegible = true
  := by
  simp only [words, List.mem_cons, List.not_mem_nil, or_false] at h
  rcases h with rfl | rfl | rfl | rfl | rfl | rfl
  all_goals rfl

theorem isLegible_readPlain {s rest : List Char} {j : Json} (h : readPlain s = .ok (j, rest)) :
  j.isLegible = true
  := by
  rw [readPlain] at h
  split at h
  · next hfind =>
    cases h
    apply isLegible_of_mem_words (List.mem_of_find?_eq_some hfind)
  · exact isLegible_readNumber h

/-- What is read with this much fuel has no integer with too many digits. -/
structure ReadsLegible (fuel : Nat) : Prop where
  value : ∀ {levels s j rest}, readValue levels fuel s = .ok (j, rest) → j.isLegible = true
  items : ∀ {levels s js rest}, readItems levels fuel s = .ok (js, rest) → itemsLegible js = true
  fields : ∀ {levels s fields rest}, readFields levels fuel s = .ok (fields, rest) →
    fieldsLegible fields = true

namespace ReadsLegible

variable {fuel levels : Nat} {s rest : List Char}

theorem value_succ (ih : ReadsLegible fuel) {j : Json}
    (h : readValue levels (fuel + 1) s = .ok (j, rest)) :
  j.isLegible = true
  := by
  unfold readValue at h
  split at h
  · split at h
    · cases h
    · cases h
      rfl
  · cases h
  · split at h
    · cases h
      rfl
    · split at h
      · cases h
      · next hitems =>
        cases h
        apply ih.items hitems
  · cases h
  · split at h
    · cases h
      rfl
    · split at h
      · cases h
      · next hfields =>
        cases h
        apply ih.fields hfields
  · apply isLegible_readPlain h

theorem items_succ (ih : ReadsLegible fuel) {js : List Json}
    (h : readItems levels (fuel + 1) s = .ok (js, rest)) :
  itemsLegible js = true
  := by
  unfold readItems at h
  split at h
  · cases h
  · next hvalue =>
    split at h
    · split at h
      · cases h
      · next hrest =>
        cases h
        rw [itemsLegible, ih.value hvalue, ih.items hrest]
        rfl
    · cases h
      rw [itemsLegible, ih.value hvalue]
      rfl
    · cases h

theorem fields_succ (ih : ReadsLegible fuel) {fields : List Field}
    (h : readFields levels (fuel + 1) s = .ok (fields, rest)) :
  fieldsLegible fields = true
  := by
  unfold readFields at h
  split at h
  · split at h
    · cases h
    · split at h
      · split at h
        · cases h
        · next hvalue =>
          split at h
          · split at h
            · cases h
            · next hrest =>
              cases h
              rw [fieldsLegible, ih.value hvalue, ih.fields hrest]
              rfl
          · cases h
            rw [fieldsLegible, ih.value hvalue]
            rfl
          · cases h
      · cases h
  · cases h

theorem of_fuel (fuel : Nat) :
  ReadsLegible fuel
  := by
  induction fuel with
  | zero =>
    constructor
    all_goals
      intro _ _ _ _ h
      cases h
  | succ fuel ih => exact ⟨ih.value_succ, ih.items_succ, ih.fields_succ⟩

end ReadsLegible

/-- The values that are read have no integers with too many digits. -/
theorem isLegible_of_readWithin {levels : Nat} {s : List Char} {j : Json}
    (h : readWithin levels s = .ok j) :
  j.isLegible = true
  := by
  rw [readWithin] at h
  split at h
  · cases h
  · next hvalue =>
    split_ifs at h
    cases h
    apply (ReadsLegible.of_fuel _).value hvalue

/-! ### Fields -/

theorem fieldsLegible_iff {fields : List Field} :
  fieldsLegible fields = true ↔ ∀ f ∈ fields, f.2.isLegible = true
  := by
  induction fields with
  | nil => simp [fieldsLegible]
  | cons f fields ih => rw [fieldsLegible, Bool.and_eq_true, ih, List.forall_mem_cons]

theorem isLegible_lookup {fields : List Field} (h : fieldsLegible fields = true) {name : Chars}
    {j : Json} (hj : lookup fields name = some j) :
  j.isLegible = true
  := by
  rw [lookup, Option.map_eq_some_iff] at hj
  obtain ⟨f, hfind, rfl⟩ := hj
  apply fieldsLegible_iff.mp h f
  apply List.mem_reverse.mp (List.mem_of_find?_eq_some hfind)

theorem fieldsLegible_putField {fields : List Field} (h : fieldsLegible fields = true)
    {field : Field} (hfield : field.2.isLegible = true) :
  fieldsLegible (putField fields field) = true
  := by
  induction fields with
  | nil =>
    rw [putField, fieldsLegible, hfield]
    rfl
  | cons f fields ih =>
    rw [fieldsLegible, Bool.and_eq_true] at h
    rw [putField]
    split
    · rw [fieldsLegible, hfield, h.2]
      rfl
    · rw [fieldsLegible, h.1, ih h.2]
      rfl

mutual

/-- Objects that are settled keep values that they had. -/
theorem isLegible_settled : ∀ j : Json, j.isLegible = true → j.settled.isLegible = true
  | .null, h => h
  | .bool _, h => h
  | .number _, h => h
  | .string _, h => h
  | .array items, h => itemsLegible_settledItems items h
  | .object fields, h => fieldsLegible_settledFields fields h rfl

theorem itemsLegible_settledItems : ∀ js : List Json, itemsLegible js = true →
    itemsLegible (settledItems js) = true
  | [], _ => rfl
  | j :: js, h => by
    rw [itemsLegible, Bool.and_eq_true] at h
    rw [settledItems, itemsLegible, isLegible_settled j h.1, itemsLegible_settledItems js h.2]
    rfl

theorem fieldsLegible_settledFields : ∀ fields : List Field, fieldsLegible fields = true →
    ∀ {found : List Field}, fieldsLegible found = true →
    fieldsLegible (settledFields fields found) = true
  | [], _, _, hfound => hfound
  | (name, j) :: fields, h, found, hfound => by
    rw [fieldsLegible, Bool.and_eq_true] at h
    rw [settledFields]
    apply fieldsLegible_settledFields fields h.2
    apply fieldsLegible_putField hfound (isLegible_settled j h.1)

end

/-- The values that fields give to variables are written. -/
theorem isWritable_of_binding? {j : Json} (h : j.isLegible = true) {v : Option Number}
    (hv : j.binding? = some v) :
  v.all Number.isWritable = true
  := by
  cases j with
  | null =>
    cases hv
    rfl
  | number n =>
    cases hv
    exact h
  | bool b =>
    cases hv
    cases b
    all_goals decide
  | string s =>
    cases s with
    | text s =>
      obtain ⟨n, hn, rfl⟩ := Option.map_eq_some_iff.mp hv
      apply Number.isWritable_of_ofText? hn
    | broken codes => cases hv
  | array items => cases hv
  | object fields => cases hv

end Json

/-! ### Requests -/

/-- The environment that the fields of a legible object give is writable. -/
theorem Environment.isWritable_ofFields {fields : List Json.Field}
    (h : Json.fieldsLegible fields = true) {env : Environment} (hread : ofFields fields = .ok env) :
  env.IsWritable
  := by
  rw [Json.fieldsLegible_iff] at h
  apply foldlM_preserves _ isWritable_empty hread
  intro start hstart f hf next hset
  rw [setField] at hset
  split at hset
  · next v name hv _ =>
    cases hset
    apply hstart.set (Json.isWritable_of_binding? (h f hf) hv)
  · cases hset
    exact hstart
  · cases hset

namespace Service

/-- Every body that is read is legible. -/
theorem isLegible_of_readBody {body : Body} {j : Json} (h : readBody body = .ok j) :
  j.isLegible = true
  := by
  cases body with
  | none =>
    cases h
    rfl
  | text s =>
    simp only [readBody] at h
    split at h
    · cases h
      rfl
    · split at h
      · cases h
      · split at h
        · next hread =>
          cases h
          apply Json.isLegible_settled _ (Json.isLegible_of_readWithin hread)
        all_goals cases h
  | value j' =>
    simp only [readBody] at h
    split_ifs at h with hfits
    cases h
    exact (Bool.and_eq_true_iff.mp hfits).2

theorem Report.eq_ok_of_both {α β : Type} {x : Except Report α} {y : Except Report β} {a : α}
    {b : β} (h : both x y = .ok (a, b)) :
  x = .ok a ∧ y = .ok b
  := by
  cases x with
  | error r => cases y <;> cases h
  | ok a' =>
    cases y with
    | error r => cases h
    | ok b' =>
      cases h
      exact ⟨rfl, rfl⟩

/-- The variables among the fields of a legible body have values that are written. -/
theorem isWritable_of_bindings {fields : List Json.Field}
    (hlegible : Json.fieldsLegible fields = true) {env : Environment}
    (h : Form.bindings fields = .ok env) :
  env.IsWritable
  := by
  rw [Form.bindings] at h
  split at h
  · cases h
    apply Environment.isWritable_empty
  · next values hlookup =>
    have hvalues := Json.isLegible_lookup hlegible hlookup
    split at h
    · next hread =>
      cases h
      apply Environment.isWritable_ofFields hvalues hread
    · cases h
  · cases h

/-- The variables of a request to evaluate a rule have values that are written. -/
theorem isWritable_of_evaluation {j : Json} (hlegible : j.isLegible = true) {e : Evaluation}
    (h : (Form.fields j).bind Form.evaluation = .ok e) :
  e.bindings.IsWritable
  := by
  obtain ⟨fields, hfields, hform⟩ := exists_of_bind_eq_ok h
  obtain ⟨⟨rule, bindings, rest⟩, hparts, rfl⟩ := exists_of_map_eq_ok hform
  obtain ⟨-, hbindings⟩ := Report.eq_ok_of_both hparts
  obtain ⟨hbindings, -⟩ := Report.eq_ok_of_both hbindings
  cases j with
  | object fields' =>
    cases hfields
    apply isWritable_of_bindings hlegible hbindings
  | _ => cases hfields

/-- The environment of such a request is writable. -/
theorem isWritable_environment {e : Evaluation} (h : e.bindings.IsWritable) {assignments : String}
    {env : Environment} (henv : e.environment assignments = .ok env) :
  env.IsWritable
  := by
  rw [Evaluation.environment] at henv
  split at henv
  · cases henv
    exact h
  · obtain ⟨listed, hlisted, rfl⟩ := exists_of_map_eq_ok henv
    apply (Environment.isWritable_of_ofAssignments hlisted).merge h

end Service

end Verdict
