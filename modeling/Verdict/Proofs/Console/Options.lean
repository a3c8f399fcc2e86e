import Mathlib.Tactic.Use
import Verdict.Console.Arguments

/-!
# Options with values

An option whose long name is followed by an equals sign and a value is read as that option with that
value, whatever the value is. The one exception are two hyphens, which count as no value. A command
line in which such options follow one another gives all of their values to the command.
-/

namespace Verdict.Console

/-- The argument that gives a value to an option. -/
def longOption (o : Switch) (value : String) : String :=
  "--" ++ o.longName ++ "=" ++ value

theorem toList_longOption (o : Switch) (value : String) :
  (longOption o value).toList = '-' :: '-' :: (o.longName.toList ++ '=' :: value.toList)
  := by
  simp [longOption]

/-- An argument with a long name is not two hyphens standing alone. -/
theorem longOption_ne (o : Switch) (value : String) :
  longOption o value ≠ "--"
  := by
  intro h
  have hlist := toList_longOption o value
  rw [h] at hlist
  have hnil : o.longName.toList ++ '=' :: value.toList = [] := by
    injection hlist with _ hlist
    injection hlist with _ hlist
    exact hlist.symm
  simp at hnil

theorem Switch.longName_injective {o o' : Switch} (h : o.longName = o'.longName) :
  o = o'
  := by
  cases o
  all_goals
    cases o'
    all_goals first
      | rfl
      | exact absurd h (by decide)

/-- A text that follows an equals sign is split off at the first one. -/
theorem splitEquals_append {name value : List Char} (h : '=' ∉ name) :
  splitEquals (name ++ '=' :: value) = (name, .value value)
  := by
  have hname : ∀ c ∈ name, (c != '=') = true := by
    intro c hc
    rw [bne_iff_ne]
    rintro rfl
    exact h hc
  rw [splitEquals, List.dropWhile_append_of_pos hname, List.takeWhile_append_of_pos hname]
  simp

theorem find?_longName {options : List Switch} {o : Switch} (h : o ∈ options) :
  (options.find? fun o' => o'.longName.toList == o.longName.toList) = some o
  := by
  cases hfind : options.find? fun o' => o'.longName.toList == o.longName.toList with
  | none => simpa using List.find?_eq_none.mp hfind o h
  | some o' =>
    have hname := List.find?_some hfind
    rw [beq_iff_eq, String.toList_inj] at hname
    rw [Switch.longName_injective hname]

/-- The argument is taken as the option with the value. -/
theorem classify_longOption {options : List Switch} {o : Switch} (h : o ∈ options)
    (value : String) :
  classify options (longOption o value) = .option o (.value value.toList)
  := by
  have hequals : '=' ∉ o.longName.toList := by
    cases o
    all_goals decide
  simp only [classify, toList_longOption, longArgument, splitEquals_append hequals,
    find?_longName h]

/-- The value of an option that is attached to its name. Two hyphens are no value. -/
theorem attachedValue_of_ne {value : String} (h : value ≠ "--") :
  attachedValue value.toList = value
  := by
  rw [attachedValue, if_neg, String.ofList_toList]
  intro hlist
  apply h
  rw [← String.toList_inj, hlist]
  rfl

/-- The arguments that give values to options. -/
def longOptions (values : List (Switch × String)) : List String :=
  values.map fun v => longOption v.1 v.2

/-- The command with the values of options, one after the other. -/
def Invocation.setValues (i : Invocation) (values : List (Switch × String)) : Invocation :=
  values.foldl (fun i v => i.setValue v.1 v.2) i

/-- The options take values, and two hyphens are not among the values. -/
def AreValues (options : List Switch) (values : List (Switch × String)) : Prop :=
  ∀ v ∈ values, v.1 ∈ options ∧ v.1.takesValue = true ∧ v.2 ≠ "--"

section

variable {options : List Switch} {values : List (Switch × String)}

/-- No name of an option with a value is cut short. -/
theorem hasAmbiguous_longOptions (h : AreValues options values) (args : List String) :
  hasAmbiguous options (longOptions values ++ args) = hasAmbiguous options args
  := by
  induction values with
  | nil => rfl
  | cons v values ih =>
    rw [AreValues, List.forall_mem_cons] at h
    have hne : (longOption v.1 v.2 != "--") = true := bne_iff_ne.mpr (longOption_ne v.1 v.2)
    have hrest := ih h.2
    rw [hasAmbiguous, optionPart] at hrest ⊢
    rw [longOptions, List.map_cons, List.cons_append,
      List.takeWhile_cons_of_pos (p := (· != "--")) hne, List.any_cons,
      classify_longOption h.1.1]
    exact hrest

/-- The values of options are set, and then the other arguments are read. -/
theorem readOptions_longOptions (h : AreValues options values) (i : Invocation) (sound : Bool)
    (args : List String) :
  readOptions options i sound (longOptions values ++ args) =
    readOptions options (i.setValues values) sound args
  := by
  induction values generalizing i with
  | nil => rfl
  | cons v values ih =>
    rw [AreValues, List.forall_mem_cons] at h
    obtain ⟨⟨hoption, htakes, hvalue⟩, hvalues⟩ := h
    rw [longOptions, List.map_cons, List.cons_append, readOptions]
    · simp only [classify_longOption hoption, optionEffect, if_pos htakes,
        attachedValue_of_ne hvalue]
      exact ih hvalues (i.setValue v.1 v.2)
    · exact longOption_ne v.1 v.2

/-- A command with options that have values is read with these values, and what else it is to do is
told by the arguments behind them. -/
theorem readArguments_longOptions {c : Command} (h : AreValues c.options values)
    {args : List String} (hargs : hasAmbiguous c.options args = false) :
  readArguments (c.name :: (longOptions values ++ args)) =
    readOptions c.options ((Invocation.initial c).setValues values) true args
  := by
  have hcommand : readCommand c (longOptions values ++ args) =
      readOptions c.options ((Invocation.initial c).setValues values) true args := by
    rw [readCommand, hasAmbiguous_longOptions h, hargs]
    exact readOptions_longOptions h _ true args
  rw [← hcommand]
  cases c
  all_goals rfl

end

end Verdict.Console
