import Verdict.Json.Decoding
import Verdict.Service.Report

/-!
# The form of bodies

A request to cut up or to parse a rule holds the rule, and a request to evaluate one may also
hold variables, a list of assignments and the wish to see steps. `Form.rule` and
`Form.evaluation` take these from the body of a request, or report all that is wrong with it.
Fields of other names have no meaning.
-/

namespace Verdict.Service

/-- A request to evaluate a rule. -/
structure Evaluation where
  rule : String
  bindings : Environment
  assignments : Json.Chars
  trace : Bool

namespace Form

/-- The fields of a body, which must be an object. -/
def fields : Json → Except Report (List Json.Field)
  | .object fields => .ok fields
  | .null => .error [⟨.missing, [], .null⟩]
  | j => .error [⟨.noObject, [], j⟩]

/-- The rule among some fields, which must be a text that is not empty. -/
def rule (fields : List Json.Field) : Except Report String :=
  match Json.lookup fields "rule" with
  | none => .error [⟨.missing, ["rule"], .object fields⟩]
  | some (.string (.text s)) =>
    if s.isEmpty then .error [⟨.emptyText, ["rule"], .string s⟩] else .ok s
  | some (.string s) => .error [⟨.brokenText, ["rule"], .string s⟩]
  | some j => .error [⟨.noText, ["rule"], j⟩]

/-- What is wrong with the value of a variable: it is neither an integer nor another number. -/
def variableFindings (name : Json.Chars) (j : Json) : Report :=
  let findings := fun p q => [⟨p, ["variables", name.shown, "int"], j⟩,
    ⟨q, ["variables", name.shown, "float"], j⟩]
  match j with
  | .string (.text _) => findings .noIntegerText .noNumberText
  | .string _ => findings .brokenText .brokenText
  | _ => findings .noInteger .noNumber

/-- What is wrong with a variable, if anything is. -/
def fieldFindings (field : Json.Field) : Report :=
  if field.2.binding?.isSome then [] else variableFindings field.1 field.2

/-- The variables among some fields, if there are any. -/
def bindings (fields : List Json.Field) : Except Report Environment :=
  match Json.lookup fields "variables" with
  | none => .ok .empty
  | some (.object values) =>
    match Environment.ofFields values with
    | .ok env => .ok env
    | .error _ => .error (values.flatMap fieldFindings)
  | some j => .error [⟨.noFields, ["variables"], j⟩]

/-- The list of assignments among some fields, if there is any. -/
def assignments (fields : List Json.Field) : Except Report Json.Chars :=
  match Json.lookup fields "assignments" with
  | none => .ok ""
  | some .null => .ok ""
  | some (.string s) => .ok s
  | some j => .error [⟨.noText, ["assignments"], j⟩]

/-- What is wrong with a value that is no truth value. -/
def truthProblem : Json → Problem
  | .string (.text _) => .noTruthText
  | .string _ => .brokenText
  | .number (.integer _) => .noTruthText
  | .number (.binary b) => if b.toInt?.isSome then .noTruthText else .noTruth
  | _ => .noTruth

/-- Whether some fields ask for steps. -/
def trace (fields : List Json.Field) : Except Report Bool :=
  match Json.lookup fields "trace" with
  | none => .ok false
  | some j =>
    match j.truth? with
    | some b => .ok b
    | none => .error [⟨truthProblem j, ["trace"], j⟩]

/-- The request to evaluate a rule that some fields make. -/
def evaluation (fields : List Json.Field) : Except Report Evaluation :=
  let parts := Report.both (rule fields)
    (Report.both (bindings fields) (Report.both (assignments fields) (trace fields)))
  parts.map fun (rule, bindings, assignments, trace) => ⟨rule, bindings, assignments, trace⟩

end Form

end Verdict.Service
