import Verdict.Evaluation.Basic
import Verdict.Json.Basic

/-!
# Answers as JSON values

Tokens, programs, decisions and faults as the service shows them.
-/

namespace Verdict

/-- A token as a JSON object. -/
def Token.toJson (t : Token) : Json :=
  .object [("kind", .string t.kind.name), ("text", .string t.text), ("offset", .int t.offset),
    ("line", .int t.line), ("col", .int t.column)]

/-- A condition as a JSON object; the parts of a condition are nested. -/
def Condition.toJson : Condition → Json
  | .compare name op literal =>
    .object [("node_type", .string "relational"), ("identifier", .string name),
      ("op", .string (op.text Relation.text)), ("value", .int literal)]
  | .missing name =>
    .object [("node_type", .string "missing"), ("identifier", .string name)]
  | .join op left right =>
    .object [("node_type", .string "logical"), ("op", .string (op.text Connective.text)),
      ("left", left.toJson), ("right", right.toJson)]
  | .group inner => .object [("node_type", .string "group"), ("expression", inner.toJson)]
  | .alien typeName => .object [("node_type", .string typeName)]

/-- What a clause returns, as a JSON object. -/
def Return.toJson (r : Return) : Json :=
  .object [("keyword", r.keyword.toJson), ("value_token", r.value.toJson)]

/-- A program as a JSON object. -/
def Program.toJson (p : Program) : Json :=
  .object
    [("clauses", .array (p.clauses.map fun c =>
        .object [("keyword", c.keyword.toJson), ("condition", c.condition.toJson),
          ("returns", c.result.toJson)])),
     ("otherwise", .object
        [("keyword", p.otherwise.keyword.toJson), ("returns", p.otherwise.result.toJson)])]

/-- The outcome of a clause as a JSON object. -/
def Outcome.toJson (o : Outcome) : Json :=
  .object [("index", .nat o.index), ("matched", .bool o.matched), ("value", .int o.value)]

/-- The place of the selected clause, or nothing for the last one. -/
def Decision.selectedJson (d : Decision) : Json :=
  match d.selected with
  | some index => .nat index
  | none => .null

/-- What the kind of a fault tells besides its message. -/
def Fault.context : Fault → List Json.Field
  | .lexical ⟨place, _⟩ =>
    [("position", .nat place.offset), ("line", .nat place.line), ("col", .nat place.column)]
  | .misplaced position expected found =>
    [("position", .int position), ("expected", .string expected.text),
     ("found", .string (Fault.foundText found))]
  | .undefined name _ => [("identifier", .string name)]
  | .malformed cause => [("detail", .string cause.detail)]
  | .assignment piece _ => [("line", .string piece)]

/-- The fields of a fault as a JSON object. -/
def Fault.fields (f : Fault) : List Json.Field :=
  ("error", .string f.kind) :: ("message", .string f.message) :: f.context

end Verdict
