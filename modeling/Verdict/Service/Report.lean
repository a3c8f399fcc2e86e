import Verdict.Json.Writer

/-!
# Reports on bodies

A body that does not have the form of its request is answered by a report, which lists all that
is wrong with it. A `Finding` tells what is wrong, where in the body, and the value found there.
-/

namespace Verdict.Service

/-- What is wrong with a value. -/
inductive Problem where
  /-- A field, or the whole body, is not there. -/
  | missing
  /-- The body is no object. -/
  | noObject
  /-- The body is not JSON. -/
  | noJson
  /-- A field should be an object. -/
  | noFields
  /-- A field should be a text. -/
  | noText
  /-- A text is empty. -/
  | emptyText
  /-- A string has surrogates in it and is no text. -/
  | brokenText
  /-- A value should be an integer. -/
  | noInteger
  /-- A text should write an integer. -/
  | noIntegerText
  /-- A value should be a number. -/
  | noNumber
  /-- A text should write a number. -/
  | noNumberText
  /-- A value should be a truth value. -/
  | noTruth
  /-- A value should name a truth value. -/
  | noTruthText

namespace Problem

/-- The name of a problem. -/
def name : Problem → String
  | .missing => "missing"
  | .noObject => "model_attributes_type"
  | .noJson => "json_invalid"
  | .noFields => "dict_type"
  | .noText => "string_type"
  | .emptyText => "string_too_short"
  | .brokenText => "string_unicode"
  | .noInteger => "int_type"
  | .noIntegerText => "int_parsing"
  | .noNumber => "float_type"
  | .noNumberText => "float_parsing"
  | .noTruth => "bool_type"
  | .noTruthText => "bool_parsing"

/-- The wording of a problem. -/
def message : Problem → String
  | .missing => "Field required"
  | .noObject => "Input should be a valid dictionary or object to extract fields from"
  | .noJson => "JSON decode error"
  | .noFields => "Input should be a valid dictionary"
  | .noText => "Input should be a valid string"
  | .emptyText => "String should have at least 1 character"
  | .brokenText => "Input should be a valid string, unable to parse raw data as a unicode string"
  | .noInteger => "Input should be a valid integer"
  | .noIntegerText => "Input should be a valid integer, unable to parse string as an integer"
  | .noNumber => "Input should be a valid number"
  | .noNumberText => "Input should be a valid number, unable to parse string as a number"
  | .noTruth => "Input should be a valid boolean"
  | .noTruthText => "Input should be a valid boolean, unable to interpret input"

/-- What a problem tells besides its wording. -/
def context : Problem → List Json.Field
  | .emptyText => [("ctx", .object [("min_length", .nat 1)])]
  | _ => []

end Problem

/-- Something wrong with a body: the names that lead to its place, and the value found there. -/
structure Finding where
  problem : Problem
  place : List String
  found : Json

/-- A finding as a JSON object. -/
def Finding.toJson (f : Finding) : Json :=
  .object
    (("type", .string f.problem.name) ::
      ("loc", .texts ("body" :: f.place)) ::
      ("msg", .string f.problem.message) :: ("input", f.found) :: f.problem.context)

/-- All that is wrong with a body. -/
abbrev Report := List Finding

namespace Report

/-- A report as a JSON object. -/
def toJson (r : Report) : Json :=
  .object [("detail", .array (r.map Finding.toJson))]

/-- Two values, or all that is wrong with either. -/
def both {α β : Type} (a : Except Report α) (b : Except Report β) : Except Report (α × β) :=
  match a, b with
  | .ok a, .ok b => .ok (a, b)
  | .ok _, .error r => .error r
  | .error r, .ok _ => .error r
  | .error r, .error s => .error (r ++ s)

end Report

end Verdict.Service
