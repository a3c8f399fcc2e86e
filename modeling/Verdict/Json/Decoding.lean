import Verdict.Environment.Basic
import Verdict.Failure
import Verdict.Json.Basic
import Verdict.Number.Given

/-!
# Data from JSON values

Truth values, numbers and environments are accepted in JSON in more than one form: a number
may be given as a text, a truth value as a number or a word. A value of another form is not
valid.
-/

namespace Verdict

namespace Json

/-- The truth value that a JSON value gives. -/
def truth? : Json → Option Bool
  | .bool b => some b
  | .number v =>
    if v.compareTo 0 = some .eq then some false
    else if v.compareTo 1 = some .eq then some true
    else none
  | .string s => s.text?.bind truthOfText?
  | _ => none

/-- The number that a JSON value gives. A truth value counts as one or zero. -/
def number? : Json → Option Number
  | .number v => some v
  | .bool b => some (.integer (if b then 1 else 0))
  | .string s => s.text?.bind Number.ofText?
  | _ => none

/-- The whole number of a binary number of less than 64 bits. -/
def wholeNumber? (b : Binary) : Option Int :=
  b.toInt?.bind fun n => if n.natAbs < 9223372036854775808 then some n else none

/-- The integer that a JSON value gives. -/
def integer? : Json → Option Int
  | .number (.integer n) => some n
  | .number (.binary b) => wholeNumber? b
  | .bool b => some (if b then 1 else 0)
  | .string s => s.text?.bind Integer.ofText?
  | _ => none

/-- The value of a variable that a JSON value gives, with `null` for no value. -/
def binding? : Json → Option (Option Number)
  | .null => some none
  | j => j.number?.map some

end Json

namespace Environment

/-- The environment with the value of a field added. A name that is no text is the name of no
variable. -/
def setField (env : Environment) (field : Json.Field) : Except Failure Environment :=
  match field.2.binding?, field.1 with
  | some v, .text name => .ok (env.set name v)
  | some _, .broken _ => .ok env
  | none, _ => .error .invalid

/-- The environment of the fields of an object, all of which must be valid. -/
def ofFields (fields : List Json.Field) : Except Failure Environment :=
  fields.foldlM setField empty

/-- The environment that a JSON value gives, which must be an object. -/
def ofJson : Json → Except Failure Environment
  | .object fields => ofFields fields
  | _ => .error .invalid

end Environment

end Verdict
