import Verdict.Json.Decoding
import Verdict.Settings.File

/-!
# Settings

The settings bound the rules that the service accepts, tell whether steps are shown without being
asked for and how much is logged, and name the application. Each has a default.
`Settings.ofVariables` takes them from the variables of the system and those of a file, whose names
begin with `Settings.variableStart` in letters of either case.
-/

namespace Verdict

/-- How much is logged: records of a level and of all levels above it. -/
inductive LogLevel where
  | all
  | debug
  | info
  | warning
  | error
  | critical
  deriving DecidableEq

namespace LogLevel

/-- The names of the levels. -/
def names : List (String × LogLevel) :=
  [("CRITICAL", .critical), ("FATAL", .critical), ("ERROR", .error), ("WARN", .warning),
   ("WARNING", .warning), ("INFO", .info), ("DEBUG", .debug), ("NOTSET", .all)]

/-- The capital letter of ASCII that belongs to a character, or else the character. Two small
letters beyond ASCII have such capitals too. -/
def capital (c : Char) : Char :=
  if c = 'ı' then 'I' else if c = 'ſ' then 'S' else c.toUpper

/-- The level with a name, in letters of either case. -/
def ofText? (text : String) : Option LogLevel :=
  names.lookup (String.ofList (text.toList.map capital))

/-- The steps of an evaluation are logged, as records of the level `debug`. -/
def showsSteps : LogLevel → Bool
  | .all | .debug => true
  | _ => false

end LogLevel

/-- The settings of the application. -/
structure Settings where
  /-- How much is logged. -/
  logLevel : LogLevel
  /-- Whether steps are shown without being asked for. -/
  traceEvaluation : Bool
  /-- The greatest number of characters of a rule that the service accepts. -/
  maxRuleLength : Int
  /-- The greatest number of levels of a condition that the service shows. -/
  maxConditionDepth : Int
  title : String
  version : String

namespace Settings

/-- The settings that nothing else determines. -/
def default : Settings := ⟨.info, false, 10000, 100, "DecisionRules", "0.1.0"⟩

/-- A setting replaced by the value of a field, when there is such a field. -/
def override {α : Type} (fields : List Json.Field) (name : String)
    (accept : Json → Option α) (current : α) : Except Failure α :=
  match Json.lookup fields name with
  | none => .ok current
  | some j =>
    match accept j with
    | some a => .ok a
    | none => .error .invalid

/-- The text that a JSON string gives. -/
def textOf? : Json → Option String
  | .string s => s.text?
  | _ => none

/-- A field with its name in small letters. -/
def lowerName (field : Json.Field) : Json.Field :=
  match field with
  | (.text name, j) => (.text name.toLower, j)
  | field => field

/-- The default settings with those of some fields in their place, whose names may be in
letters of either case. -/
def ofFields (fields : List Json.Field) : Except Failure Settings := do
  let fields := fields.map lowerName
  let level ← override fields "log_level" (fun j => (textOf? j).bind LogLevel.ofText?)
    default.logLevel
  let trace ← override fields "trace_evaluation" Json.truth? default.traceEvaluation
  let length ← override fields "max_rule_length" Json.integer? default.maxRuleLength
  let depth ← override fields "max_condition_depth" Json.integer? default.maxConditionDepth
  let title ← override fields "app_title" textOf? default.title
  let version ← override fields "app_version" textOf? default.version
  return ⟨level, trace, length, depth, title, version⟩

/-! ### Variables of the system -/

/-- How the names of the variables begin. -/
def variableStart : List Char := "decision_rules_".toList

/-- The setting that a variable names. -/
def settingName? (name : String) : Option String :=
  let letters := name.toList.map Char.toLower
  if variableStart.isPrefixOf letters then
    some (String.ofList (letters.drop variableStart.length))
  else
    none

/-- The settings that variables give; of two for the same setting the later one prevails, and
one without a value gives none. -/
def ofEntries (entries : List File.Entry) : Except Failure Settings :=
  let named := entries.filterMap fun (name, value) => (settingName? name).map (·, value)
  ofFields (named.filterMap fun (name, _) =>
    ((named.reverse.lookup name).join).map fun value => (.text name, .string value))

/-- The settings that the variables of the system and the text of a file of variables give. The
former prevail. -/
def ofVariables (system : List (String × String)) (file : String) : Except Failure Settings :=
  ofEntries (File.bindings system file ++ system.map fun (name, value) => (name, some value))

end Settings

end Verdict
