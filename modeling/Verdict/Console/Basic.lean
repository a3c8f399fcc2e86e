import Verdict.Console.Arguments
import Verdict.Console.Table
import Verdict.Console.Tree
import Verdict.Rule
import Verdict.Settings
import Verdict.Text.Newline
import Verdict.Text.Utf8

/-!
# The console

A command evaluates a rule, draws the tree of its program, lists its tokens, or checks that it
can be read. The rule comes from a file, from the command line, or from the input. What a
command writes is an `Output`; a command that cannot go on writes one line that tells why, and
nothing else. The steps of an evaluation are logged when the settings ask for it, and records of
the log stand in front of such a line. An integer that cannot be read, bytes that are no text and
the path of no file end the program without an output, with a `Crash`.
-/

namespace Verdict.Console

/-- What a command writes, and the code with which it ends. -/
structure Output where
  code : Nat
  out : String
  err : String

/-- Why a command ends without an output. -/
inductive Crash where
  /-- A rule, its assignments or a setting cannot be read. -/
  | failure (f : Failure)
  /-- Bytes are no text. -/
  | encoding (f : Text.Utf8.Fault)
  /-- A path has a null character in it. -/
  | nullInPath

/-- What is told about a crash. -/
def Crash.message : Crash → String
  | .failure (.integer f) => f.message
  | .failure (.fault f) => f.message
  | .failure .invalid => "invalid settings"
  | .encoding f => f.message
  | .nullInPath => "embedded null byte"

/-- Lines as a text. -/
def unlines (lines : List String) : String :=
  String.join (lines.map (· ++ "\n"))

/-- The output of a command that writes some lines. -/
def Output.success (lines : List String) : Output :=
  ⟨0, unlines lines, ""⟩

/-- The output of a command that cannot go on. -/
def Output.stop (reason : String) : Output :=
  ⟨1, "", unlines ["Błąd: " ++ reason]⟩

/-- The output behind records of a log, which go where errors go. -/
def Output.logged (log : List String) (output : Output) : Output :=
  { output with err := unlines log ++ output.err }

/-! ### The rule of a command -/

/-- Where the rule of a command comes from. -/
inductive Source where
  | file (path : String)
  | argument (text : String)
  | input

/-- Where the rule of a command comes from: the file that is named, or else the rule that is
given, unless these names and texts are empty. -/
def Invocation.source (i : Invocation) : Source :=
  if !i.file.isEmpty then .file i.file
  else if !i.rule.isEmpty then .argument i.rule
  else .input

/-- Why a file cannot be read: a number and a wording. -/
structure ReadFault where
  code : Nat
  text : String

namespace ReadFault

/-- There is no such file. -/
def missing : ReadFault := ⟨2, "No such file or directory"⟩

/-- The file must not be read. -/
def denied : ReadFault := ⟨13, "Permission denied"⟩

/-- The path goes through a file. -/
def notDirectory : ReadFault := ⟨20, "Not a directory"⟩

/-- The path leads to a directory. -/
def directory : ReadFault := ⟨21, "Is a directory"⟩

/-- A name in the path is too long. -/
def nameTooLong : ReadFault := ⟨36, "File name too long"⟩

/-- The wording of a fault at a path. -/
def message (f : ReadFault) (path : String) : String :=
  "[Errno " ++ toString f.code ++ "] " ++ f.text ++ ": " ++ Text.quote path

end ReadFault

/-- The text that the bytes of a file or of the input give. -/
def readText (bytes : ByteArray) : Except Crash String :=
  match Text.Utf8.decode bytes with
  | .error f => .error (.encoding f)
  | .ok s => .ok (String.ofList (Text.unifyNewlines s.toList))

/-- The settings that the variables of the system and the bytes of a file of variables give;
the former prevail. -/
def settingsOf (file : Option ByteArray) (bindings : List (String × String)) :
    Except Crash Settings :=
  match (file.map readText).getD (.ok "") with
  | .error crash => .error crash
  | .ok text => (Settings.ofVariables bindings text).mapError .failure

/-- Why a command has no rule: the output that tells it, or a crash. -/
abbrev NoRule := Output ⊕ Crash

/-- A rule that is not blank. -/
def nonBlank (text : String) : Except NoRule String :=
  if Text.isBlankText text then
    .error (.inl (.stop "podaj regułę przez --rule, --file lub stdin"))
  else
    .ok text

/-- The rule of a file, when `bytes` is what was read from its path. It may be blank. -/
def fileRule (path : String) (bytes : Except ReadFault ByteArray) : Except NoRule String :=
  if path.contains '\x00' then
    .error (.inr .nullInPath)
  else
    match bytes with
    | .error f => .error (.inl (.stop ("odczyt pliku: " ++ f.message path)))
    | .ok bytes => (readText bytes).mapError .inr

/-- The rule of a command, when `bytes` is what was read from its file or from the input. -/
def Invocation.ruleText (i : Invocation) (bytes : Except ReadFault ByteArray) :
    Except NoRule String :=
  match i.source, bytes with
  | .argument text, _ => nonBlank text
  | .file path, bytes => fileRule path bytes
  | .input, .error f => .error (.inl (.stop ("odczyt pliku: " ++ f.message "stdin")))
  | .input, .ok bytes => ((readText bytes).mapError .inr).bind nonBlank

/-! ### Commands -/

/-- The table of a decision. -/
def decisionTable (d : Decision) : Table where
  title := "Result"
  headed := false
  padded := false
  columns :=
    [⟨.left, ["value", "selected", "true clauses"]⟩,
     ⟨.left, [toString d.value, selectedText d.selected, matchedText d.outcomes]⟩]
where
  selectedText : Option Nat → String
    | some index => "IF #" ++ toString index
    | none => "ELSE"
  matchedText (outcomes : List Outcome) : String :=
    match outcomes.filter (·.matched) with
    | [] => "-"
    | matched => String.intercalate ", " (matched.map fun o => "#" ++ toString o.index)

/-- The table of some tokens. -/
def tokenTable (ts : List Token) : Table where
  title := "Tokens [" ++ toString ts.length ++ "]"
  headed := true
  padded := true
  columns :=
    [⟨.right, "#" :: (List.range ts.length).map toString⟩,
     ⟨.left, "Kind" :: ts.map (·.kind.name)⟩,
     ⟨.left, "Text" :: ts.map (·.text)⟩,
     ⟨.right, "Line" :: ts.map fun t => toString t.line⟩,
     ⟨.right, "Col" :: ts.map fun t => toString t.column⟩]

/-- The lines that show a decision and the steps to it. -/
def decisionLines (i : Invocation) (trace : Bool) (steps : List String) (d : Decision) :
    List String :=
  (if trace then steps.map ("  " ++ ·) else []) ++
    (if i.quiet then [toString d.value] else (decisionTable d).lines)

/-- The lines that a command writes about a rule. -/
def Invocation.lines (settings : Settings) (i : Invocation) (rule : String) :
    Except Failure (List String) :=
  match i.command with
  | .evaluate =>
    match Environment.ofAssignments i.vars with
    | .error f => .error f
    | .ok env =>
      let run := Rule.evaluate rule env
      run.result.map (decisionLines i (i.trace || settings.traceEvaluation) run.lines)
  | .parse => (Rule.canonical rule).bind Program.treeLines
  | .tokens => (Rule.tokens rule).map fun ts => (tokenTable ts).lines
  | .check =>
    (Rule.canonical rule).map fun p =>
      ["OK: " ++ toString p.clauses.length ++ " klauzul IF + ELSE."]

/-- The record of a step in a log. -/
def stepRecord (line : String) : String :=
  "DEBUG:decision_rules.evaluator:" ++ line

/-- The records of the log that a command writes about a rule: the steps of an evaluation, those
in front of a failure included. -/
def Invocation.log (settings : Settings) (i : Invocation) (rule : String) : List String :=
  match i.command, Environment.ofAssignments i.vars with
  | .evaluate, .ok env =>
    if settings.logLevel.showsSteps then (Rule.evaluate rule env).lines.map stepRecord else []
  | _, _ => []

/-- The output of a command, when `bytes` is what was read from its file or from the input. -/
def Invocation.run (settings : Settings) (i : Invocation) (bytes : Except ReadFault ByteArray) :
    Except Crash Output :=
  match i.ruleText bytes with
  | .error (.inl output) => .ok output
  | .error (.inr crash) => .error crash
  | .ok rule =>
    let log := i.log settings rule
    match i.lines settings rule with
    | .ok lines => .ok ((Output.success lines).logged log)
    | .error (.fault f) => .ok ((Output.stop ("[" ++ f.kind ++ "] " ++ f.message)).logged log)
    | .error f => .error (.failure f)

/-- How commands are written. -/
def usage : String :=
  unlines
    ["usage: verdict [-h] COMMAND ...",
     "",
     "  eval    [--rule RULE | --file FILE] [--vars VARS] [--trace] [--quiet]",
     "  parse   [--rule RULE | --file FILE]",
     "  tokens  [--rule RULE | --file FILE]",
     "  check   [--rule RULE | --file FILE]"]

end Verdict.Console
