import Verdict.Console.Basic

/-!
# The program

`main` takes the settings from the variables of the system and from a file in the current
directory, reads the command line, and then the file or the input that the command asks for,
and writes the output of the command.
-/

namespace Verdict

open Console

/-- The names of the variables of the system that hold settings, in capitals and in small
letters. -/
def settingVariables : List String :=
  let settings := ["LOG_LEVEL", "TRACE_EVALUATION", "MAX_RULE_LENGTH", "MAX_CONDITION_DEPTH",
    "APP_TITLE", "APP_VERSION"]
  let names := settings.map ("DECISION_RULES_" ++ ·)
  names ++ names.map String.toLower

/-- The variables of the system with the given names. -/
def readVariables (names : List String) : IO (List (String × String)) := do
  let mut found := []
  for name in names do
    match ← IO.getEnv name with
    | some v => found := found ++ [(name, v)]
    | none => pure ()
  return found

/-- Why a file could not be read. -/
def readFault : IO.Error → ReadFault
  | .noFileOrDirectory .. => .missing
  | .permissionDenied .. => .denied
  | .invalidArgument _ 36 _ => .nameTooLong
  | .inappropriateType _ code _ => if code = 20 then .notDirectory else .directory
  | _ => ⟨5, "Input/output error"⟩

/-- The bytes of a file. -/
def readFile (path : String) : IO (Except ReadFault ByteArray) := do
  try
    let bytes ← IO.FS.readBinFile path
    return .ok bytes
  catch e =>
    return .error (readFault e)

/-- All bytes of the input. -/
def readInput : IO ByteArray := do
  let input ← IO.getStdin
  let mut bytes := ByteArray.empty
  let mut more := true
  while more do
    let chunk ← input.read 65536
    bytes := bytes ++ chunk
    more := !chunk.isEmpty
  return bytes

/-- The bytes that a command reads. -/
def readSource (i : Invocation) : IO (Except ReadFault ByteArray) := do
  match i.source with
  | .file path => readFile path
  | .argument _ => return .ok .empty
  | .input => return .ok (← readInput)

/-- The names of the variables of the system that the settings depend on, those to which a file
of variables refers included. -/
def variableNames (file : Option ByteArray) : List String :=
  let text := (file.bind fun bytes => (readText bytes).toOption).getD ""
  settingVariables ++ Settings.File.references text.toList

/-- The settings of the system and of the file in the current directory. -/
def readSettings : IO (Except Crash Settings) := do
  let file := (← readFile ".env").toOption
  return settingsOf file (← readVariables (variableNames file))

/-- Writes a message and ends with the given code. -/
def stopWith (code : UInt32) (message : String) : IO UInt32 := do
  IO.eprint message
  return code

/-- Runs a command. -/
def runInvocation (i : Invocation) : IO UInt32 := do
  match ← readSettings with
  | .error crash => stopWith 1 (unlines [crash.message])
  | .ok settings =>
    match i.run settings (← readSource i) with
    | .error crash => stopWith 1 (unlines [crash.message])
    | .ok output =>
      IO.print output.out
      IO.eprint output.err
      return output.code.toUInt32

end Verdict

open Verdict Verdict.Console in
/-- Runs the command that the command line asks for. -/
def main (args : List String) : IO UInt32 := do
  match readArguments args with
  | .run i => runInvocation i
  | .help =>
    IO.print usage
    return 0
  | .usageError => stopWith 2 usage
