import Verdict.Text.Digit

/-!
# Command lines

A command line is the name of a command and the options of that command. An option has a short
name, a letter behind a hyphen, and a long one behind two hyphens, which may be cut short as
long as no other option begins the same way. The value of an option is the next argument, or
stands behind an equals sign, or directly behind a short name; short names without a value may
be joined. A value of two hyphens in the same argument is as good as none. Of two values for
the same option the later one counts. Anything else is an error of usage, unless help is asked
for before the first such error that cannot be passed over.
-/

namespace Verdict.Console

/-- An option of a command. -/
inductive Switch where
  | help
  | rule
  | file
  | vars
  | trace
  | quiet
  deriving DecidableEq

namespace Switch

/-- The long name of an option, without hyphens. -/
def longName : Switch → String
  | .help => "help"
  | .rule => "rule"
  | .file => "file"
  | .vars => "vars"
  | .trace => "trace"
  | .quiet => "quiet"

/-- The letter of an option, if it has one. -/
def letter? : Switch → Option Char
  | .help => some 'h'
  | .rule => some 'r'
  | .file => some 'f'
  | .vars => some 'v'
  | .trace => none
  | .quiet => some 'q'

/-- The option takes a value. -/
def takesValue : Switch → Bool
  | .rule | .file | .vars => true
  | .help | .trace | .quiet => false

end Switch

/-- A command. -/
inductive Command where
  | evaluate
  | parse
  | tokens
  | check
  deriving DecidableEq

namespace Command

/-- The name of a command. -/
def name : Command → String
  | .evaluate => "eval"
  | .parse => "parse"
  | .tokens => "tokens"
  | .check => "check"

/-- All commands. -/
def all : List Command := [.evaluate, .parse, .tokens, .check]

/-- The options of a command. -/
def options : Command → List Switch
  | .evaluate => [.help, .rule, .file, .vars, .trace, .quiet]
  | _ => [.help, .rule, .file]

end Command

/-- A command with the values of its options. -/
structure Invocation where
  command : Command
  rule : String
  file : String
  vars : String
  trace : Bool
  quiet : Bool

/-- A command without options. -/
def Invocation.initial (c : Command) : Invocation :=
  ⟨c, "", "", "", false, false⟩

/-- What a command line asks for. -/
inductive Request where
  | run (i : Invocation)
  | help
  | usageError

/-! ### Single arguments -/

/-- What an argument holds beside the name of an option. -/
inductive Attachment where
  | none
  /-- What stands behind a long name and an equals sign. -/
  | value (s : List Char)
  /-- What stands behind a letter, with or without an equals sign. -/
  | joined (s : List Char)

/-- How an argument is taken, before its place is known. -/
inductive Argument where
  /-- A value. -/
  | plain
  /-- An option. -/
  | option (o : Switch) (attached : Attachment)
  /-- An option that the command does not have. -/
  | unknown
  /-- A name cut so short that several options begin with it. -/
  | ambiguous

/-- The part of a text in front of the first equals sign, and what stands behind it. -/
def splitEquals (s : List Char) : List Char × Attachment :=
  match s.dropWhile (· != '=') with
  | [] => (s, .none)
  | _ :: value => (s.takeWhile (· != '='), .value value)

/-- The text, which stands behind a hyphen, is a decimal number, possibly with a line feed at
its end. -/
def isDecimalNumber (s : List Char) : Bool :=
  let s := if s.getLast? = some '\n' then s.dropLast else s
  match s.dropWhile Text.isDigit with
  | [] => !s.isEmpty
  | c :: fraction => c == '.' && !fraction.isEmpty && fraction.all Text.isDigit

/-- How an argument that begins with a hyphen, but is not read as an option, is taken. -/
def withoutOption (s : List Char) : Argument :=
  if isDecimalNumber s || s.contains ' ' then .plain else .unknown

/-- How the argument `--s` is taken. -/
def longArgument (options : List Switch) (s : List Char) : Argument :=
  let (name, attached) := splitEquals s
  match options.find? fun o => o.longName.toList == name with
  | some o => .option o attached
  | none =>
    match options.filter fun o => name.isPrefixOf o.longName.toList with
    | [] => if s.contains ' ' then .plain else .unknown
    | [o] => .option o attached
    | _ => .ambiguous

/-- How the argument `-c s` without the blank is taken. -/
def shortArgument (options : List Switch) (c : Char) (s : List Char) : Argument :=
  match options.find? fun o => o.letter? == some c with
  | none => withoutOption (c :: s)
  | some o =>
    match s with
    | [] => .option o .none
    | '=' :: value => .option o (.joined value)
    | s => .option o (.joined s)

/-- How an argument is taken. -/
def classify (options : List Switch) (arg : String) : Argument :=
  match arg.toList with
  | '-' :: '-' :: s => longArgument options s
  | ['-'] => .plain
  | '-' :: c :: s => shortArgument options c s
  | _ => .plain

/-! ### The options of a command -/

/-- The value that is attached to an option. -/
def attachedValue (s : List Char) : String :=
  if s = ['-', '-'] then "" else String.ofList s

/-- The command with the value of an option. -/
def Invocation.setValue (i : Invocation) (o : Switch) (value : String) : Invocation :=
  match o with
  | .rule => { i with rule := value }
  | .file => { i with file := value }
  | .vars => { i with vars := value }
  | _ => i

/-- The command with an option that has no value. -/
def Invocation.setFlag (i : Invocation) (o : Switch) : Invocation :=
  match o with
  | .trace => { i with trace := true }
  | .quiet => { i with quiet := true }
  | _ => i

/-- What an argument does to a command. -/
inductive Effect where
  /-- The command has the options. -/
  | set (i : Invocation)
  /-- The last option needs the next argument for its value; `asked` tells that help is asked
  for beside it. -/
  | needsValue (i : Invocation) (o : Switch) (asked : Bool)
  /-- Help is asked for. -/
  | help
  /-- An option cannot have what is attached to it. -/
  | wrong

/-- The effect of options whose values are known, when `asked` tells that help is one of
them. -/
def Effect.ofOptions (i : Invocation) (asked : Bool) : Effect :=
  if asked then .help else .set i

/-- What letters joined to the letter of an option without a value do to a command; `asked`
tells that help has been asked for. -/
def joinedEffect (options : List Switch) (i : Invocation) (asked : Bool) :
    List Char → Effect
  | [] => .ofOptions i asked
  | c :: s =>
    match options.find? fun o => o.letter? == some c with
    | none => .wrong
    | some o =>
      if o.takesValue then
        match s with
        | [] => .needsValue i o asked
        | value => .ofOptions (i.setValue o (attachedValue value)) asked
      else
        joinedEffect options (i.setFlag o) (asked || o = .help) s

/-- What an option does to a command. -/
def optionEffect (options : List Switch) (i : Invocation) (o : Switch)
    (attached : Attachment) : Effect :=
  if o.takesValue then
    match attached with
    | .none => .needsValue i o false
    | .value s | .joined s => .set (i.setValue o (attachedValue s))
  else
    match attached with
    | .none => .ofOptions (i.setFlag o) (o = .help)
    | .value _ | .joined [] => .wrong
    | .joined s => joinedEffect options (i.setFlag o) (o = .help) s

/-- The argument can be the value of an option. -/
def isValue (options : List Switch) (arg : String) : Bool :=
  arg != "--" &&
    match classify options arg with
    | .plain => true
    | _ => false

/-- The arguments that may hold options: those in front of two hyphens standing alone. -/
def optionPart (args : List String) : List String :=
  args.takeWhile (· != "--")

/-- The name of one of the arguments is cut too short. -/
def hasAmbiguous (options : List Switch) (args : List String) : Bool :=
  (optionPart args).any fun a =>
    match classify options a with
    | .ambiguous => true
    | _ => false

/-- What the options of a command ask for; `sound` tells that there has been no error so
far. -/
def readOptions (options : List Switch) (i : Invocation) (sound : Bool) :
    List String → Request
  | [] => if sound then .run i else .usageError
  | "--" :: _ => .usageError
  | arg :: rest =>
    match classify options arg with
    | .plain => readOptions options i false rest
    | .unknown => readOptions options i false rest
    | .ambiguous => .usageError
    | .option o attached =>
      match optionEffect options i o attached with
      | .set i => readOptions options i sound rest
      | .help => .help
      | .wrong => .usageError
      | .needsValue i o asked =>
        match rest with
        | [] => .usageError
        | value :: rest =>
          if !isValue options value then .usageError
          else if asked then .help
          else readOptions options (i.setValue o value) sound rest

/-- What a command with the given arguments asks for. -/
def readCommand (c : Command) (args : List String) : Request :=
  if hasAmbiguous c.options args then
    .usageError
  else
    readOptions c.options (.initial c) true args

/-- What is asked for behind an error that can be passed over: help is, and nothing else. -/
def Request.afterError : Request → Request
  | .help => .help
  | _ => .usageError

/-- What a command line asks for. -/
def readArguments : List String → Request
  | [] => .usageError
  | "--" :: _ => .usageError
  | arg :: rest =>
    match classify [.help] arg with
    | .plain =>
      match Command.all.find? (·.name == arg) with
      | none => .usageError
      | some c => readCommand c rest
    | .option o attached =>
      match optionEffect [.help] (.initial .evaluate) o attached with
      | .help => .help
      | _ => .usageError
    | .unknown => (readArguments rest).afterError
    | .ambiguous => .usageError

end Verdict.Console
