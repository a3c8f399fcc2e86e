import Verdict.Text.Blank

/-!
# Files of variables

A file of variables has an entry on every line: a name, an equals sign and a value. A value may
stand between two marks, and then take more than one line. Comments begin with a number sign.
A line that has another form is skipped; the warning about it is left out. `Settings.File.bindings`
takes the variables from such a file; a value may refer to a variable that is already known.
-/

namespace Verdict.Settings.File

open Text

/-- A name and its value, if it has one. -/
abbrev Entry := String × Option String

/-- White space within a line. -/
def isInlineBlank (c : Char) : Bool :=
  isBlank c && c != '\n'

/-- A text without the white space of its first line at its beginning. -/
def dropInlineBlanks (s : List Char) : List Char :=
  s.dropWhile isInlineBlank

/-- What follows the first line of a text. -/
def dropLine (s : List Char) : List Char :=
  (s.dropWhile (· != '\n')).drop 1

/-! ### Names -/

/-- A text without the word `export` and the white space behind it. -/
def dropExport (s : List Char) : List Char :=
  let word := "export".toList
  let rest := s.drop word.length
  if word.isPrefixOf s && rest.head?.any isInlineBlank then dropInlineBlanks rest else s

/-- The character may stand in a name without marks. -/
def isNameChar (c : Char) : Bool :=
  !(c == '=' || c == '#' || isBlank c)

/-- The name at the beginning of a text, and what follows it. A name may stand between
apostrophes. -/
def splitName? (s : List Char) : Option (List Char × List Char) :=
  match s with
  | '\'' :: cs =>
    match cs.takeWhile (· != '\''), cs.dropWhile (· != '\'') with
    | c :: name, _ :: rest => some (c :: name, rest)
    | _, _ => none
  | s =>
    match s.takeWhile isNameChar with
    | [] => none
    | name => some (name, s.dropWhile isNameChar)

/-! ### Values -/

/-- The value in front of a mark, and what follows the mark. A mark behind a backslash belongs
to the value, unless there is no other mark. -/
def splitMarked? (mark : Char) : List Char → Option (List Char × List Char)
  | [] => none
  | '\\' :: c :: cs =>
    if c = mark then
      match splitMarked? mark cs with
      | some (value, rest) => some ('\\' :: c :: value, rest)
      | none => some (['\\'], cs)
    else
      (splitMarked? mark (c :: cs)).map fun (value, rest) => ('\\' :: value, rest)
  | c :: cs =>
    if c = mark then some ([], cs)
    else (splitMarked? mark cs).map fun (value, rest) => (c :: value, rest)

/-- The characters that stand for others behind a backslash in a value between marks. -/
def escapes (mark : Char) : List (Char × Char) :=
  if mark = '"' then
    [('\\', '\\'), ('\'', '\''), ('"', '"'), ('a', '\x07'), ('b', '\x08'), ('f', '\x0c'),
     ('n', '\n'), ('r', '\r'), ('t', '\t'), ('v', '\x0b')]
  else
    [('\\', '\\'), ('\'', '\'')]

/-- A value with the characters in it that backslashes stand for. -/
def unescape (table : List (Char × Char)) : List Char → List Char
  | [] => []
  | '\\' :: c :: cs =>
    match table.lookup c with
    | some e => e :: unescape table cs
    | none => '\\' :: unescape table (c :: cs)
  | c :: cs => c :: unescape table cs

/-- A value without the comment at its end, in front of which white space stands; `afterBlank`
tells that white space precedes the text. -/
def withoutComment (afterBlank : Bool) : List Char → List Char
  | [] => []
  | c :: cs =>
    if afterBlank && c = '#' then [] else c :: withoutComment (isBlank c) cs

/-- The value behind the equals sign of an entry, and what follows it. -/
def splitValue? (s : List Char) : Option (List Char × List Char) :=
  let plain := (stripChars (withoutComment false (s.takeWhile (· != '\n'))),
    s.dropWhile (· != '\n'))
  match s with
  | [] => some plain
  | mark :: cs =>
    if mark = '\'' || mark = '"' then
      (splitMarked? mark cs).map fun (value, rest) => (unescape (escapes mark) value, rest)
    else
      some plain

/-! ### Entries -/

/-- What follows an entry, when the rest of its line is white space and a comment. -/
def endEntry? (s : List Char) : Option (List Char) :=
  match dropInlineBlanks s with
  | [] => some []
  | '\n' :: rest => some rest
  | '#' :: rest => some (dropLine rest)
  | _ => none

/-- An entry that is complete when its line ends, and what follows that line. -/
def complete (entry : Entry) (s : List Char) : Option Entry × List Char :=
  match endEntry? s with
  | some rest => (some entry, rest)
  | none => (none, dropLine s)

/-- The entry at the beginning of a text, and what follows its last line. -/
def splitEntry (s : List Char) : Option Entry × List Char :=
  match splitName? (dropExport s) with
  | none => (none, dropLine s)
  | some (name, rest) =>
    match dropInlineBlanks rest with
    | '=' :: rest =>
      let rest := dropInlineBlanks rest
      match splitValue? rest with
      | none => (none, dropLine rest)
      | some (value, rest) => complete (String.ofList name, some (String.ofList value)) rest
    | rest => complete (String.ofList name, none) rest

/-- The entries of a text, of which `fuel` bounds the length. -/
def splitEntries : (fuel : Nat) → List Char → List Entry
  | 0, _ => []
  | fuel + 1, s =>
    match s.dropWhile isBlank with
    | [] => []
    | s =>
      match splitEntry s with
      | (some entry, rest) => entry :: splitEntries fuel rest
      | (none, rest) => splitEntries fuel rest

/-- The entries of a text. Every entry takes a character. -/
def entries (text : String) : List Entry :=
  splitEntries (text.length + 1) text.toList

/-! ### References -/

/-- A reference to a variable at the beginning of a text, behind its dollar sign: the name of
the variable, the text that stands for it when it is not known, and what follows. -/
def splitReference? : List Char → Option (String × String × List Char)
  | '\x7b' :: cs =>
    let name := String.ofList (cs.takeWhile fun c => c != '\x7d' && c != ':')
    match cs.dropWhile fun c => c != '\x7d' && c != ':' with
    | '\x7d' :: rest => some (name, "", rest)
    | ':' :: '-' :: rest =>
      match rest.dropWhile (· != '\x7d') with
      | _ :: after => some (name, String.ofList (rest.takeWhile (· != '\x7d')), after)
      | [] => none
    | _ => none
  | _ => none

/-- The names to which a text refers. -/
def references : List Char → List String
  | [] => []
  | c :: cs =>
    match if c = '$' then splitReference? cs else none with
    | some (name, _, _) => name :: references cs
    | none => references cs

/-- The value of a name among entries, the last of which counts; a name without a value has an
empty one. -/
def valueOf? (known : List Entry) (name : String) : Option String :=
  (known.reverse.lookup name).map (·.getD "")

/-- A value with the values of variables in the place of references to them; `fuel` bounds the
length of the text. -/
def resolve (known : List Entry) : (fuel : Nat) → List Char → List Char
  | 0, s => s
  | _ + 1, [] => []
  | fuel + 1, c :: cs =>
    match if c = '$' then splitReference? cs else none with
    | some (name, otherwise, rest) =>
      ((valueOf? known name).getD otherwise).toList ++ resolve known fuel rest
    | none => c :: resolve known fuel cs

/-- The value of an entry, with references to the variables that are known. -/
def Entry.resolved (known : List Entry) (entry : Entry) : Entry :=
  (entry.1, entry.2.map fun v => String.ofList (resolve known v.length v.toList))

/-- The entries with a name given a value, in the place of an earlier one. -/
def put (entry : Entry) : List Entry → List Entry
  | [] => [entry]
  | e :: rest => if e.1 = entry.1 then entry :: rest else e :: put entry rest

/-- The variables that a file gives, each of them once, when those of the system are known. -/
def bindings (system : List (String × String)) (text : String) : List Entry :=
  let known := system.map fun (name, value) => (name, some value)
  (entries text).foldl (fun found e => put (Entry.resolved (known ++ found) e) found) []

end Verdict.Settings.File
