import Verdict.Environment.Basic
import Verdict.Failure
import Verdict.Number.Decimal

/-!
# Lists of assignments

A list of assignments is cut into pieces at semicolons and line feeds. White space within a
piece has no meaning, and a piece of nothing else is skipped. Any other piece is a name, an
equals sign and a value: nothing for a name without a value, or a number, which is an integer
when it has no point. A later piece prevails over an earlier one with the same name, and the
first piece of another form is the one that is refused.
-/

namespace Verdict

open Text

namespace Environment

/-- The character ends a piece. -/
def isSeparator (c : Char) : Bool :=
  c == ';' || c == '\n'

/-- The text is a number in base ten: a sign, digits, and possibly a point and more digits. -/
def isAmount (s : List Char) : Bool :=
  let body := (Integer.splitSign s).2
  !(body.takeWhile isDigit).isEmpty &&
    match body.dropWhile isDigit with
    | [] => true
    | c :: fraction => c == '.' && !fraction.isEmpty && fraction.all isDigit

/-- The binary number nearest to the one that a text writes. -/
def readBinary (s : List Char) : Binary :=
  match Decimal.read? s with
  | some d => d.toBinary
  | none => .nan

/-- The value that the text behind the equals sign gives to a name. -/
def readValue (piece : String) (s : List Char) : Except Failure (Option Number) :=
  if s.isEmpty then
    .ok none
  else if !isAmount s then
    .error (Fault.assignment piece (.value (String.ofList s)))
  else if s.contains '.' then
    .ok (some (.binary (readBinary s)))
  else
    match Integer.read (String.ofList s) with
    | .error f => .error (.integer f)
    | .ok n => .ok (some (.integer n))

/-- The binding that a piece writes; `none` for a piece to be skipped. -/
def readPiece (s : List Char) : Except Failure (Option (String × Option Number)) :=
  let compact := removeBlanks s
  let piece := String.ofList (stripChars s)
  let name := compact.takeWhile (· != '=')
  if compact.isEmpty then
    .ok none
  else
    match compact.dropWhile (· != '=') with
    | [] => .error (Fault.assignment piece .equalsSign)
    | _ :: value =>
      if isWord name then
        (readValue piece value).map fun v => some (String.ofList name, v)
      else
        .error (Fault.assignment piece (.name (String.ofList name)))

/-- The environment with the binding of a piece added. -/
def assignPiece (env : Environment) (s : List Char) : Except Failure Environment :=
  (readPiece s).map fun
    | none => env
    | some (name, v) => env.set name v

/-- The pieces of a list of assignments. -/
def pieces (s : String) : List (List Char) :=
  s.toList.splitOnP isSeparator

/-- The bindings that a list of assignments writes. -/
def ofAssignments (s : String) : Except Failure Environment :=
  (pieces s).foldlM assignPiece empty

end Environment

end Verdict
