import Verdict.Number.Integer
import Verdict.Token.Lexer

/-!
# Faults and failures

A `Fault` is something wrong with a rule, with a list of assignments, or with the values that
a rule is evaluated with. It has a kind and a message for the person who wrote them. A call
that gives no value ends with a `Failure`: a fault, an integer that cannot be read, or data
that is not valid.
-/

namespace Verdict

open Text

/-- What may stand at the place of a token that does not fit. -/
inductive Expected where
  /-- A token of one kind. -/
  | kind (k : Token.Kind)
  /-- Another clause, or the last one. -/
  | ifOrElse
  /-- The beginning of a condition. -/
  | operand
  /-- Any relation. -/
  | relation
  /-- Nothing more. -/
  | endOfInput
  deriving DecidableEq

namespace Expected

/-- The wording of an expectation. -/
def text : Expected → String
  | .kind .leftParen => "'('"
  | .kind .rightParen => "')'"
  | .kind (.keyword k) => k.text
  | .kind .isMissing => "IS-MISSING"
  | .kind .number => "integer literal"
  | .kind .identifier => "identifier"
  | .kind k => k.name
  | .ifOrElse => "IF or ELSE"
  | .operand => "identifier, IS-MISSING or '('"
  | .relation => "relational operator (>, >=, <, <=, ==)"
  | .endOfInput => "end of input"

end Expected

/-- What is wrong with a program that was put together by hand. -/
inductive Malformation where
  /-- A keyword was expected in the place of this text. -/
  | keyword (expected : Keyword) (found : String)
  /-- A number was expected in the place of this text. -/
  | returnValue (found : String)
  /-- The operator joins two conditions and is no connective. -/
  | connective (text : String)
  /-- The operator compares and is no relation. -/
  | relation (text : String)
  /-- A group was evaluated. -/
  | group
  /-- A value of the named type stands where a condition should. -/
  | alien (typeName : String)
  deriving DecidableEq

/-- The wording of a malformation. -/
def Malformation.detail : Malformation → String
  | .keyword expected found =>
    "oczekiwano słowa " ++ expected.text ++ ", otrzymano " ++ quote found
  | .returnValue found => "RETURN wymaga liczby, otrzymano " ++ quote found
  | .connective text => "nieznany operator logiczny " ++ quote text
  | .relation text => "nieobsługiwany operator " ++ quote text
  | .group => "nawias w warunku nie został zredukowany"
  | .alien typeName => "nieznany typ węzła AST: " ++ typeName

/-- What is wrong with one piece of a list of assignments. -/
inductive AssignmentFault where
  /-- The piece has no equals sign. -/
  | equalsSign
  /-- The text in front of the equals sign is no name. -/
  | name (text : String)
  /-- The text behind the equals sign is no number. -/
  | value (text : String)
  deriving DecidableEq

/-- The wording of what is wrong with a piece. -/
def AssignmentFault.reason : AssignmentFault → String
  | .equalsSign => "brak znaku '='"
  | .name text => "niepoprawna nazwa zmiennej " ++ quote text
  | .value text => "wartość " ++ quote text ++ " nie jest liczbą"

/-- Something wrong with what the user wrote. -/
inductive Fault where
  /-- A character begins no token. -/
  | lexical (stuck : Token.Stuck)
  /-- The token at a position does not fit; the end of the input is no token. -/
  | misplaced (position : Int) (expected : Expected) (found : Option String)
  /-- A comparison needs a variable that has no value. -/
  | undefined (name : String) (comparison : String)
  /-- A program put together by hand is wrong. -/
  | malformed (cause : Malformation)
  /-- A piece of a list of assignments is wrong. -/
  | assignment (piece : String) (cause : AssignmentFault)
  deriving DecidableEq

namespace Fault

/-- The name of the kind of a fault. -/
def kind : Fault → String
  | .lexical .. => "lex_error"
  | .misplaced .. => "syntax_error"
  | .undefined .. => "undefined_variable"
  | .malformed .. => "malformed_clause"
  | .assignment .. => "assignment_error"

/-- What stands at the place of a token that does not fit. -/
def foundText : Option String → String
  | some text => quote text
  | none => Expected.endOfInput.text

/-- The message of a fault. -/
def message : Fault → String
  | .lexical ⟨place, char⟩ =>
    "Nierozpoznany znak " ++ quoteChar char ++ " w linii " ++ toString place.line ++
      ", kolumnie " ++ toString place.column
  | .misplaced position expected found =>
    "Błąd składni na pozycji " ++ toString position ++ ": oczekiwano " ++ expected.text ++
      ", otrzymano " ++ foundText found
  | .undefined name comparison =>
    "Zmienna " ++ quote name ++ " nie jest zdefiniowana w wyrażeniu " ++ quote comparison
  | .malformed cause => "Niepoprawna klauzula: " ++ cause.detail
  | .assignment piece cause =>
    "Niepoprawne przypisanie " ++ quote piece ++ ": " ++ cause.reason

end Fault

/-- Why a call gives no value. -/
inductive Failure where
  /-- Something is wrong with what the user wrote. -/
  | fault (f : Fault)
  /-- An integer cannot be read. -/
  | integer (f : Integer.Fault)
  /-- The data is not valid. -/
  | invalid
  deriving DecidableEq

instance : Coe Fault Failure := ⟨.fault⟩

end Verdict
