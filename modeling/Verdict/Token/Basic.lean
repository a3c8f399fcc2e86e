import Verdict.Operator

/-!
# Tokens

A rule is a text, and its words, numbers and signs are its tokens. A `Token` has a kind, the
text that it stands for, and the place where that text begins: its offset, counted in
characters from zero, and its line and column, counted from one.
-/

namespace Verdict

/-- A word with a fixed role in a program. -/
inductive Keyword where
  | ifWord
  | elseWord
  | returnWord
  deriving DecidableEq

/-- The spelling of a keyword. -/
def Keyword.text : Keyword → String
  | .ifWord => "IF"
  | .elseWord => "ELSE"
  | .returnWord => "RETURN"

/-- The kind of a token. -/
inductive Token.Kind where
  | leftParen
  | rightParen
  | relation (r : Relation)
  | connective (c : Connective)
  | keyword (k : Keyword)
  | isMissing
  | number
  | identifier
  deriving DecidableEq

namespace Token.Kind

/-- The name under which a kind is shown. -/
def name : Token.Kind → String
  | .leftParen => "LPAREN"
  | .rightParen => "RPAREN"
  | .relation .ge => "GTE"
  | .relation .le => "LTE"
  | .relation .gt => "GT"
  | .relation .lt => "LT"
  | .relation .eq => "EQ"
  | .connective .and => "AND"
  | .connective .or => "OR"
  | .keyword .ifWord => "IF"
  | .keyword .elseWord => "ELSE"
  | .keyword .returnWord => "RETURN"
  | .isMissing => "IS_MISSING"
  | .number => "NUMBER"
  | .identifier => "IDENTIFIER"

/-- All kinds. -/
def all : List Token.Kind :=
  [.leftParen, .rightParen, .relation .ge, .relation .le, .relation .gt, .relation .lt,
   .relation .eq, .connective .and, .connective .or, .keyword .ifWord, .keyword .elseWord,
   .keyword .returnWord, .isMissing, .number, .identifier]

/-- The kind shown under the given name. -/
def ofName? (s : String) : Option Token.Kind :=
  all.find? (·.name == s)

theorem mem_all (k : Token.Kind) :
  k ∈ all
  := by
  rcases k with _ | _ | r | c | k | _ | _ | _
  case relation => cases r <;> decide
  case connective => cases c <;> decide
  case keyword => cases k <;> decide
  all_goals decide

end Token.Kind

/-- A token. -/
structure Token where
  kind : Token.Kind
  text : String
  offset : Int
  line : Int
  column : Int
  deriving DecidableEq

/-- The offset just behind a token. -/
def Token.endOffset (t : Token) : Int :=
  t.offset + t.text.length

/-! ### Places -/

/-- A place in a text. -/
structure Place where
  offset : Nat
  line : Nat
  column : Nat
  deriving DecidableEq

namespace Place

/-- The place where a text begins. -/
def start : Place := ⟨0, 1, 1⟩

/-- The place behind a character. -/
def next (p : Place) (c : Char) : Place :=
  if c = '\n' then
    ⟨p.offset + 1, p.line + 1, 1⟩
  else
    ⟨p.offset + 1, p.line, p.column + 1⟩

/-- The place behind a text. -/
def after (p : Place) (s : List Char) : Place :=
  s.foldl next p

end Place

/-- The token of the given kind and text that begins at a place. -/
def Token.atPlace (p : Place) (kind : Token.Kind) (text : String) : Token :=
  ⟨kind, text, p.offset, p.line, p.column⟩

end Verdict
