import Verdict.Token.Basic

/-!
# From a text to its tokens

`Token.scan` cuts a text into tokens. At each place the longest possible token is taken, and
blanks between tokens are skipped. The word `IS-MISSING` is a token only when no letter, digit
or underscore follows it. A word that is none of the keywords and connectives and not the
spelled form of equality is an identifier. A character that begins no token ends the scan
with a `Token.Stuck`.
-/

namespace Verdict

/-- The character stands between tokens. -/
def isSpacing (c : Char) : Bool :=
  c == ' ' || c == '\t' || c == '\r' || c == '\n'

/-- The character is a letter of the Latin alphabet, without marks. -/
def isLetter (c : Char) : Bool :=
  ('a' ≤ c && c ≤ 'z') || ('A' ≤ c && c ≤ 'Z')

/-- The character is one of the ten digits of numbers in rules. -/
def isNumeral (c : Char) : Bool :=
  '0' ≤ c && c ≤ '9'

/-- The character may stand in a word after its first letter. -/
def isWordChar (c : Char) : Bool :=
  c == '_' || isLetter c || isNumeral c

/-- The text is a word: a letter followed by letters, digits and underscores. -/
def isWord : List Char → Bool
  | [] => false
  | c :: cs => isLetter c && cs.all isWordChar

namespace Token

/-- The kind of a word. -/
def wordKind (w : List Char) : Token.Kind :=
  if w = ['I', 'F'] then .keyword .ifWord
  else if w = ['E', 'L', 'S', 'E'] then .keyword .elseWord
  else if w = ['A', 'N', 'D'] then .connective .and
  else if w = ['O', 'R'] then .connective .or
  else if w = ['R', 'E', 'T', 'U', 'R', 'N'] then .keyword .returnWord
  else if w = ['I', 'G', 'U', 'A', 'L', 'Q', 'U', 'E'] then .relation .eq
  else .identifier

/-- The test for a missing value, as it is written. -/
def missingWord : List Char := ['I', 'S', '-', 'M', 'I', 'S', 'S', 'I', 'N', 'G']

/-- The text begins with the test for a missing value, and not with a longer word. -/
def beginsWithMissing (s : List Char) : Bool :=
  missingWord.isPrefixOf s && !((s.drop missingWord.length).head?.any isWordChar)

/-- How the text `c :: cs` begins: the kind of its first token, or `none` when it begins with
a blank, and how many characters of `cs` belong to that beginning. -/
def first? (c : Char) (cs : List Char) : Option (Option Token.Kind × Nat) :=
  if isSpacing c then some (none, 0)
  else if c = '(' then some (some .leftParen, 0)
  else if c = ')' then some (some .rightParen, 0)
  else if c = '>' then
    if cs.head? = some '=' then some (some (.relation .ge), 1) else some (some (.relation .gt), 0)
  else if c = '<' then
    if cs.head? = some '=' then some (some (.relation .le), 1) else some (some (.relation .lt), 0)
  else if c = '=' then
    if cs.head? = some '=' then some (some (.relation .eq), 1) else none
  else if beginsWithMissing (c :: cs) then some (some .isMissing, missingWord.length - 1)
  else if isNumeral c then some (some .number, (cs.takeWhile isNumeral).length)
  else if isLetter c then
    let tail := cs.takeWhile isWordChar
    some (some (wordKind (c :: tail)), tail.length)
  else none

/-- A character that begins no token, and its place. -/
structure Stuck where
  place : Place
  char : Char
  deriving DecidableEq

/-- The tokens of a text that begins at the place `p`, when its first `skip` characters belong
to a token already found. -/
def scanFrom (p : Place) : (skip : Nat) → List Char → Except Stuck (List Token)
  | _, [] => .ok []
  | skip + 1, c :: cs => scanFrom (p.next c) skip cs
  | 0, c :: cs =>
    match first? c cs with
    | none => .error ⟨p, c⟩
    | some (none, n) => scanFrom (p.next c) n cs
    | some (some kind, n) =>
      match scanFrom (p.next c) n cs with
      | .error e => .error e
      | .ok ts => .ok (.atPlace p kind (String.ofList (c :: cs.take n)) :: ts)

/-- The tokens of a text. -/
def scan (s : String) : Except Stuck (List Token) :=
  scanFrom .start 0 s.toList

end Token

end Verdict
