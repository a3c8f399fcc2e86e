import Verdict.Json.Basic
import Verdict.Number.Decimal
import Verdict.Token.Lexer

/-!
# Reading JSON

`Json.read` reads a JSON value from a text. Besides the numbers of JSON it reads the names of
the infinities and of the value that is no number. A text may fail in three ways: it may not be
JSON, it may hold an integer with more digits than are read, or its arrays and objects may be
nested in more levels than `Json.readWithin` allows. `Json.read` allows any number of levels.
-/

namespace Verdict.Json

/-- Why a text is not read as a JSON value. -/
inductive Fault where
  /-- The text is not JSON. -/
  | malformed
  /-- An integer cannot be read. -/
  | integer (f : Integer.Fault)
  /-- The arrays and objects have too many levels. -/
  | deep

/-- The value of a hexadecimal digit. -/
def hexValue? (c : Char) : Option Nat :=
  if '0' ≤ c && c ≤ '9' then some (c.toNat - '0'.toNat)
  else if 'a' ≤ c && c ≤ 'f' then some (c.toNat - 'a'.toNat + 10)
  else if 'A' ≤ c && c ≤ 'F' then some (c.toNat - 'A'.toNat + 10)
  else none

/-- The number that four hexadecimal digits write. -/
def hexNumber? (a b c d : Char) : Option Nat := do
  return 4096 * (← hexValue? a) + 256 * (← hexValue? b) + 16 * (← hexValue? c) + (← hexValue? d)

/-- The character that a letter after a backslash stands for. -/
def escaped? : Char → Option Char
  | '"' => some '"'
  | '\\' => some '\\'
  | '/' => some '/'
  | 'b' => some '\x08'
  | 'f' => some '\x0c'
  | 'n' => some '\n'
  | 'r' => some '\r'
  | 't' => some '\t'
  | _ => none

/-- The code points `found` of a string, the last one first, with one more that was written as
a number. It makes a pair with the last one when `afterHigh` tells that this was written as a
number too and is the first half of a pair. -/
def addEscaped (afterHigh : Bool) (n : Nat) : List Nat → List Nat
  | [] => [n]
  | last :: found =>
    if afterHigh && isLowSurrogate n then joinSurrogates last n :: found else n :: last :: found

/-- The rest of a string, of which `found` has been read, the last code point first, and what
follows its closing mark; `afterHigh` tells that the last code point was written as a number
and is the first half of a pair. -/
def readString (afterHigh : Bool) (found : List Nat) : List Char → Option (Chars × List Char)
  | [] => none
  | '\\' :: 'u' :: a :: b :: c :: d :: cs =>
    match hexNumber? a b c d with
    | none => none
    | some n => readString (isHighSurrogate n) (addEscaped afterHigh n found) cs
  | '\\' :: c :: cs =>
    match escaped? c with
    | none => none
    | some e => readString false (e.toNat :: found) cs
  | c :: cs =>
    if c = '"' then some (.ofCodes found.reverse, cs)
    else if c = '\\' || c.toNat < 0x20 then none
    else readString false (c.toNat :: found) cs

/-- The digits at the beginning of a text that must follow a sign of the given characters, and
what follows them; nothing when there is no digit. -/
def takeDigits (sign : List Char) (s : List Char) : List Char × List Char :=
  match s.takeWhile isNumeral with
  | [] => ([], s)
  | digits => (sign ++ digits, s.dropWhile isNumeral)

/-- The point and the digits of a number, and what follows them. -/
def splitFraction : List Char → List Char × List Char
  | '.' :: cs =>
    match takeDigits ['.'] cs with
    | ([], _) => ([], '.' :: cs)
    | r => r
  | cs => ([], cs)

/-- The exponent of a number, and what follows it. -/
def splitExponent (s : List Char) : List Char × List Char :=
  match s with
  | [] => ([], [])
  | e :: cs =>
    if e = 'e' || e = 'E' then
      let r :=
        match cs with
        | [] => ([], [])
        | sign :: ds =>
          if sign = '+' || sign = '-' then takeDigits [e, sign] ds else takeDigits [e] cs
      if r.1.isEmpty then ([], s) else r
    else
      ([], s)

/-- The digits in front of the point of a number, and what follows them. A zero stands
alone. -/
def splitWhole : List Char → List Char × List Char
  | '0' :: cs => (['0'], cs)
  | cs => takeDigits [] cs

/-- The words that are read as numbers, with their values. -/
def words : List (List Char × Json) :=
  [("null".toList, .null), ("true".toList, .bool true), ("false".toList, .bool false),
   ("NaN".toList, .number (.binary .nan)),
   ("Infinity".toList, .number (.binary (.infinite false))),
   ("-Infinity".toList, .number (.binary (.infinite true)))]

/-- A number at the beginning of a text, and what follows it. -/
def readNumber (s : List Char) : Except Fault (Json × List Char) :=
  let (sign, body) :=
    match s with
    | '-' :: cs => (['-'], cs)
    | cs => ([], cs)
  let (whole, rest) := splitWhole body
  let (fraction, rest) := splitFraction rest
  let (exponent, rest) := splitExponent rest
  if whole.isEmpty then
    .error .malformed
  else if fraction.isEmpty && exponent.isEmpty then
    match Integer.read (String.ofList (sign ++ whole)) with
    | .error f => .error (.integer f)
    | .ok n => .ok (.int n, rest)
  else
    match Decimal.read? (sign ++ whole ++ fraction ++ exponent) with
    | none => .error .malformed
    | some d => .ok (.number (.binary d.toBinary), rest)

/-- A word or a number at the beginning of a text, and what follows it. -/
def readPlain (s : List Char) : Except Fault (Json × List Char) :=
  match words.find? fun w => w.1.isPrefixOf s with
  | some (w, j) => .ok (j, s.drop w.length)
  | none => readNumber s

/-- A text without the blanks at its beginning. -/
def skipSpace (s : List Char) : List Char :=
  s.dropWhile isSpacing

mutual

/-- A value at the beginning of a text, and what follows it; `levels` bounds the levels of its
arrays and objects, and `fuel` the length of the text. -/
def readValue (levels : Nat) : (fuel : Nat) → List Char → Except Fault (Json × List Char)
  | 0, _ => .error .malformed
  | fuel + 1, s =>
    match s, levels with
    | '"' :: cs, _ =>
      match readString false [] cs with
      | none => .error .malformed
      | some (chars, rest) => .ok (.string chars, rest)
    | '[' :: _, 0 => .error .deep
    | '[' :: cs, levels + 1 =>
      match skipSpace cs with
      | ']' :: rest => .ok (.array [], rest)
      | cs =>
        match readItems levels fuel cs with
        | .error f => .error f
        | .ok (items, rest) => .ok (.array items, rest)
    | '\x7b' :: _, 0 => .error .deep
    | '\x7b' :: cs, levels + 1 =>
      match skipSpace cs with
      | '\x7d' :: rest => .ok (.object [], rest)
      | cs =>
        match readFields levels fuel cs with
        | .error f => .error f
        | .ok (fields, rest) => .ok (.object fields, rest)
    | s, _ => readPlain s

/-- The items of an array up to its closing bracket, and what follows it. -/
def readItems (levels : Nat) :
    (fuel : Nat) → List Char → Except Fault (List Json × List Char)
  | 0, _ => .error .malformed
  | fuel + 1, s =>
    match readValue levels fuel s with
    | .error f => .error f
    | .ok (item, rest) =>
      match skipSpace rest with
      | ',' :: rest =>
        match readItems levels fuel (skipSpace rest) with
        | .error f => .error f
        | .ok (items, rest) => .ok (item :: items, rest)
      | ']' :: rest => .ok ([item], rest)
      | _ => .error .malformed

/-- The fields of an object up to its closing brace, and what follows it. -/
def readFields (levels : Nat) :
    (fuel : Nat) → List Char → Except Fault (List Field × List Char)
  | 0, _ => .error .malformed
  | fuel + 1, s =>
    match s with
    | '"' :: cs =>
      match readString false [] cs with
      | none => .error .malformed
      | some (name, rest) =>
        match skipSpace rest with
        | ':' :: rest =>
          match readValue levels fuel (skipSpace rest) with
          | .error f => .error f
          | .ok (value, rest) =>
            match skipSpace rest with
            | ',' :: rest =>
              match readFields levels fuel (skipSpace rest) with
              | .error f => .error f
              | .ok (fields, rest) => .ok ((name, value) :: fields, rest)
            | '\x7d' :: rest => .ok ([(name, value)], rest)
            | _ => .error .malformed
        | _ => .error .malformed
    | _ => .error .malformed

end

/-- The JSON value that a text writes, with at most the given number of levels. -/
def readWithin (levels : Nat) (s : List Char) : Except Fault Json :=
  match readValue levels (2 * s.length + 2) (skipSpace s) with
  | .error f => .error f
  | .ok (j, rest) => if (skipSpace rest).isEmpty then .ok j else .error .malformed

/-- The JSON value that a text writes. Every level of a value takes a character. -/
def read (text : String) : Except Fault Json :=
  readWithin text.length text.toList

end Verdict.Json
