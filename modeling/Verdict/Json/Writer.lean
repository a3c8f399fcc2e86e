import Verdict.Json.Basic
import Verdict.Text.Quoted

/-!
# Writing JSON

`Json.text` writes a JSON value without blanks. In a string the quotation mark, the backslash
and the control characters are escaped. A value is first written as the pieces of its text, so
that a surrogate which stands alone keeps its place.
-/

namespace Verdict.Json

open Text.Utf8 (isSurrogate)

/-- A character as it stands in a string. -/
def escapeChar (c : Char) : List Char :=
  if c = '"' then ['\\', '"']
  else if c = '\\' then ['\\', '\\']
  else if c = '\n' then ['\\', 'n']
  else if c = '\r' then ['\\', 'r']
  else if c = '\t' then ['\\', 't']
  else if c = '\x08' then ['\\', 'b']
  else if c = '\x0c' then ['\\', 'f']
  else if c.toNat < 0x20 then '\\' :: 'u' :: Text.hexDigits 4 c.toNat
  else [c]

/-- A code point as it stands in a string. -/
def escapeCode (n : Nat) : List Nat :=
  if isSurrogate n then [n] else (escapeChar (Char.ofNat n)).map Char.toNat

/-- What stands between the marks of a string. -/
def Chars.escaped : Chars → Chars
  | .text s => .text (String.ofList (s.toList.flatMap escapeChar))
  | .broken codes => .broken (codes.flatMap escapeCode)

/-- The pieces of a string with its marks, in front of other pieces. -/
def Chars.addPieces (s : Chars) (rest : List Chars) : List Chars :=
  .text "\"" :: s.escaped :: .text "\"" :: rest

mutual

/-- The pieces of the text of a value, in front of other pieces. -/
def addPieces (rest : List Chars) : Json → List Chars
  | .null => .text "null" :: rest
  | .bool b => .text (if b then "true" else "false") :: rest
  | .number (.integer n) => .text (toString n) :: rest
  | .number (.binary b) => .text b.text :: rest
  | .string s => s.addPieces rest
  | .array [] => .text "[]" :: rest
  | .array (j :: js) => .text "[" :: j.addPieces (addItems (.text "]" :: rest) js)
  | .object [] => .text "\x7b\x7d" :: rest
  | .object ((name, j) :: fields) =>
    .text "\x7b" :: name.addPieces
      (.text ":" :: j.addPieces (addFields (.text "\x7d" :: rest) fields))

/-- The pieces of the items of an array behind the first one, in front of other pieces. -/
def addItems (rest : List Chars) : List Json → List Chars
  | [] => rest
  | j :: js => .text "," :: j.addPieces (addItems rest js)

/-- The pieces of the fields of an object behind the first one, in front of other pieces. -/
def addFields (rest : List Chars) : List Field → List Chars
  | [] => rest
  | (name, j) :: fields =>
    .text "," :: name.addPieces (.text ":" :: j.addPieces (addFields rest fields))

end

/-- The code points of the text of a value. -/
def codes (j : Json) : List Nat :=
  (j.addPieces []).flatMap Chars.codes

/-- The text of a value. -/
def text (j : Json) : String :=
  String.join ((j.addPieces []).map Chars.shown)

end Verdict.Json
