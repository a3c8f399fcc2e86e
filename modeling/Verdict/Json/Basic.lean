import Verdict.Number.Basic
import Verdict.Text.Utf8

/-!
# JSON values

`Json` is the type of JSON values, in which the numbers without a fraction and an exponent are
integers and all others are binary numbers. A string may hold surrogates that do not stand in
pairs, and is then no text. The fields of an object are a list; of two fields with the same
name the later one counts.
-/

namespace Verdict

open Text.Utf8 (isSurrogate)

/-- The number is the first half of a pair of surrogates. -/
def isHighSurrogate (n : Nat) : Bool := 0xD800 ≤ n && n < 0xDC00

/-- The number is the second half of a pair of surrogates. -/
def isLowSurrogate (n : Nat) : Bool := 0xDC00 ≤ n && n < 0xE000

/-- The code point of a pair of surrogates. -/
def joinSurrogates (high low : Nat) : Nat :=
  0x10000 + 0x400 * (high - 0xD800) + (low - 0xDC00)

/-- What a JSON string or the name of a field holds. -/
inductive Json.Chars where
  /-- A text. -/
  | text (s : String)
  /-- Code points with surrogates among them. -/
  | broken (codes : List Nat)
  deriving DecidableEq

namespace Json.Chars

instance : Coe String Chars := ⟨.text⟩

/-- The text that a string holds. -/
def text? : Chars → Option String
  | .text s => some s
  | .broken _ => none

/-- The code points of a string. -/
def codes : Chars → List Nat
  | .text s => s.toList.map Char.toNat
  | .broken codes => codes

/-- The text of a string in which every surrogate is replaced by three marks, one for each of
the bytes that a character of its size takes. -/
def shown : Chars → String
  | .text s => s
  | .broken codes =>
    let mark := '\uFFFD'
    String.ofList (codes.flatMap fun n =>
      if isSurrogate n then [mark, mark, mark] else [Char.ofNat n])

/-- The string of the given code points. -/
def ofCodes (codes : List Nat) : Chars :=
  if codes.any isSurrogate then .broken codes
  else .text (String.ofList (codes.map Char.ofNat))

end Json.Chars

/-- A JSON value. -/
inductive Json where
  | null
  | bool (b : Bool)
  | number (n : Number)
  | string (s : Json.Chars)
  | array (items : List Json)
  | object (fields : List (Json.Chars × Json))

namespace Json

/-- A name and a value. -/
abbrev Field := Chars × Json

/-- An integer as a JSON value. -/
def int (n : Int) : Json := .number (.integer n)

/-- A natural number as a JSON value. -/
def nat (n : Nat) : Json := .int n

/-- Texts as a JSON array. -/
def texts (l : List String) : Json := .array (l.map fun s => .string (.text s))

/-- The value of a field in a list of fields. -/
def lookup (fields : List Field) (name : Chars) : Option Json :=
  (fields.reverse.find? (·.1 == name)).map (·.2)

/-- The value of a field of an object. -/
def field? : Json → Chars → Option Json
  | .object fields, name => lookup fields name
  | _, _ => none

/-- A list of fields with a field added, whose value takes the place of an earlier one. -/
def putField (fields : List Field) (field : Field) : List Field :=
  match fields with
  | [] => [field]
  | f :: rest => if f.1 = field.1 then field :: rest else f :: putField rest field

mutual

/-- A value in which every object has each of its fields once, with the value that counts. -/
def settled : Json → Json
  | .array items => .array (settledItems items)
  | .object fields => .object (settledFields fields [])
  | j => j

/-- The items of an array, settled. -/
def settledItems : List Json → List Json
  | [] => []
  | j :: js => j.settled :: settledItems js

/-- Fields added to the fields of an object, settled. -/
def settledFields : List Field → List Field → List Field
  | [], found => found
  | (name, j) :: fields, found => settledFields fields (putField found (name, j.settled))

end

mutual

/-- The arrays and objects of a value have at most the given number of levels. -/
def fits (levels : Nat) : Json → Bool
  | .array items =>
    match levels with
    | 0 => false
    | levels + 1 => itemsFit levels items
  | .object fields =>
    match levels with
    | 0 => false
    | levels + 1 => fieldsFit levels fields
  | _ => true

/-- The items of an array have at most the given number of levels. -/
def itemsFit (levels : Nat) : List Json → Bool
  | [] => true
  | j :: js => j.fits levels && itemsFit levels js

/-- The values of fields have at most the given number of levels. -/
def fieldsFit (levels : Nat) : List Field → Bool
  | [] => true
  | (_, j) :: fields => j.fits levels && fieldsFit levels fields

end

mutual

/-- All integers in a value have few enough digits to be written, and to be read again. -/
def isLegible : Json → Bool
  | .number v => v.isWritable
  | .array items => itemsLegible items
  | .object fields => fieldsLegible fields
  | _ => true

/-- All integers in the items of an array have few enough digits. -/
def itemsLegible : List Json → Bool
  | [] => true
  | j :: js => j.isLegible && itemsLegible js

/-- All integers in the values of fields have few enough digits. -/
def fieldsLegible : List Field → Bool
  | [] => true
  | (_, j) :: fields => j.isLegible && fieldsLegible fields

end

mutual

/-- All numbers in a value are finite. -/
def isFinite : Json → Bool
  | .number (.binary b) => b.value?.isSome
  | .array items => itemsFinite items
  | .object fields => fieldsFinite fields
  | _ => true

/-- All numbers in the items of an array are finite. -/
def itemsFinite : List Json → Bool
  | [] => true
  | j :: js => j.isFinite && itemsFinite js

/-- All numbers in the values of fields are finite. -/
def fieldsFinite : List Field → Bool
  | [] => true
  | (_, j) :: fields => j.isFinite && fieldsFinite fields

end

end Json

end Verdict
