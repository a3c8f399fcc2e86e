import Verdict.Json.Basic
import Verdict.Text.Quoted

/-!
# The encoding of JSON

The bytes of a JSON value begin with two characters of ASCII, or with one alone. So the places
of the bytes that are zero tell how many bytes a character takes and in which order these
stand. `Encoding.decode?` reads a text, whose bytes are given as a text in UTF-8, in the
encoding that its first bytes tell.
-/

namespace Verdict.Json

open Text.Utf8 (isSurrogate)

/-- The order of the bytes of a number. -/
inductive ByteOrder where
  | big
  | little

/-- How the characters of a text are written as bytes. -/
inductive Encoding where
  | utf8
  | utf16 (order : ByteOrder)
  | utf32 (order : ByteOrder)

namespace Encoding

/-- The encoding of a JSON value with the given bytes at its beginning. -/
def ofBytes : List UInt8 → Encoding
  | [a, b] => if a = 0 then .utf16 .big else if b = 0 then .utf16 .little else .utf8
  | a :: b :: c :: d :: _ =>
    if a = 0 then
      if b = 0 then .utf32 .big else .utf16 .big
    else if b = 0 then
      if c = 0 && d = 0 then .utf32 .little else .utf16 .little
    else
      .utf8
  | _ => .utf8

/-- The number that bytes write. -/
def number (order : ByteOrder) (bytes : List UInt8) : Nat :=
  let bytes :=
    match order with
    | .big => bytes
    | .little => bytes.reverse
  bytes.foldl (fun n b => 256 * n + b.toNat) 0

/-- The numbers that pairs of bytes write. -/
def pairs? (order : ByteOrder) : List UInt8 → Option (List Nat)
  | [] => some []
  | a :: b :: rest => (pairs? order rest).map (number order [a, b] :: ·)
  | _ => none

/-- The numbers that groups of four bytes write, all of which must be code points. -/
def quadruples? (order : ByteOrder) : List UInt8 → Option (List Nat)
  | [] => some []
  | a :: b :: c :: d :: rest =>
    let n := number order [a, b, c, d]
    if n < 0x110000 then (quadruples? order rest).map (n :: ·) else none
  | _ => none

/-- Numbers with the code point of every pair of surrogates in its place. -/
def joinPairs : List Nat → List Nat
  | [] => []
  | [n] => [n]
  | h :: l :: rest =>
    if isHighSurrogate h && isLowSurrogate l then joinSurrogates h l :: joinPairs rest
    else h :: joinPairs (l :: rest)

/-- The characters of code points, with a surrogate written as it is in a JSON string. -/
def charsOf (codes : List Nat) : List Char :=
  codes.flatMap fun n =>
    if isSurrogate n then '\\' :: 'u' :: Text.hexDigits 4 n else [Char.ofNat n]

/-- The characters of a text without the byte order mark at its beginning. -/
def withoutMark (s : List Char) : List Char :=
  match s with
  | '\uFEFF' :: cs => cs
  | cs => cs

/-- The characters of the JSON text whose bytes are those of a text. -/
def decode? (text : String) : Option (List Char) :=
  match ofBytes (String.ofList (text.toList.take 4)).toUTF8.toList with
  | .utf8 => some (withoutMark text.toList)
  | .utf16 order => (pairs? order text.toUTF8.toList).map fun units => charsOf (joinPairs units)
  | .utf32 order => (quadruples? order text.toUTF8.toList).map charsOf

end Encoding

end Verdict.Json
