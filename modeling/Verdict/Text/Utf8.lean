import Verdict.Text.Quoted

/-!
# Reading bytes as text, and writing them

`Utf8.decode` reads a sequence of bytes in the encoding UTF-8. A sequence that is not in this
encoding has a first fault: the place of the first byte of the character that cannot be read,
the number of bytes up to the one that rules it out, and the reason.

A sequence of code points with surrogates in it cannot be written in this encoding.
`Utf8.firstSurrogates?` finds those that stand first.
-/

namespace Verdict.Text.Utf8

/-- Why a character cannot be read. -/
inductive Reason where
  | startByte
  | continuationByte
  | endOfData

/-- The wording of a reason. -/
def Reason.text : Reason → String
  | .startByte => "invalid start byte"
  | .continuationByte => "invalid continuation byte"
  | .endOfData => "unexpected end of data"

/-- The first character that cannot be read: its first byte, the position of that byte, and the
number of bytes that agree with the encoding. -/
structure Fault where
  first : UInt8
  position : Nat
  width : Nat
  reason : Reason

/-- The number of bytes that follow the first byte of a character, and the bounds for the
second byte. -/
def following? (b : UInt8) : Option (Nat × UInt8 × UInt8) :=
  if b < 0x80 then some (0, 0x80, 0xBF)
  else if b < 0xC2 then none
  else if b < 0xE0 then some (1, 0x80, 0xBF)
  else if b = 0xE0 then some (2, 0xA0, 0xBF)
  else if b = 0xED then some (2, 0x80, 0x9F)
  else if b < 0xF0 then some (2, 0x80, 0xBF)
  else if b = 0xF0 then some (3, 0x90, 0xBF)
  else if b < 0xF4 then some (3, 0x80, 0xBF)
  else if b = 0xF4 then some (3, 0x80, 0x8F)
  else none

/-- The reason why `bs` does not begin with `count` bytes that continue a character of which
`width` bytes are read, and the number of bytes read until then; the next byte lies between
`low` and `high`. -/
def continuationFault? (width : Nat) (low high : UInt8) :
    (count : Nat) → (bs : List UInt8) → Option (Nat × Reason)
  | 0, _ => none
  | _ + 1, [] => some (width, .endOfData)
  | count + 1, b :: bs =>
    if low ≤ b && b ≤ high then
      continuationFault? (width + 1) 0x80 0xBF count bs
    else
      some (width, .continuationByte)

/-- The first fault of `bs`, whose first byte has the given position, when the first `skip`
bytes belong to a character already read. -/
def firstFault? (position : Nat) : (skip : Nat) → (bs : List UInt8) → Option Fault
  | _, [] => none
  | skip + 1, _ :: bs => firstFault? (position + 1) skip bs
  | 0, b :: bs =>
    match following? b with
    | none => some ⟨b, position, 1, .startByte⟩
    | some (count, low, high) =>
      match continuationFault? 1 low high count bs with
      | some (width, reason) => some ⟨b, position, width, reason⟩
      | none => firstFault? (position + 1) count bs

/-- The wording of a fault. -/
def Fault.message (f : Fault) : String :=
  let bytes :=
    if f.width = 1 then
      "byte 0x" ++ String.ofList (hexDigits 2 f.first.toNat) ++ " in position " ++
        toString f.position
    else
      "bytes in position " ++ toString f.position ++ "-" ++ toString (f.position + f.width - 1)
  "'utf-8' codec can't decode " ++ bytes ++ ": " ++ f.reason.text

/-! ### Writing -/

/-- The number is a surrogate, which is a half of a pair and not a character. -/
def isSurrogate (n : Nat) : Bool := 0xD800 ≤ n && n < 0xE000

/-- Surrogates that follow one another among code points: the position of the first one, that
one itself, and how many they are. -/
structure Surrogates where
  position : Nat
  first : Nat
  count : Nat

/-- The first surrogates among code points, the first of which has the given position. -/
def firstSurrogates? (position : Nat) : List Nat → Option Surrogates
  | [] => none
  | n :: codes =>
    if isSurrogate n then some ⟨position, n, (codes.takeWhile isSurrogate).length + 1⟩
    else firstSurrogates? (position + 1) codes

/-- Why surrogates cannot be written. -/
def Surrogates.message (s : Surrogates) : String :=
  let place :=
    if s.count = 1 then
      "character '" ++ String.ofList (escapeCodePoint s.first) ++ "' in position " ++
        toString s.position
    else
      "characters in position " ++ toString s.position ++ "-" ++
        toString (s.position + s.count - 1)
  "'utf-8' codec can't encode " ++ place ++ ": surrogates not allowed"

/-! ### Reading -/

/-- The text that bytes encode. -/
def decode (bytes : ByteArray) : Except Fault String :=
  match String.fromUTF8? bytes with
  | some s => .ok s
  | none =>
    match firstFault? 0 0 bytes.toList with
    | some f => .error f
    | none => .ok ""

end Verdict.Text.Utf8
