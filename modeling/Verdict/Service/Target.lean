import Verdict.Json.Reader

/-!
# The target of a request

A request names its target by a reference: a path with an optional scheme and host in front of
it and an optional query behind it. `Target.ofReference` takes the path from a reference, as
seen from the root of the service: segments that stand for the current or the enclosing place
are carried out, and characters written as `%` and two hexadecimal digits are decoded, once by
the sender and once by the receiver of the request.
-/

namespace Verdict.Service

/-- Why a reference has no path. -/
inductive Target.Fault where
  /-- The reference has too many characters. -/
  | tooLong
  /-- A character of ASCII has no visible form. -/
  | unprintable (c : Char) (position : Nat)
  /-- The path begins with two slashes. -/
  | doubleSlash
  /-- The path begins with a colon. -/
  | colon

/-- The wording of a fault. -/
def Target.Fault.message : Fault → String
  | .tooLong => "URL too long"
  | .unprintable c position =>
    "Invalid non-printable ASCII character in URL, " ++ Text.quoteChar c ++ " at position " ++
      toString position ++ "."
  | .doubleSlash => "Relative URLs cannot have a path starting with '//'"
  | .colon => "Relative URLs cannot have a path starting with ':'"

namespace Target

/-! ### The parts of a reference -/

/-- The parts of a reference: whether it has a scheme, what stands between two slashes and the
path, and the path. -/
structure Parts where
  hasScheme : Bool
  authority : List Char
  path : List Char

/-- The authority of a reference is more than its signs. -/
def Parts.hasAuthority (p : Parts) : Bool :=
  p.authority.any fun c => c != '@' && c != ':'

/-- The authority of a reference has a host, which stands behind the name of a user. -/
def Parts.hasHost (p : Parts) : Bool :=
  let host :=
    match p.authority.dropWhile (· != '@') with
    | [] => p.authority
    | _ :: host => host
  host.head?.any fun c => c != '@' && c != ':'

/-- The character may stand in a scheme behind its first letter. -/
def isSchemeChar (c : Char) : Bool :=
  isLetter c || isNumeral c || c == '+' || c == '.' || c == '-'

/-- Whether a reference has a scheme, and what follows the colon behind it. -/
def splitScheme (s : List Char) : Bool × List Char :=
  let scheme := s.takeWhile isSchemeChar
  match s.dropWhile isSchemeChar with
  | ':' :: rest =>
    match scheme with
    | [] => (false, rest)
    | c :: _ => if isLetter c then (true, rest) else (false, s)
  | _ => (false, s)

/-- The authority of a reference without its scheme, and what follows it. -/
def splitAuthority (s : List Char) : List Char × List Char :=
  let inAuthority := fun c => c != '/' && c != '?' && c != '#'
  match s with
  | '/' :: '/' :: rest => (rest.takeWhile inAuthority, rest.dropWhile inAuthority)
  | s => ([], s)

/-- The parts of a reference. -/
def Parts.ofChars (s : List Char) : Parts :=
  let (hasScheme, s) := splitScheme s
  let (authority, s) := splitAuthority s
  ⟨hasScheme, authority, s.takeWhile fun c => c != '?' && c != '#'⟩

/-! ### Paths -/

/-- The segments `found` of a path, the last one first, with one more carried out: a point
stands for the place itself, and two points for the one around it. -/
def addSegment (found : List (List Char)) (segment : List Char) : List (List Char) :=
  if segment = ['.'] then found
  else if segment = ['.', '.'] then
    if found = [[]] then found else found.tail
  else segment :: found

/-- A path with its segments carried out. -/
def normalize (path : List Char) : List Char :=
  let segments := (path.splitOnP (· == '/')).foldl addSegment []
  List.intercalate ['/'] segments.reverse

/-- Bytes with every `%` and the two hexadecimal digits behind it in the place of a byte. -/
def decodePercents : List UInt8 → List UInt8
  | [] => []
  | p :: a :: b :: rest =>
    match Json.hexValue? (Char.ofUInt8 a), Json.hexValue? (Char.ofUInt8 b) with
    | some m, some n =>
      if p = 0x25 then (16 * m + n).toUInt8 :: decodePercents rest
      else p :: decodePercents (a :: b :: rest)
    | _, _ => p :: decodePercents (a :: b :: rest)
  | b :: rest => b :: decodePercents rest

/-- The path of a reference from the root of the service. A scheme and a host together make
the path count as it is; otherwise it is taken from the root, whatever slashes precede it. -/
def Parts.fromRoot (p : Parts) : List Char :=
  let path := if p.hasScheme || p.hasAuthority then normalize p.path else p.path
  if p.hasScheme && p.hasHost then path
  else normalize ('/' :: path.dropWhile (· == '/'))

/-- The first character of ASCII without a visible form, and its position. -/
def firstUnprintable? (position : Nat) : List Char → Option (Char × Nat)
  | [] => none
  | c :: cs =>
    if c.toNat < 0x20 || c.toNat = 0x7F then some (c, position)
    else firstUnprintable? (position + 1) cs

/-- The greatest number of characters of a reference. -/
def maxLength : Nat := 65536

/-- The bytes of the path of a reference, decoded twice. -/
def ofReference (reference : String) : Except Fault (List UInt8) :=
  if maxLength < reference.length then
    .error .tooLong
  else
    match firstUnprintable? 0 reference.toList with
    | some (c, position) => .error (.unprintable c position)
    | none =>
      let p := Parts.ofChars reference.toList
      let bare := !p.hasScheme && !p.hasAuthority
      if bare && ['/', '/'].isPrefixOf p.path then .error .doubleSlash
      else if bare && [':'].isPrefixOf p.path then .error .colon
      else .ok (decodePercents (decodePercents (String.ofList p.fromRoot).toUTF8.toList))

end Target

end Verdict.Service
