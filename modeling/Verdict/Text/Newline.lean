/-!
# Line breaks

A text file may end its lines with a line feed, a carriage return, or both in that order.
`unifyNewlines` writes each of these as a line feed.
-/

namespace Verdict.Text

/-- The text with a line feed for each of its line breaks. -/
def unifyNewlines : List Char → List Char
  | [] => []
  | '\r' :: '\n' :: cs => '\n' :: unifyNewlines cs
  | c :: cs => (if c = '\r' then '\n' else c) :: unifyNewlines cs

end Verdict.Text
