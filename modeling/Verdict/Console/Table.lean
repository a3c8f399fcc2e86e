/-!
# Tables in text

A `Table` has a title, possibly a line of headings, and rows, each of which has a cell for
every column. `Table.lines` draws it with a frame of plus signs, hyphens and bars. A column is
as wide as its widest cell, and the title stands in the middle above the frame.
-/

namespace Verdict.Console

/-- The side of a column at which its cells stand. -/
inductive Side where
  | left
  | right

/-- A column: its side and its cells, the heading included. -/
structure Column where
  side : Side
  cells : List String

/-- A table, given by its columns. -/
structure Table where
  title : String
  /-- Whether the first cell of each column is a heading. -/
  headed : Bool
  /-- Whether a blank stands between the frame and the cells beside it. -/
  padded : Bool
  columns : List Column

/-- A text repeated. -/
def repeated (n : Nat) (c : Char) : String :=
  String.ofList (List.replicate n c)

/-- The number of characters of the widest cell. -/
def Column.width (c : Column) : Nat :=
  c.cells.foldl (fun w s => max w s.length) 0

/-- The cells of a column, each with blanks up to the width of the column. -/
def Column.filled (c : Column) : List String :=
  let width := c.width
  c.cells.map fun cell =>
    let gap := repeated (width - cell.length) ' '
    match c.side with
    | .left => cell ++ gap
    | .right => gap ++ cell

namespace Table

/-- The blank between the frame and the cells beside it. -/
def margin (t : Table) (c : Char) : String :=
  if t.padded then repeated 1 c else ""

/-- The line of a row, within the frame. -/
def rowLine (t : Table) (row : String) : String :=
  "|" ++ t.margin ' ' ++ row ++ t.margin ' ' ++ "|"

/-- The rows, headings included, each with a bar between its cells. -/
def rows (t : Table) : List String :=
  match t.columns.map (·.filled) with
  | [] => []
  | first :: others => others.foldl (List.zipWith fun row cell => row ++ " | " ++ cell) first

/-- The line between the headings and the rows. -/
def ruleLine (t : Table) : String :=
  "|" ++ t.margin '-' ++ String.intercalate "-+-" (t.columns.map fun c => repeated c.width '-')
    ++ t.margin '-' ++ "|"

/-- The number of characters of a line. -/
def width (t : Table) : Nat :=
  t.ruleLine.length

/-- The line at the top and at the bottom of the frame. -/
def edgeLine (t : Table) : String :=
  "+" ++ repeated (t.width - 2) '-' ++ "+"

/-- The line of the title. -/
def titleLine (t : Table) : String :=
  let space := t.width - t.title.length
  repeated (space / 2) ' ' ++ t.title ++ repeated (space - space / 2) ' '

/-- The lines of a table. -/
def lines (t : Table) : List String :=
  let rows := t.rows.map t.rowLine
  let body := if t.headed then rows.take 1 ++ t.ruleLine :: rows.drop 1 else rows
  t.titleLine :: t.edgeLine :: body ++ [t.edgeLine]

end Table

end Verdict.Console
