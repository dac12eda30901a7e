import PipelineUpkeep.Text.Blank
import PipelineUpkeep.Text.CellWidth
/-!
# Tables in boxes

A table with a header, drawn with box characters and round corners.  A column is
as wide as its widest line, with one space on both sides; a line break in a cell
makes a further line in its row.
-/

namespace PipelineUpkeep.Screen

open Text

structure BoxTable where
  header : List String
  rows : List (List String)

namespace BoxTable

/-- The lines of a cell. -/
def cellLines (cell : String) : List (List Char) :=
  cell.toList.splitOn '\n'

/-- The width of a cell is that of its widest line. -/
def cellCells (cell : String) : Nat :=
  ((cellLines cell).map cellWidth).foldl max 0

/-- The widths of the columns that two rows need. -/
def mergeWidths : List Nat → List Nat → List Nat
  | [], widths => widths
  | widths, [] => widths
  | a :: as, b :: bs => max a b :: mergeWidths as bs

/-- The widths of the columns. -/
def widths (table : BoxTable) : List Nat :=
  (table.header :: table.rows).foldl (fun widths row => mergeWidths widths (row.map cellCells)) []

/-- A line between rows or at an edge. -/
def rule (left fill cross right : Char) (widths : List Nat) : List Char :=
  left :: [cross].intercalate (widths.map fun width => List.replicate (width + 2) fill) ++ [right]

/-- A line of a cell with spaces up to the width of its column. -/
def padLine (width : Nat) (line : List Char) : List Char :=
  ' ' :: line ++ List.replicate (width - cellWidth line) ' ' ++ [' ']

/-- The lines of a row. -/
def rowLines (widths : List Nat) (row : List String) : List (List Char) :=
  let cells := row.map cellLines
  let height := (cells.map List.length).foldl max 0
  (List.range height).map fun i =>
    '│' :: ['┆'].intercalate ((widths.zip cells).map fun (width, lines) =>
      padLine width (lines[i]?.getD [])) ++ ['│']

/-- The rows, with a rule between each two of them. -/
def bodyLines (widths : List Nat) : List (List String) → List (List Char)
  | [] => []
  | [row] => rowLines widths row
  | row :: rows => rowLines widths row ++ rule '├' '╌' '┼' '┤' widths :: bodyLines widths rows

/-- All lines of a table. -/
def lines (table : BoxTable) : List (List Char) :=
  let widths := table.widths
  [rule '╭' '─' '┬' '╮' widths] ++ rowLines widths table.header ++
    [rule '╞' '═' '╪' '╡' widths] ++ bodyLines widths table.rows ++
    [rule '╰' '─' '┴' '╯' widths]

/-- A table as one text without a line break at its end. -/
def toText (table : BoxTable) : String :=
  String.ofList (['\n'].intercalate table.lines)

end BoxTable

end PipelineUpkeep.Screen
