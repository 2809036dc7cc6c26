import SessionGuard.Text.Trim
import SessionGuard.Text.Width

/-!
# Tables

Rows of cells in a frame with round corners, the headings set off by a line.  A cell may have
several lines; each column is as wide as its widest line, with a blank on both sides.
-/

namespace SessionGuard.Text.Table

/-- The lines of a cell. -/
def lines (cell : String) : List String := (splitAt '\n' cell.toList).map String.ofList

/-- The columns a cell needs. -/
def cellWidth (cell : String) : Nat := ((lines cell).map width).foldl max 0

/-- The width of each column of a table. -/
def columnWidths (rows : List (List String)) : List Nat :=
  rows.foldl (fun widths row =>
    let cells := row.map cellWidth
    let count := max widths.length cells.length
    (List.range count).map fun i => max (widths.getD i 0) (cells.getD i 0)) []

/-- A line of the frame. -/
def rule (left middle right : String) (widths : List Nat) : String :=
  left ++ middle.intercalate (widths.map fun w => String.ofList (List.replicate (w + 2) '─'))
    ++ right

/-- A line of text, filled up to a width. -/
def fill (w : Nat) (line : String) : String :=
  " " ++ line ++ String.ofList (List.replicate (w - width line) ' ') ++ " "

/-- The lines of a row, as many as its tallest cell has. -/
def rowLines (widths : List Nat) (row : List String) : List String :=
  let cells := row.map lines
  let height := (cells.map List.length).foldl max 0
  (List.range height).map fun i =>
    "│" ++ "│".intercalate ((widths.zip cells).map fun (w, cell) => fill w (cell.getD i ""))
      ++ "│"

/-- A table with headings; `empty` where there are no rows. -/
def render (headings : List String) (rows : List (List String)) (empty : String) : String :=
  if rows.isEmpty then empty
  else
    let widths := columnWidths (headings :: rows)
    "\n".intercalate <|
      [rule "╭" "┬" "╮" widths] ++ rowLines widths headings ++ [rule "├" "┼" "┤" widths]
        ++ rows.flatMap (rowLines widths) ++ [rule "╰" "┴" "╯" widths]

end SessionGuard.Text.Table
