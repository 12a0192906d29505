import Phrasebook.Text.Width

namespace Phrasebook.Grid

/-- The lines of a cell. -/
def cellLines (cell : String) : List String :=
  (cell.toList.splitOn '\n').map String.ofList

def cellWidth (cell : String) : Nat :=
  ((cellLines cell).map Text.width).foldl max 0

/-- The widths of the columns. -/
def columnWidths : List (List String) → List Nat
  | [] => []
  | row :: rows => widen (row.map cellWidth) (columnWidths rows)
where
  /-- The greater of two widths, column by column. -/
  widen : List Nat → List Nat → List Nat
    | [], ws => ws
    | ws, [] => ws
    | v :: vs, w :: ws => max v w :: widen vs ws

def blanks (n : Nat) : String := String.ofList (List.replicate n ' ')

/-- A line of a cell, filled up to the width of its column. -/
def padded (width : Nat) (line : String) : String :=
  " " ++ line ++ blanks (width - Text.width line) ++ " "

/-- The lines of a row; cells with fewer lines than others are filled up with blank ones. -/
def rowLines (widths : List Nat) (row : List String) : List String :=
  let cells := row.map cellLines
  let height := (cells.map List.length).foldl max 0
  (List.range height).map fun i =>
    let line := List.zipWith (fun width cell => padded width (cell.getD i "")) widths cells
    "│" ++ String.intercalate " " line ++ "│"

/-- A horizontal rule over the whole table. -/
def rule (widths : List Nat) (left middle right : Char) : String :=
  let inner := widths.foldl (fun columns width => columns + width + 2) (widths.length - 1)
  String.ofList (left :: List.replicate inner middle ++ [right])

/-- The table of a header and rows. -/
def render (header : List String) (rows : List (List String)) : String :=
  let widths := columnWidths (header :: rows)
  String.intercalate "\n"
    (rule widths '┌' '─' '┐' :: rowLines widths header ++ [rule widths '╞' '═' '╡']
      ++ rows.flatMap (rowLines widths) ++ [rule widths '└' '─' '┘'])

end Phrasebook.Grid
