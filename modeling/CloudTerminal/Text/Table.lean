import CloudTerminal.Text.Blank

/-!
Tables as text: cells aligned to the left in columns as wide as their widest cell, two spaces between
columns, blanks at the end of a line removed. Widths count characters, and rows may be shorter or longer
than the headers.
-/

namespace CloudTerminal.Text

/-- The gap between two columns. -/
def columnGap : List Char := [' ', ' ']

/-- The cell, filled up with spaces on the right to the width. -/
def padTo (width : Nat) (cell : List Char) : List Char :=
  cell ++ List.replicate (width - cell.length) ' '

/-- The column widths after a row is added: each the larger of the two, and the longer row's own ones. -/
def widen : List Nat → List (List Char) → List Nat
  | widths, [] => widths
  | [], cell :: cells => cell.length :: widen [] cells
  | width :: widths, cell :: cells => max width cell.length :: widen widths cells

/-- The width of every column of a table. -/
def columnWidths (rows : List (List (List Char))) : List Nat := rows.foldl widen []

/-- One line of a table: the row's cells, each padded to its column. -/
def tableLine (widths : List Nat) (row : List (List Char)) : List Char :=
  trimEnd isBlank (columnGap.intercalate (List.zipWith padTo widths row))

/-- The lines of a table, the headers first. -/
def tableLines (headers : List (List Char)) (rows : List (List (List Char))) : List (List Char) :=
  (headers :: rows).map (tableLine (columnWidths (headers :: rows)))

/-- `render_table`, a table as text: its lines joined by line feeds. -/
def renderTable (headers : List String) (rows : List (List String)) : String :=
  "\n".intercalate
    ((tableLines (headers.map (·.toList)) (rows.map (·.map (·.toList)))).map String.ofList)

end CloudTerminal.Text
