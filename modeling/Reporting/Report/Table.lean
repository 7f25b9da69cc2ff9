import Reporting.Csv.Writer
import Reporting.Decimal.Fixed
import Reporting.Report.Response
import Reporting.Text.Aligned

/-!
Rows of a report for reading on a screen, and as delimited text. Only visible columns are shown.
-/

namespace Reporting.Report
open Text

/-- A cell on the screen: a dash where there is none, and two places for numbers that may have a fraction. -/
def screenCell : Option Value → String
  | none => "-"
  | some .null => "-"
  | some (.float x) => Decimal.fixed 2 x
  | some v => v.display

/-- The width of a column with a label and cells. It is the most bytes that one of them takes, so columns
with letters beyond the first 128 are wider than need be. -/
def columnWidth (label : String) (cells : List String) : Nat :=
  cells.foldl (fun width cell => max width cell.utf8ByteSize) label.utf8ByteSize

/-- The gap between two columns. -/
def gap : String := " | "

/-- Rows below the labels of their columns. -/
def screenText (columns : List ColumnData) (rows : List Row) : String :=
  if rows.isEmpty then "No data for the selected date range\n"
  else
    let shown := columns.filter ColumnData.visible
    let cell (row : Row) (c : ColumnData) : String := screenCell (row.get? c.name)
    let widths := shown.map fun c => columnWidth c.label (rows.map fun row => cell row c)
    let line (texts : List String) : String := gap.intercalate (widths.zipWith padRight texts)
    let gaps := (widths.length - 1) * gap.length
    lines (line (shown.map ColumnData.label)
      :: dashes (widths.foldl (· + ·) gaps)
      :: rows.map fun row => line (shown.map (cell row)))

/-- A cell of delimited text: nothing where there is none. -/
def plainCell : Option Value → String
  | none => ""
  | some .null => ""
  | some v => v.display

/-- Rows as records below the names of their columns. -/
def delimitedText (columns : List ColumnData) (rows : List Row) : String :=
  let shown := columns.filter ColumnData.visible
  Csv.writeRecord (shown.map ColumnData.name)
    ++ String.join (rows.map fun row =>
      Csv.writeRecord (shown.map fun c => plainCell (row.get? c.name)))

end Reporting.Report
