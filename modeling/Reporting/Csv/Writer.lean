/-!
Writing delimited text. A cell is put into quotes where it could not be read back without them, and a
quote inside is written twice. A record without any character is written as an empty cell in quotes, since
an empty line is no record.
-/

namespace Reporting.Csv

/-- Characters that a cell without quotes cannot hold. -/
def needsQuotes (c : Char) : Bool :=
  c == ',' || c == '"' || c == '\n' || c == '\r'

/-- The characters with each quote twice. -/
def doubleQuotes : List Char → List Char
  | [] => []
  | c :: rest => if c = '"' then '"' :: '"' :: doubleQuotes rest else c :: doubleQuotes rest

/-- A cell of a record. -/
def writeCell (cell : String) : String :=
  if cell.toList.any needsQuotes then String.ofList ('"' :: (doubleQuotes cell.toList ++ ['"'])) else cell

/-- The cells with commas between them, as a line. -/
def writeRecord (cells : List String) : String :=
  let line := String.intercalate "," (cells.map writeCell)
  (if line.isEmpty then "\"\"" else line) ++ "\n"

end Reporting.Csv
