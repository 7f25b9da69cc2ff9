import Reporting.Schema
import Reporting.Text.Lower
import Reporting.Value

/-!
Cells of delimited text as values of a field's kind. Blanks around a cell do not count, and an empty cell
is missing.
-/

namespace Reporting.Csv
open Text

/-- A truth value in one of the usual words. -/
def readBool? (s : List Char) : Option Bool :=
  match lower (String.ofList s) with
  | "true" => some true
  | "1" => some true
  | "yes" => some true
  | "y" => some true
  | "false" => some false
  | "0" => some false
  | "no" => some false
  | "n" => some false
  | _ => none

/-- The value of a cell that is not empty. The keys that relations hold need not be numbers. -/
def readCell? (kind : FieldKind) (cell : List Char) : Option Value :=
  match kind with
  | .integer => (Decimal.readInt64? cell).map .int
  | .relation =>
    match Decimal.readInt64? cell with
    | some i => some (.int i)
    | none => some (.text (String.ofList cell))
  | .decimal => (Decimal.readFloat? cell).map .float
  | .boolean => (readBool? cell).map .bool
  | .date => (Calendar.readDateChars? cell).map .date
  | .dateTime => (Calendar.readDateTimeChars? cell).map .dateTime
  | .text => some (.text (String.ofList cell))

/-- The value of a cell for a field of the kind. -/
def parseCell (cell : String) (kind : FieldKind) : Except SourceError Value :=
  let trimmed := trimChars cell.toList
  if trimmed.isEmpty then .ok .null
  else
    match readCell? kind trimmed with
    | some v => .ok v
    | none => .error (.parse ("Invalid " ++ kind.name ++ " value: " ++ String.ofList trimmed))

end Reporting.Csv
