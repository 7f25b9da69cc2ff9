import Reporting.Calendar.Reader
import Reporting.Calendar.Text
import Reporting.Decimal.Layout
import Reporting.Decimal.Reader
import Reporting.Json.Basic
import Reporting.Keyed

/-!
The cells of tables and reports, and records of them. Cells of different types still compare where
that makes sense: numbers and numeric text by value, dates and points in time by time.
-/

namespace Reporting
open Calendar

/-- A cell. -/
inductive Value where
  | null
  | bool (b : Bool)
  | int (i : Int64)
  | float (x : Float)
  | date (d : Date)
  | dateTime (t : DateTime)
  | text (s : String)
deriving DecidableEq, Inhabited

/-- A row of a table: a cell under each field's name. -/
abbrev Record := Keyed Value

namespace Value

def isNull : Value → Bool
  | null => true
  | _ => false

/-- The number an integer stands for, rounded where it has more than 53 binary digits. -/
def intToFloat (i : Int64) : Float :=
  Float.ofInt i.toInt

/-- The cell as a number; text that reads as a number is one. -/
def toFloat? : Value → Option Float
  | int i => some (intToFloat i)
  | float x => some x
  | bool b => some (if b then 1 else 0)
  | text s => Decimal.readFloat? (Text.trimChars s.toList)
  | _ => none

/-- The cell as a number, zero where it is none. -/
def toFloat (v : Value) : Float :=
  v.toFloat?.getD 0

def text? : Value → Option String
  | text s => some s
  | _ => none

/-- The cell as a point in time; a day begins at midnight. -/
def dateTime? : Value → Option DateTime
  | dateTime t => some t
  | date d => some (DateTime.atMidnight d)
  | _ => none

/-- The text shown for a cell. -/
def display : Value → String
  | null => ""
  | bool b => if b then "true" else "false"
  | int i => toString i.toInt
  | float x => Decimal.text x
  | date d => d.text
  | dateTime t => t.text
  | text s => s

/-- The text under which cells are grouped. Integral numbers have the same key whatever their type. -/
def key : Value → String
  | null => "None"
  | float x =>
    match Decimal.integral? x with
    | some i => if i.natAbs < Nat.pow 2 53 then toString i else Decimal.text x
    | none => Decimal.text x
  | v => v.display

/-- The opposite number; other cells stay. -/
def negate : Value → Value
  | int i => int (-i)
  | float x => float (-x)
  | v => v

/-- The order of two numbers, none with a number that is no number. -/
def orderFloats (x y : Float) : Option Ordering :=
  if x < y then some .lt else if x == y then some .eq else if y < x then some .gt else none

/-- The order of two cells of types that compare; nothing compares with a missing cell. -/
def order? (a b : Value) : Option Ordering :=
  match a, b with
  | null, _ => none
  | _, null => none
  | int a, int b => some (compare a.toInt b.toInt)
  | text a, text b => some (compare a b)
  | bool a, bool b => some (compare a b)
  | date a, date b => some (a.order b)
  | a, b =>
    match a.dateTime?, b.dateTime? with
    | some a, some b => some (a.order b)
    | _, _ =>
      match a.toFloat?, b.toFloat? with
      | some x, some y => orderFloats x y
      | _, _ => none

/-- Equality as filters use it: `1` equals `1.0`, a day equals its midnight, and text equals what has
the same key. -/
def looselyEquals (a b : Value) : Bool :=
  match a, b with
  | null, null => true
  | text a, text b => a == b
  | text _, _ => a.key == b.key
  | _, text _ => a.key == b.key
  | _, _ => a.order? b == some .eq

/-- A string of a data file: a date or a point in time if it is written as one. -/
def ofString (s : String) : Value :=
  match readIsoDate? s with
  | some d => date d
  | none =>
    match readIsoDateTime? s with
    | some t => dateTime t
    | none => text s

/-- The cell with the name of its type, as diagnostics show it. -/
def diagnostic : Value → String
  | null => "Null"
  | bool b => if b then "Bool(true)" else "Bool(false)"
  | int i => "Int(" ++ toString i.toInt ++ ")"
  | float x => "Float(" ++ Decimal.diagnostic.render x ++ ")"
  | date d => "Date(" ++ d.text ++ ")"
  | dateTime t => "DateTime(" ++ t.exactText ++ ")"
  | text s => "Text(" ++ Text.diagnosticQuoted s ++ ")"

/-- The cell in JSON; numbers that JSON cannot write are null. -/
def json : Value → Json
  | null => .null
  | bool b => .bool b
  | int i => .number (toString i.toInt)
  | float x => if x.isNaN || x.isInf then .null else .number (Decimal.json.render x)
  | date d => .string d.text
  | dateTime t => .string t.exactText
  | text s => .string s

end Value

/-- The cell under a name; what is not there is missing. -/
def Record.cell (record : Record) (name : String) : Value :=
  (record.get? name).getD .null

end Reporting
