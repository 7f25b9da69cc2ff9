import Reporting.Calendar.Reader
import Reporting.Calendar.Text
import Reporting.Decimal.Layout
import Reporting.Decimal.Reader
import Reporting.Schema
import Reporting.Value

/-!
The cells of a database. A column's affinity says which of the storage classes its cells prefer; a cell
that can be brought into that class without loss is, others stay as they are.
-/

namespace Reporting.Sql
open Text

/-- A stored cell. -/
inductive Cell where
  | null
  | integer (i : Int64)
  | real (x : Float)
  | text (s : String)
deriving DecidableEq, Inhabited

/-- The storage class that a column prefers. -/
inductive Affinity where
  | integer
  | real
  | text
deriving DecidableEq, Repr

/-- The affinity of the column for a field. -/
def Affinity.ofKind : FieldKind → Affinity
  | .integer => integer
  | .relation => integer
  | .boolean => integer
  | .decimal => real
  | .text => text
  | .date => text
  | .dateTime => text

/-- The type with which a column is declared. -/
def Affinity.sqlType : Affinity → String
  | integer => "INTEGER"
  | real => "REAL"
  | text => "TEXT"

/-- The blanks that may stand around a number: those of ASCII. -/
def isSpace (c : Char) : Bool :=
  c == ' ' || (9 ≤ c.toNat && c.toNat ≤ 13)

/-- The number at the beginning of a text, and what follows it. An exponent counts only with digits. -/
def readNumber? (s : List Char) : Option (Cell × List Char) :=
  let s := s.dropWhile isSpace
  let (negative, s) := Decimal.splitSign s
  let whole := s.takeWhile Char.isDigit
  let rest := s.dropWhile Char.isDigit
  let (pointed, places, rest) :=
    match rest with
    | '.' :: rest => (true, rest.takeWhile Char.isDigit, rest.dropWhile Char.isDigit)
    | _ => (false, [], rest)
  if whole.isEmpty && places.isEmpty then none
  else
    let (exponent, rest) : Option Int × List Char :=
      match rest with
      | c :: after =>
        if c = 'e' ∨ c = 'E' then
          let (down, digits) := Decimal.splitSign after
          let power := digits.takeWhile Char.isDigit
          if power.isEmpty then (none, rest)
          else
            let n : Int := runValue power
            (some (if down then -n else n), digits.dropWhile Char.isDigit)
        else (none, rest)
      | [] => (none, rest)
    let digits := runValue (whole ++ places)
    let signed : Int := if negative then -digits else digits
    let asReal : Float :=
      let x := Decimal.nearest digits (exponent.getD 0 - places.length)
      if negative then -x else x
    if !pointed && exponent.isNone && Decimal.fitsInt64 signed then
      some (.integer (Int64.ofInt signed), rest)
    else some (.real asReal, rest)

/-- The number that a text is as a whole, but for blanks around it. -/
def numeric? (s : String) : Option Cell :=
  match readNumber? s.toList with
  | some (n, rest) => if rest.all isSpace then some n else none
  | none => none

/-- An integral number is kept as an integer where one can hold it. -/
def integralReal (x : Float) : Cell :=
  match Decimal.integral? x with
  | some i => if Int64.minValue.toInt < i ∧ i < Int64.maxValue.toInt then .integer (Int64.ofInt i) else .real x
  | none => .real x

/-- Fifteen digits at most, of which trailing zeros are left out, and always a point; from `10 ^ 15` on
and below `10 ^ -4` with a signed exponent of two digits. Zero has no sign. -/
def realText (x : Float) : String :=
  if x.isNaN then "NaN"
  else
    let bits := x.toBits
    let negative := x < 0
    let magnitude : List Char :=
      if x.isInf then ['I', 'n', 'f']
      else
        let b := Decimal.Binary.ofBits bits
        if b.mantissa = 0 then ['0', '.', '0']
        else
          let grid := b.scale - 15
          let below := b.floorAt grid
          let digits :=
            if Decimal.compareScaled (2 * below + 1) grid b.mantissa (b.exponent + 1) == .gt then below
            else below + 1
          let d := Decimal.Scaled.strip 20 ⟨digits, grid⟩
          let ds := digitsOf d.digits
          let lead := (ds.length : Int) - 1 + d.exponent
          if lead < -4 ∨ 14 < lead then
            let rest := if ds.length ≤ 1 then ['0'] else ds.drop 1
            ds.take 1 ++ '.' :: rest ++
              'e' :: (if lead < 0 then '-' else '+') :: padded 2 lead.natAbs
          else
            let layout : Decimal.Layout := { Decimal.plain with pointZero := true }
            layout.positionalText ds d.exponent
    String.ofList (if negative then '-' :: magnitude else magnitude)

namespace Cell

def isNull : Cell → Bool
  | null => true
  | _ => false

/-- A number as text; other cells stay. -/
def toText : Cell → Cell
  | integer i => text (toString i.toInt)
  | real x => text (realText x)
  | c => c

/-- A text that is a number as that number; other cells stay. -/
def toNumber : Cell → Cell
  | text s => (numeric? s).getD (text s)
  | c => c

/-- The cell as a column of the affinity keeps it. -/
def store (affinity : Affinity) (c : Cell) : Cell :=
  match affinity with
  | .text => c.toText
  | .integer =>
    match c.toNumber with
    | real x => integralReal x
    | c => c
  | .real =>
    match c.toNumber with
    | integer i => real (Value.intToFloat i)
    | real x => if x == 0 then real 0 else real x
    | c => c

/-- The cell as it is compared with a column of the affinity. -/
def adapt (affinity : Affinity) (c : Cell) : Cell :=
  match affinity with
  | .text => c.toText
  | _ => c.toNumber

/-- The exact order of an integer and a real number. -/
def orderIntegerReal (i : Int) (x : Float) : Ordering :=
  if x.isInf then if x < 0 then .gt else .lt
  else
    let b := Decimal.Binary.ofBits x.toBits
    let m : Int := if x < 0 then -b.mantissa else b.mantissa
    compare (i * (Nat.pow 2 (-b.exponent).toNat : Nat)) (m * (Nat.pow 2 b.exponent.toNat : Nat))

/-- The order of real numbers; none of them is stored unless it is a number. -/
def orderReals (x y : Float) : Ordering :=
  if x < y then .lt else if y < x then .gt else .eq

/-- Missing cells come first, then numbers by value, then texts by their characters. -/
def order : Cell → Cell → Ordering
  | null, null => .eq
  | null, _ => .lt
  | _, null => .gt
  | integer a, integer b => compare a.toInt b.toInt
  | integer a, real b => orderIntegerReal a.toInt b
  | real a, integer b => (orderIntegerReal b.toInt a).swap
  | real a, real b => orderReals a b
  | integer _, text _ => .lt
  | real _, text _ => .lt
  | text _, integer _ => .gt
  | text _, real _ => .gt
  | text a, text b => compare a b

/-- The number taken for a cell in a sum: of a text, the number at its beginning. -/
def summand : Cell → Cell
  | text s =>
    match numeric? s with
    | some n => n
    | none =>
      match readNumber? s.toList with
      | some (integer i, _) => real (Value.intToFloat i)
      | some (n, _) => n
      | none => real 0
  | c => c

/-- The cell as a real number; zero for what is none. -/
def toFloat : Cell → Float
  | integer i => Value.intToFloat i
  | real x => x
  | _ => 0

end Cell

/-- The cell for a value in a column of the kind. Dates are text that sorts as they do: a midnight in a
column of dates is the bare date, and a date in a column of times is its midnight. -/
def encode (kind : FieldKind) : Value → Cell
  | .null => .null
  | .bool b => .integer (if b then 1 else 0)
  | .int i => .integer i
  | .float x => if x.isNaN then .null else .real x
  | .text s => .text s
  | .date d => .text (if kind = .dateTime then (Calendar.DateTime.atMidnight d).text else d.text)
  | .dateTime t =>
    .text (if kind = .date ∧ t.time = Calendar.Time.midnight then t.date.text else t.text)

/-- The form in which times are stored. -/
def storedTimeForm : List Calendar.Piece :=
  Calendar.dateForm .year .month .day '-' ++ .blanks :: Calendar.secondForm

/-- The value read from a cell of a column of the kind. -/
def decode (kind : FieldKind) : Cell → Value
  | .null => .null
  | .integer i =>
    match kind with
    | .boolean => .bool (i != 0)
    | .decimal => .float (Value.intToFloat i)
    | _ => .int i
  | .real x => .float x
  | .text s =>
    match kind with
    | .date =>
      match Calendar.readDateAs? (Calendar.dateForm .year .month .day '-') s.toList with
      | some d => .date d
      | none => .text s
    | .dateTime =>
      match Calendar.readDateTimeAs? storedTimeForm s.toList with
      | some t => .dateTime t
      | none => .text s
    | _ => .text s

end Reporting.Sql
