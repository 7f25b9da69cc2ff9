import Reporting.Text.Digits

/-!
Numbers read from text. A text is a number only as a whole: no blanks, no separators, no other bases.
-/

namespace Reporting.Decimal
open Reporting.Text

/-- Splits an optional sign off; true is a minus. -/
def splitSign : List Char → Bool × List Char
  | '-' :: rest => (true, rest)
  | '+' :: rest => (false, rest)
  | rest => (false, rest)

/-- An optional sign and at least one digit. -/
def readInteger? (s : List Char) : Option Int :=
  let (negative, digits) := splitSign s
  if digits.isEmpty || !digits.all Char.isDigit then none
  else
    let n : Int := runValue digits
    some (if negative then -n else n)

/-- The integer fits into 64 bits with a sign. -/
def fitsInt64 (i : Int) : Bool :=
  Int64.minValue.toInt ≤ i && i ≤ Int64.maxValue.toInt

/-- An integer that fits into 64 bits with a sign. -/
def readInt64? (s : List Char) : Option Int64 :=
  match readInteger? s with
  | some i => if fitsInt64 i then some (Int64.ofInt i) else none
  | none => none

/-- The exponent after the digits: none written is zero. -/
def readExponent? : List Char → Option Int
  | [] => some 0
  | c :: rest => if c = 'e' ∨ c = 'E' then readInteger? rest else none

/-- The nearest number to `digits * 10 ^ exponent`. Far outside the range the answer is known from the
count of digits alone, so that no large power is ever formed. -/
def nearest (digits : Nat) (exponent : Int) : Float :=
  if digits = 0 then 0
  else
    let lead := (digitsOf digits).length + exponent
    if 400 < lead then Float.ofScientific 1 false 400
    else if lead < -400 then 0
    else Float.ofScientific digits (decide (exponent < 0)) exponent.natAbs

/-- Digits with an optional point, at least one digit on either side of it, and an optional exponent. -/
def readMagnitude? (s : List Char) : Option Float :=
  let whole := s.takeWhile Char.isDigit
  let rest := s.dropWhile Char.isDigit
  let (places, rest) :=
    match rest with
    | '.' :: rest => (rest.takeWhile Char.isDigit, rest.dropWhile Char.isDigit)
    | _ => ([], rest)
  if whole.isEmpty && places.isEmpty then none
  else
    match readExponent? rest with
    | none => none
    | some e => some (nearest (runValue (whole ++ places)) (e - places.length))

/-- Names of the numbers that have no digits, in any case. -/
def readNamed? (s : List Char) : Option Float :=
  let name := String.ofList (s.map Char.toLower)
  if name = "inf" ∨ name = "infinity" then some (Float.ofScientific 1 false 400)
  else if name = "nan" then some (0 / 0)
  else none

/-- A number with an optional sign. -/
def readFloat? (s : List Char) : Option Float :=
  let (negative, rest) := splitSign s
  match readMagnitude? rest <|> readNamed? rest with
  | some x => some (if negative then -x else x)
  | none => none

end Reporting.Decimal
