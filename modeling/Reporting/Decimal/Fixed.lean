import Reporting.Decimal.Layout

/-!
Numbers written with a fixed count of places: the exact value is rounded, a half to the even neighbour.
-/

namespace Reporting.Decimal
open Reporting.Text

/-- The quotient rounded to the nearest natural, a half to the even one. -/
def roundQuotient (num den : Nat) : Nat :=
  let low := num / den
  match compare (2 * (num % den)) den with
  | .lt => low
  | .gt => low + 1
  | .eq => if low % 2 = 0 then low else low + 1

/-- The magnitude with the given count of places after the point. -/
def Binary.fixedText (x : Binary) (places : Nat) : List Char :=
  let units := roundQuotient (x.mantissa * Nat.pow 2 x.exponent.toNat * Nat.pow 10 places)
    (Nat.pow 2 (-x.exponent).toNat)
  let digits := padZeros (places + 1) (digitsOf units)
  let whole := digits.take (digits.length - places)
  if places = 0 then whole else whole ++ '.' :: digits.drop (digits.length - places)

/-- The number with the given count of places; a minus sign stays in front of a zero. -/
def fixed (places : Nat) (x : Float) : String :=
  if x.isNaN then "NaN"
  else
    let bits := x.toBits
    let magnitude :=
      if x.isInf then ['i', 'n', 'f'] else (Binary.ofBits bits).fixedText places
    String.ofList (if bits >>> 63 == 1 then '-' :: magnitude else magnitude)

end Reporting.Decimal
