import Reporting.Decimal.Shortest
import Reporting.Text.Digits

/-!
How a number is written: which decimal is chosen is `Binary.shortest`, how its digits are laid out
is a `Layout`.
-/

namespace Reporting.Decimal
open Reporting.Text

/-- The decisions of one written form. -/
structure Layout where
  /-- Exponents of the leading digit from the first up to the second, excluded, are written without an
  exponent; with none given, all are. -/
  positional : Option (Int × Int)
  /-- An integral number ends in a point and a zero. -/
  pointZero : Bool
  /-- An exponent that is not negative carries a plus sign. -/
  exponentPlus : Bool
  tie : Tie

/-- A point, if need be, inside, before or after the digits; no exponent. -/
def Layout.positionalText (layout : Layout) (digits : List Char) (exponent : Int) : List Char :=
  if 0 ≤ exponent then
    digits ++ List.replicate exponent.toNat '0' ++ (if layout.pointZero then ['.', '0'] else [])
  else
    let places := (-exponent).toNat
    if places < digits.length then
      digits.take (digits.length - places) ++ '.' :: digits.drop (digits.length - places)
    else '0' :: '.' :: (List.replicate (places - digits.length) '0' ++ digits)

/-- One digit, the others after a point, and the exponent of the leading digit. -/
def Layout.exponentText (layout : Layout) (digits : List Char) (lead : Int) : List Char :=
  let mantissa :=
    match digits with
    | [] => ['0']
    | [d] => [d]
    | d :: rest => d :: '.' :: rest
  let sign := if lead < 0 then ['-'] else if layout.exponentPlus then ['+'] else []
  mantissa ++ 'e' :: (sign ++ digitsOf lead.natAbs)

/-- The text of a decimal magnitude. -/
def Layout.magnitudeText (layout : Layout) (d : Scaled) : List Char :=
  let digits := digitsOf d.digits
  let lead := (digits.length : Int) - 1 + d.exponent
  match layout.positional with
  | none => layout.positionalText digits d.exponent
  | some (first, last) =>
    if d.digits = 0 ∨ (first ≤ lead ∧ lead < last) then layout.positionalText digits d.exponent
    else layout.exponentText digits lead

/-- The text of a number; zero keeps its sign. -/
def Layout.render (layout : Layout) (x : Float) : String :=
  if x.isNaN then "NaN"
  else
    let bits := x.toBits
    let negative := bits >>> 63 == 1
    let magnitude :=
      if x.isInf then ['i', 'n', 'f']
      else layout.magnitudeText ((Binary.ofBits bits).shortest layout.tie)
    String.ofList (if negative then '-' :: magnitude else magnitude)

/-- Numbers in cells and keys never carry an exponent, and integral ones no point. -/
def plain : Layout where
  positional := none
  pointZero := false
  exponentPlus := false
  tie := .up

/-- Numbers in diagnostics show that they are not integers, and turn to an exponent from `10 ^ 16` on and
below `10 ^ -4`. -/
def diagnostic : Layout where
  positional := some (-4, 16)
  pointZero := true
  exponentPlus := false
  tie := .up

/-- Numbers in JSON show that they are not integers, and turn to a signed exponent from `10 ^ 16` on and
below `10 ^ -5`. -/
def json : Layout where
  positional := some (-5, 16)
  pointZero := true
  exponentPlus := true
  tie := .toEven

/-- The integer that the number is, if it is one. -/
def integral? (x : Float) : Option Int :=
  if x.isNaN || x.isInf then none
  else
    let b := Binary.ofBits x.toBits
    let divisor := Nat.pow 2 (-b.exponent).toNat
    if b.mantissa % divisor = 0 then
      let n : Int := (b.mantissa / divisor * Nat.pow 2 b.exponent.toNat : Nat)
      some (if x.toBits >>> 63 == 1 then -n else n)
    else none

/-- The text of a number in a cell. -/
def text (x : Float) : String :=
  plain.render x

end Reporting.Decimal
