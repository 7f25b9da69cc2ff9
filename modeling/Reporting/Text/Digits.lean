/-!
Natural numbers as runs of decimal digits.
-/

namespace Reporting.Text

/-- The value of a decimal digit. -/
def digitValue (c : Char) : Nat :=
  c.toNat - 48

/-- The value of a run of digits. -/
def runValue (digits : List Char) : Nat :=
  digits.foldl (fun n c => 10 * n + digitValue c) 0

/-- The digits of a number, without leading zeros. -/
def digitsOf (n : Nat) : List Char :=
  Nat.toDigits 10 n

/-- The digits with zeros in front, up to the width. -/
def padZeros (width : Nat) (digits : List Char) : List Char :=
  List.replicate (width - digits.length) '0' ++ digits

/-- The digits of a number with zeros in front, up to the width. -/
def padded (width n : Nat) : List Char :=
  padZeros width (digitsOf n)

end Reporting.Text
