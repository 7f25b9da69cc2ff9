import Reporting.Calendar.DateTime
import Reporting.Text.Blank
import Reporting.Text.Digits

/-!
Written forms of dates and times, as lists of pieces, and reading by a form. Numbers are read
leniently: with or without leading zeros, after any blanks. The rest of the form matches itself.
-/

namespace Reporting.Calendar
open Reporting.Text

/-- A number of a written date or time. -/
inductive Part where
  | year
  | month
  | day
  | hour
  | minute
  | second
deriving DecidableEq, Repr

/-- A piece of a written form. -/
inductive Piece where
  | number (part : Part)
  | mark (c : Char)
  /-- any run of blanks, also none -/
  | blanks
  /-- a point and digits of a second, or nothing -/
  | fraction
deriving DecidableEq, Repr

/-- The numbers read so far. -/
structure Numbers where
  year : Int := 0
  month : Nat := 0
  day : Nat := 0
  hour : Nat := 0
  minute : Nat := 0
  second : Nat := 0
  nano : Nat := 0

def Numbers.date? (n : Numbers) : Option Date :=
  Date.ofNumbers? n.year n.month n.day

def Numbers.time? (n : Numbers) : Option Time :=
  Time.ofClock? n.hour n.minute n.second n.nano

def Numbers.dateTime? (n : Numbers) : Option DateTime :=
  match n.date?, n.time? with
  | some d, some t => some ⟨d, t⟩
  | _, _ => none

/-- At least one digit and at most so many, as a number, and the rest. -/
def readDigits? (most : Nat) (s : List Char) : Option (Nat × List Char) :=
  let digits := (s.take most).takeWhile Char.isDigit
  if digits.isEmpty then none else some (runValue digits, s.drop digits.length)

/-- A year has up to four digits, or a sign and any number of digits. -/
def readYear? (s : List Char) : Option (Int × List Char) :=
  match s with
  | '-' :: rest => (readDigits? rest.length rest).map fun (n, rest) => (-n, rest)
  | '+' :: rest => (readDigits? rest.length rest).map fun (n, rest) => (n, rest)
  | _ => (readDigits? 4 s).map fun (n, rest) => (n, rest)

/-- A fraction of a second in nanoseconds; digits after the ninth are skipped. -/
def readFraction? (s : List Char) : Option (Nat × List Char) :=
  let digits := (s.take 9).takeWhile Char.isDigit
  if digits.isEmpty then none
  else some (runValue digits * Nat.pow 10 (9 - digits.length), s.dropWhile Char.isDigit)

/-- Reads one number into its place. -/
def Numbers.read? (n : Numbers) (part : Part) (s : List Char) : Option (Numbers × List Char) :=
  let s := skipBlanks s
  match part with
  | .year => (readYear? s).map fun (v, rest) => ({ n with year := v }, rest)
  | .month => (readDigits? 2 s).map fun (v, rest) => ({ n with month := v }, rest)
  | .day => (readDigits? 2 s).map fun (v, rest) => ({ n with day := v }, rest)
  | .hour => (readDigits? 2 s).map fun (v, rest) => ({ n with hour := v }, rest)
  | .minute => (readDigits? 2 s).map fun (v, rest) => ({ n with minute := v }, rest)
  | .second => (readDigits? 2 s).map fun (v, rest) => ({ n with second := v }, rest)

/-- Reads one piece. -/
def Piece.read? (piece : Piece) (n : Numbers) (s : List Char) : Option (Numbers × List Char) :=
  match piece with
  | .number part => n.read? part s
  | .mark c =>
    match s with
    | d :: rest => if c = d then some (n, rest) else none
    | [] => none
  | .blanks => some (n, skipBlanks s)
  | .fraction =>
    match s with
    | '.' :: rest => (readFraction? rest).map fun (v, rest) => ({ n with nano := v }, rest)
    | _ => some (n, s)

/-- Reads the pieces one after another; nothing may be left over. -/
def readForm? : List Piece → Numbers → List Char → Option Numbers
  | [], n, [] => some n
  | [], _, _ :: _ => none
  | piece :: form, n, s =>
    match piece.read? n s with
    | some (n, rest) => readForm? form n rest
    | none => none

/-- The date written in the form, if the text is one. -/
def readDateAs? (form : List Piece) (s : List Char) : Option Date :=
  (readForm? form {} s).bind Numbers.date?

/-- The date and time written in the form, if the text is one. -/
def readDateTimeAs? (form : List Piece) (s : List Char) : Option DateTime :=
  (readForm? form {} s).bind Numbers.dateTime?

end Reporting.Calendar
