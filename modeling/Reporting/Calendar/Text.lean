import Reporting.Calendar.DateTime
import Reporting.Text.Digits

/-!
Dates and times written out. Years have at least four digits, and a sign outside the years 0 to 9999.
-/

namespace Reporting.Calendar
open Reporting.Text

/-- Four digits within the years 0 to 9999, else a sign and at least four. -/
def yearChars (year : Int) : List Char :=
  if 0 ≤ year ∧ year ≤ 9999 then padded 4 year.toNat
  else (if year < 0 then '-' else '+') :: padded 4 year.natAbs

namespace Date

/-- Year, month and day with a separator that may be empty. -/
def chars (d : Date) (separator : List Char) : List Char :=
  yearChars d.year ++ separator ++ padded 2 d.month ++ separator ++ padded 2 d.day

/-- For instance 2020-01-31. -/
def text (d : Date) : String :=
  String.ofList (d.chars ['-'])

/-- For instance 20200131. -/
def compactText (d : Date) : String :=
  String.ofList (d.chars [])

def yearText (d : Date) : String :=
  String.ofList (yearChars d.year)

/-- The name of the month and the year. -/
def monthText (d : Date) : String :=
  (monthNames[d.month - 1]?.getD "") ++ " " ++ d.yearText

end Date

/-- Hours, minutes and seconds. -/
def Time.chars (t : Time) : List Char :=
  padded 2 t.hours ++ ':' :: padded 2 t.minutes ++ ':' :: padded 2 t.seconds

/-- Nothing for a whole second, else a point and three, six or nine digits, as few as are exact. -/
def Time.fractionChars (t : Time) : List Char :=
  let f := t.fraction
  if f = 0 then []
  else if f % 1000000 = 0 then '.' :: padded 3 (f / 1000000)
  else if f % 1000 = 0 then '.' :: padded 6 (f / 1000)
  else '.' :: padded 9 f

namespace DateTime

def chars (t : DateTime) : List Char :=
  t.date.chars ['-'] ++ ' ' :: t.time.chars

/-- Date and time to the second with a blank between; a fraction is not shown. -/
def text (t : DateTime) : String :=
  String.ofList t.chars

/-- Date, hours and minutes. -/
def minuteText (t : DateTime) : String :=
  String.ofList (t.date.chars ['-'] ++ ' ' :: padded 2 t.time.hours ++ ':' :: padded 2 t.time.minutes)

/-- Date and time with a T between, down to the last nanosecond. -/
def exactText (t : DateTime) : String :=
  String.ofList (t.date.chars ['-'] ++ 'T' :: t.time.chars ++ t.time.fractionChars)

/-- The same with a blank between, as messages show it. -/
def messageText (t : DateTime) : String :=
  String.ofList (t.chars ++ t.time.fractionChars)

end DateTime

end Reporting.Calendar
