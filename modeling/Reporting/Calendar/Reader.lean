import Reporting.Calendar.Form

/-!
Dates and times as people and programs write them. A text is tried against the usual forms one after
another, and the first that reads it decides.
-/

namespace Reporting.Calendar
open Reporting.Text

/-- Three numbers with a mark between. -/
def dateForm (a b c : Part) (mark : Char) : List Piece :=
  [.number a, .mark mark, .number b, .mark mark, .number c]

/-- Hours and minutes. -/
def minuteForm : List Piece :=
  [.number .hour, .mark ':', .number .minute]

/-- Hours, minutes and seconds. -/
def secondForm : List Piece :=
  minuteForm ++ [.mark ':', .number .second]

/-- Dates: year first; month, day, year; day, month, year; year first with slashes. -/
def dateForms : List (List Piece) :=
  [dateForm .year .month .day '-', dateForm .month .day .year '/', dateForm .day .month .year '/',
    dateForm .year .month .day '/']

/-- Times on a date, with blanks or a T between, with a Z after it or without seconds. -/
def dateTimeForms : List (List Piece) :=
  let date := dateForm .year .month .day '-'
  [date ++ .blanks :: secondForm, date ++ .mark 'T' :: secondForm,
    date ++ .mark 'T' :: secondForm ++ [.mark 'Z'], date ++ .blanks :: minuteForm]

/-- Exactly so many digits. -/
def readExactly? (count : Nat) (s : List Char) : Option (Nat × List Char) :=
  let digits := s.take count
  if digits.length = count ∧ digits.all Char.isDigit then some (runValue digits, s.drop count) else none

/-- The character itself. -/
def skipMark? (c : Char) : List Char → Option (List Char)
  | d :: rest => if c = d then some rest else none
  | [] => none

/-- The distance from universal time in minutes: a Z, or a sign, hours and minutes. -/
def readOffset? (s : List Char) : Option (Int × List Char) :=
  match s with
  | [] => none
  | c :: rest =>
    if c = 'Z' ∨ c = 'z' then some (0, rest)
    else if c = '+' ∨ c = '-' ∨ c = '\u2212' then do
      let (hours, rest) ← readExactly? 2 rest
      let rest ← skipMark? ':' rest
      let (minutes, rest) ← readExactly? 2 rest
      if 23 < hours ∨ 59 < minutes then none
      else
        let distance : Int := hours * 60 + minutes
        some (if c = '+' then distance else -distance, rest)
    else none

/-- The internet profile of dates with times: every number in full, and the distance from universal time
given. The result is in universal time. -/
def readStamp? (s : List Char) : Option DateTime := do
  let (year, s) ← readExactly? 4 s
  let s ← skipMark? '-' s
  let (month, s) ← readExactly? 2 s
  let s ← skipMark? '-' s
  let (day, s) ← readExactly? 2 s
  let s ← skipMark? 'T' s <|> skipMark? 't' s <|> skipMark? ' ' s
  let (hour, s) ← readExactly? 2 s
  let s ← skipMark? ':' s
  let (minute, s) ← readExactly? 2 s
  let s ← skipMark? ':' s
  let (second, s) ← readExactly? 2 s
  let (nano, s) ←
    match s with
    | '.' :: rest => readFraction? rest
    | _ => some (0, s)
  let (offset, s) ← readOffset? s
  if s.isEmpty then
    let here ← Numbers.dateTime? ⟨year, month, day, hour, minute, second, nano⟩
    here.backMinutes? offset
  else none

/-- A date in one of the usual forms. -/
def readPlainDate? (s : List Char) : Option Date :=
  dateForms.findSome? fun form => readDateAs? form s

/-- A date and time in one of the usual forms, or a date alone, taken at midnight. -/
def readDateTimeChars? (s : List Char) : Option DateTime :=
  (dateTimeForms.findSome? fun form => readDateTimeAs? form s) <|> readStamp? s <|>
    (readPlainDate? s).map DateTime.atMidnight

/-- A date in one of the usual forms, or the day of a date and time. -/
def readDateChars? (s : List Char) : Option Date :=
  readPlainDate? s <|> (readDateTimeChars? s).map DateTime.date

/-- The date a text names. -/
def readDate? (s : String) : Option Date :=
  readDateChars? s.toList

/-- The point in time a text names. -/
def readDateTime? (s : String) : Option DateTime :=
  readDateTimeChars? s.toList

/-- The form in which data files write dates: blanks are skipped before every mark and at the end. -/
def isoDateForm : List Piece :=
  [.number .year, .blanks, .mark '-', .number .month, .blanks, .mark '-', .number .day, .blanks]

/-- The form in which data files write dates with times. -/
def isoDateTimeForm : List Piece :=
  isoDateForm ++ [.mark 'T', .number .hour, .blanks, .mark ':', .number .minute, .blanks, .mark ':',
    .number .second, .fraction, .blanks]

/-- A date as data files write it. -/
def readIsoDate? (s : String) : Option Date :=
  readDateAs? isoDateForm s.toList

/-- A date and time as data files write it. -/
def readIsoDateTime? (s : String) : Option DateTime :=
  readDateTimeAs? isoDateTimeForm s.toList

end Reporting.Calendar
