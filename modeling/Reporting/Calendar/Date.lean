/-!
Days of the Gregorian calendar, continued without a break before its introduction. Year 0 is the year
before year 1. A date is three numbers that name a real day; going to the next day, or some months on,
either names another or leaves the calendar.
-/

namespace Reporting.Calendar

/-- The first and the last year that dates are kept for. -/
def minYear : Int := -262143
def maxYear : Int := 262142

/-- Every fourth year is a leap year, of the full centuries every fourth. -/
def isLeap (year : Int) : Bool :=
  year % 4 == 0 && (year % 100 != 0 || year % 400 == 0)

/-- The number of days of a month. -/
def daysIn (year : Int) (month : Nat) : Nat :=
  if month = 2 then if isLeap year then 29 else 28
  else if month = 4 ∨ month = 6 ∨ month = 9 ∨ month = 11 then 30
  else 31

/-- The three numbers name a day. -/
def ValidDate (year : Int) (month day : Nat) : Prop :=
  minYear ≤ year ∧ year ≤ maxYear ∧ 1 ≤ month ∧ month ≤ 12 ∧ 1 ≤ day ∧ day ≤ daysIn year month

instance (year : Int) (month day : Nat) : Decidable (ValidDate year month day) :=
  inferInstanceAs (Decidable (_ ∧ _))

/-- A day. -/
structure Date where
  year : Int
  month : Nat
  day : Nat
  valid : ValidDate year month day
deriving DecidableEq

namespace Date

/-- The day named by the numbers, if there is one. -/
def ofNumbers? (year : Int) (month day : Nat) : Option Date :=
  if h : ValidDate year month day then some ⟨year, month, day, h⟩ else none

/-- Earlier days come first. -/
def order (a b : Date) : Ordering :=
  (compare a.year b.year).then ((compare a.month b.month).then (compare a.day b.day))

/-- The day after: in the same month, else the first of the next month, else of the next year. -/
def next? (d : Date) : Option Date :=
  ofNumbers? d.year d.month (d.day + 1) <|> ofNumbers? d.year (d.month + 1) 1 <|> ofNumbers? (d.year + 1) 1 1

/-- The day before. -/
def previous? (d : Date) : Option Date :=
  if 1 < d.day then ofNumbers? d.year d.month (d.day - 1)
  else if 1 < d.month then ofNumbers? d.year (d.month - 1) (daysIn d.year (d.month - 1))
  else ofNumbers? (d.year - 1) 12 31

/-- The day that many days later. -/
def addDays? (d : Date) : Nat → Option Date
  | 0 => some d
  | n + 1 =>
    match d.next? with
    | some e => e.addDays? n
    | none => none

/-- The same day that many months later; where the month is too short, its last day. -/
def addMonths? (d : Date) (months : Nat) : Option Date :=
  let count : Int := d.year * 12 + (d.month - 1 : Nat) + months
  let year := count / 12
  let month := (count % 12).toNat + 1
  ofNumbers? year month (min d.day (daysIn year month))

/-- The days left in the calendar if every month had 31. Every step forward makes it less. -/
def remaining (d : Date) : Nat :=
  ((maxYear - d.year).toNat * 12 + (12 - d.month)) * 31 + (31 - d.day)

theorem ofNumbers?_eq_some {year : Int} {month day : Nat} {d : Date}
    (h : ofNumbers? year month day = some d) : d.year = year ∧ d.month = month ∧ d.day = day := by
  unfold ofNumbers? at h
  split at h
  · cases h; exact ⟨rfl, rfl, rfl⟩
  · cases h

theorem daysIn_le (year : Int) (month : Nat) : daysIn year month ≤ 31 := by
  unfold daysIn
  split
  · split <;> decide
  · split <;> decide

/-- The numbers of a day are within bounds that do not depend on the month. -/
theorem bounds (d : Date) : d.year ≤ maxYear ∧ 1 ≤ d.month ∧ d.month ≤ 12 ∧ 1 ≤ d.day ∧ d.day ≤ 31 := by
  have valid := d.valid
  have short := daysIn_le d.year d.month
  unfold ValidDate at valid
  omega

theorem remaining_next? {d e : Date} (h : d.next? = some e) : e.remaining < d.remaining := by
  have before := d.bounds
  have after := e.bounds
  have cases : ofNumbers? d.year d.month (d.day + 1) = some e
      ∨ ofNumbers? d.year (d.month + 1) 1 = some e ∨ ofNumbers? (d.year + 1) 1 1 = some e := by
    unfold next? at h
    cases first : ofNumbers? d.year d.month (d.day + 1) <;>
      cases second : ofNumbers? d.year (d.month + 1) 1 <;> simp_all
  unfold remaining
  rcases cases with found | found | found <;>
    · have numbers := ofNumbers?_eq_some found
      omega

theorem remaining_addDays? {d e : Date} {count : Nat} (h : d.addDays? count = some e) :
    e.remaining + count ≤ d.remaining := by
  induction count generalizing d with
  | zero => cases h; exact Nat.le_refl _
  | succ n ih =>
    rw [addDays?] at h
    split at h
    · rename_i next found
      have rest := ih h
      have first := remaining_next? found
      omega
    · cases h

theorem remaining_addMonths? {d e : Date} {count : Nat} (positive : 0 < count)
    (h : d.addMonths? count = some e) : e.remaining < d.remaining := by
  have before := d.bounds
  have after := e.bounds
  have numbers := ofNumbers?_eq_some h
  unfold remaining
  omega

end Date

/-- The twelve months in order. -/
def monthNames : List String :=
  ["January", "February", "March", "April", "May", "June", "July", "August", "September", "October",
    "November", "December"]

end Reporting.Calendar
