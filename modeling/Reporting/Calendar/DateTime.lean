import Reporting.Calendar.Date

/-!
Points in time: a day and a time of day, in no particular zone. The last second of a minute may be
followed by a leap second, which counts as more than a full second of nanoseconds.
-/

namespace Reporting.Calendar

/-- Nanoseconds of a second. -/
def nanosPerSecond : Nat := 1000000000

/-- The numbers name a time of day. -/
def ValidTime (second nano : Nat) : Prop :=
  second < 86400 ∧ nano < 2 * nanosPerSecond ∧ (nanosPerSecond ≤ nano → second % 60 = 59)

instance (second nano : Nat) : Decidable (ValidTime second nano) :=
  inferInstanceAs (Decidable (_ ∧ _))

/-- A time of day: seconds since midnight and nanoseconds within the second. -/
structure Time where
  second : Nat
  nano : Nat
  valid : ValidTime second nano
deriving DecidableEq

namespace Time

def midnight : Time := ⟨0, 0, by decide⟩

/-- The time the clock shows; second 60 is a leap second. -/
def ofClock? (hour minute second nano : Nat) : Option Time :=
  if 23 < hour ∨ 59 < minute ∨ 60 < second ∨ nanosPerSecond ≤ nano then none
  else
    let (second, nano) := if second = 60 then (59, nanosPerSecond + nano) else (second, nano)
    let ofDay := hour * 3600 + minute * 60 + second
    if h : ValidTime ofDay nano then some ⟨ofDay, nano, h⟩ else none

def hours (t : Time) : Nat := t.second / 3600
def minutes (t : Time) : Nat := t.second / 60 % 60
/-- The seconds shown, 60 in a leap second. -/
def seconds (t : Time) : Nat := t.second % 60 + t.nano / nanosPerSecond
def fraction (t : Time) : Nat := t.nano % nanosPerSecond

/-- A leap second counts as the second before it, at the same fraction. -/
def withoutLeap (t : Time) : Time :=
  ⟨t.second, t.nano % nanosPerSecond, t.valid.1,
    by have := Nat.mod_lt t.nano (show 0 < nanosPerSecond by decide); omega,
    by have := Nat.mod_lt t.nano (show 0 < nanosPerSecond by decide); omega⟩

end Time

/-- A point in time. -/
structure DateTime where
  date : Date
  time : Time
deriving DecidableEq

namespace DateTime

/-- The beginning of a day. -/
def atMidnight (d : Date) : DateTime := ⟨d, Time.midnight⟩

/-- Earlier points come first. -/
def order (a b : DateTime) : Ordering :=
  (a.date.order b.date).then
    ((compare a.time.second b.time.second).then (compare a.time.nano b.time.nano))

/-- The same time that many days later, at least one; days later there is no leap second. -/
def addDays? (t : DateTime) (days : Nat) : Option DateTime :=
  (t.date.addDays? days).map fun d => ⟨d, t.time.withoutLeap⟩

/-- The same time that many months later. -/
def addMonths? (t : DateTime) (months : Nat) : Option DateTime :=
  (t.date.addMonths? months).map fun d => ⟨d, t.time⟩

theorem addDays?_date {t u : DateTime} {days : Nat} (h : t.addDays? days = some u) :
    t.date.addDays? days = some u.date := by
  obtain ⟨d, found, rfl⟩ := Option.map_eq_some_iff.1 h
  exact found

theorem addMonths?_date {t u : DateTime} {months : Nat} (h : t.addMonths? months = some u) :
    t.date.addMonths? months = some u.date := by
  obtain ⟨d, found, rfl⟩ := Option.map_eq_some_iff.1 h
  exact found

/-- Moves the clock back by less than a day of whole minutes; the nanoseconds stay. -/
def backMinutes? (t : DateTime) (minutes : Int) : Option DateTime :=
  let moved : Int := t.time.second - minutes * 60
  let date? :=
    if moved < 0 then t.date.previous? else if 86400 ≤ moved then t.date.next? else some t.date
  let second := (moved % 86400).toNat
  match date? with
  | none => none
  | some date => if h : ValidTime second t.time.nano then some ⟨date, second, t.time.nano, h⟩ else none

end DateTime

end Reporting.Calendar
