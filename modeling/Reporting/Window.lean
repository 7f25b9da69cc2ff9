import Reporting.Calendar.Text
import Reporting.Report.Error
import Reporting.Text.Lower

/-!
Time series: a range of dates split into windows, one after another, by a periodicity.
-/

namespace Reporting
open Calendar

/-- The points in time from a start up to an end, which is not among them. -/
structure Window where
  start : DateTime
  finish : DateTime
deriving DecidableEq

/-- What is added to the names of columns for the window: the day on which it ends. -/
def Window.columnSuffix (w : Window) : String :=
  "TS" ++ w.finish.date.compactText

/-- How long the windows of a series are. -/
inductive Pattern where
  | daily
  | weekly
  | biWeekly
  | monthly
  | quarterly
  | semiannually
  | annually
  /-- the windows are given -/
  | custom
deriving DecidableEq, Repr

/-- A number of days or of months, at least one. -/
inductive Step where
  | days (count : Nat) (positive : 0 < count := by decide)
  | months (count : Nat) (positive : 0 < count := by decide)

namespace Step

/-- The point in time a step later, unless it lies beyond the calendar. -/
def from? (step : Step) (t : DateTime) : Option DateTime :=
  match step with
  | days count _ => t.addDays? count
  | months count _ => t.addMonths? count

theorem remaining_from? {step : Step} {t next : DateTime} (h : step.from? t = some next) :
    next.date.remaining < t.date.remaining := by
  cases step with
  | days count positive =>
    have := Date.remaining_addDays? (DateTime.addDays?_date h)
    omega
  | months count positive => exact Date.remaining_addMonths? positive (DateTime.addMonths?_date h)

end Step

namespace Pattern

def name : Pattern → String
  | daily => "daily"
  | weekly => "weekly"
  | biWeekly => "bi-weekly"
  | monthly => "monthly"
  | quarterly => "quarterly"
  | semiannually => "semiannually"
  | annually => "annually"
  | custom => "custom"

/-- The pattern of the name, in any case. -/
def ofName (s : String) : Except ReportError Pattern :=
  match Text.lower s with
  | "daily" => .ok daily
  | "weekly" => .ok weekly
  | "bi-weekly" => .ok biWeekly
  | "biweekly" => .ok biWeekly
  | "semimonthly" => .ok biWeekly
  | "monthly" => .ok monthly
  | "quarterly" => .ok quarterly
  | "semiannually" => .ok semiannually
  | "annually" => .ok annually
  | "yearly" => .ok annually
  | "custom" => .ok custom
  | _ => .error (.unsupportedPattern s)

/-- The length of the windows. -/
def step? : Pattern → Option Step
  | daily => some (.days 1)
  | weekly => some (.days 7)
  | biWeekly => some (.days 14)
  | monthly => some (.months 1)
  | quarterly => some (.months 3)
  | semiannually => some (.months 6)
  | annually => some (.months 12)
  | custom => none

/-- The label of a column within a window, the first of which has index zero. -/
def windowLabel (pattern : Pattern) (label : String) (w : Window) (index : Nat) : String :=
  let start := w.start.date.text
  match pattern with
  | monthly => label ++ " " ++ w.start.date.monthText
  | daily => label ++ " " ++ start
  | weekly => label ++ " Week " ++ toString (index + 1) ++ " " ++ start
  | annually => label ++ " " ++ w.start.date.yearText
  | _ => label ++ " " ++ start ++ " - " ++ w.finish.date.text

end Pattern

/-- The failure of a series that would leave the calendar. -/
def outOfRange (t : DateTime) : ReportError :=
  .configuration (.misconfigured ("time series window after " ++ t.messageText ++ " is out of range"))

/-- The windows of one length from a start until one of them reaches the end. There is at least one, and
the last may go on after the end. -/
def windowsFrom (step : Step) (finish start : DateTime) : Except ReportError (List Window) :=
  match _found : step.from? start with
  | none => .error (outOfRange start)
  | some next =>
    if next.order finish = .lt then
      match windowsFrom step finish next with
      | .ok later => .ok (⟨start, next⟩ :: later)
      | .error e => .error e
    else .ok [⟨start, next⟩]
termination_by start.date.remaining
decreasing_by exact Step.remaining_from? _found

/-- The windows of a series from a start to an end; those of a custom series are the ones given. -/
def Pattern.windows (pattern : Pattern) (start finish : DateTime) (custom : List Window) :
    Except ReportError (List Window) :=
  match pattern.step? with
  | some step => windowsFrom step finish start
  | none => .ok custom

end Reporting
