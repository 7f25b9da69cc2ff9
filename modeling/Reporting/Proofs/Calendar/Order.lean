import Reporting.Calendar.DateTime

/-!
Days and points in time come one after another: their orders are total, only equal ones compare as equal, and
every step forward leads to a later one.
-/

namespace Reporting.Calendar

namespace Date

instance : Std.TransCmp Date.order :=
  inferInstanceAs (Std.TransCmp (compareLex (compareOn year) (compareLex (compareOn month) (compareOn day))))

instance : Std.LawfulEqCmp Date.order where
  eq_of_compare {a b} same := by
    obtain ⟨years, rest⟩ := Ordering.then_eq_eq.1 same
    obtain ⟨months, days⟩ := Ordering.then_eq_eq.1 rest
    cases a
    cases b
    cases Int.compare_eq_eq.1 years
    cases Nat.compare_eq_eq.1 months
    cases Nat.compare_eq_eq.1 days
    rfl

/-- Of two days the one with less of the calendar left is later. -/
theorem order_eq_lt_of_remaining {a b : Date} (less : b.remaining < a.remaining) : a.order b = .lt := by
  have boundsA := a.bounds
  have boundsB := b.bounds
  unfold remaining at less
  unfold order
  rw [Ordering.then_eq_lt, Ordering.then_eq_lt, Int.compare_eq_lt, Int.compare_eq_eq, Nat.compare_eq_lt,
    Nat.compare_eq_eq, Nat.compare_eq_lt]
  omega

end Date

namespace DateTime

instance : Std.TransCmp DateTime.order :=
  let _ : Ord Date := ⟨Date.order⟩
  have _ : Std.TransOrd Date := inferInstanceAs (Std.TransCmp Date.order)
  inferInstanceAs (Std.TransCmp (compareLex (compareOn date)
    (compareLex (compareOn fun t => t.time.second) (compareOn fun t => t.time.nano))))

instance : Std.LawfulEqCmp DateTime.order where
  eq_of_compare {a b} same := by
    obtain ⟨days, rest⟩ := Ordering.then_eq_eq.1 same
    obtain ⟨seconds, nanos⟩ := Ordering.then_eq_eq.1 rest
    obtain ⟨date, second, nano, _⟩ := a
    obtain ⟨date', second', nano', _⟩ := b
    cases Std.LawfulEqCmp.eq_of_compare days
    cases Nat.compare_eq_eq.1 seconds
    cases Nat.compare_eq_eq.1 nanos
    rfl

theorem order_eq_lt_of_date {a b : DateTime} (earlier : a.date.order b.date = .lt) : a.order b = .lt := by
  unfold order
  rw [earlier]
  rfl

theorem order_isLE_of_not_lt {a b : DateTime} (h : a.order b ≠ .lt) : (b.order a).isLE := by
  have swapped : b.order a = (a.order b).swap := Std.OrientedCmp.eq_swap
  rw [swapped]
  cases order : a.order b with
  | lt => exact absurd order h
  | eq => rfl
  | gt => rfl

end DateTime

end Reporting.Calendar
