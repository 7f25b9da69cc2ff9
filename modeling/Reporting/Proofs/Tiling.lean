import Reporting.Proofs.Calendar.Count
import Reporting.Proofs.Calendar.Reading
import Reporting.Proofs.Windows

/-!
Series of windows of one length. A step leads to the day or the month with so much greater a number, and fails just where
there is none in the calendar (`Step.from?_eq_some_iff`, `Step.from?_eq_none_iff`). The windows of a series tile the time
from its start until one of them reaches the end and are told by their suffixes, or some step on the way leaves the
calendar (`Pattern.windows_tile`).
-/

namespace Reporting
open Calendar

/-! ## Steps through the calendar -/

namespace Step

/-- The second point in time is a step after the first one. Days later there is no leap second; months later it is the
same day of the month, or the last one of a month that is shorter, at the same time. -/
def Leads : Step → DateTime → DateTime → Prop
  | days count _, t, u => u.date.number = t.date.number + count ∧ u.time = t.time.withoutLeap
  | months count _, t, u => u.date.monthNumber = t.date.monthNumber + count ∧
      u.date.day = min t.date.day (daysIn u.date.year u.date.month) ∧ u.time = t.time

/-- A step from the point in time goes beyond the last day of the calendar. -/
def Leaves : Step → DateTime → Prop
  | days count _, t => Date.last.number < t.date.number + count
  | months count _, t => Date.last.monthNumber < t.date.monthNumber + count

variable {step : Step} {t u : DateTime}

theorem from?_eq_some_iff : step.from? t = some u ↔ step.Leads t u := by
  cases step with
  | days count positive =>
    unfold from? DateTime.addDays? Leads
    simp only [Option.map_eq_some_iff, Date.addDays?_eq_some_iff]
    constructor
    · rintro ⟨d, number, rfl⟩
      exact ⟨number, rfl⟩
    · rintro ⟨number, time⟩
      exact ⟨u.date, number, by rw [← time]⟩
  | months count positive =>
    unfold from? DateTime.addMonths? Leads
    simp only [Option.map_eq_some_iff, Date.addMonths?_eq_some_iff]
    constructor
    · rintro ⟨d, ⟨number, day⟩, rfl⟩
      exact ⟨number, day, rfl⟩
    · rintro ⟨number, day, time⟩
      exact ⟨u.date, ⟨number, day⟩, by rw [← time]⟩

theorem from?_eq_none_iff : step.from? t = none ↔ step.Leaves t := by
  cases step with
  | days count positive =>
    unfold from? DateTime.addDays? Leaves
    rw [Option.map_eq_none_iff, Date.addDays?_eq_none_iff]
  | months count positive =>
    unfold from? DateTime.addMonths? Leaves
    rw [Option.map_eq_none_iff, Date.addMonths?_eq_none_iff]

/-- Steps from the start lead to the point in time without reaching the end, so that another one is taken. -/
inductive Passes (step : Step) (finish : DateTime) : DateTime → DateTime → Prop
  | here (t : DateTime) : Passes step finish t t
  | later {start next t : DateTime} (leads : step.Leads start next) (short : next.order finish = .lt)
      (rest : Passes step finish next t) : Passes step finish start t

end Step

/-! ## Windows of one length -/

variable {step : Step} {finish start : DateTime} {ws : List Window}

theorem leads_windowsFrom (made : windowsFrom step finish start = .ok ws) : ∀ w ∈ ws, step.Leads w.start w.finish := by
  fun_induction windowsFrom step finish start generalizing ws with
  | case1 start _ => cases made
  | case2 start next found short later made' ih =>
    cases made
    exact List.forall_mem_cons.2 ⟨Step.from?_eq_some_iff.1 found, ih made'⟩
  | case3 start next found short e failed ih => cases made
  | case4 start next found long =>
    cases made
    exact List.forall_mem_singleton.2 (Step.from?_eq_some_iff.1 found)

theorem days_windowsFrom (made : windowsFrom step finish start = .ok ws) :
    (ws.map fun w => w.finish.date).Pairwise (fun d e => e.remaining < d.remaining) ∧
      ∀ w ∈ ws, w.finish.date.remaining < start.date.remaining := by
  fun_induction windowsFrom step finish start generalizing ws with
  | case1 start _ => cases made
  | case2 start next found short later made' ih =>
    cases made
    obtain ⟨descending, below⟩ := ih made'
    have first := Step.remaining_from? found
    refine ⟨List.pairwise_cons.2 ⟨fun d member => ?_, descending⟩, fun w member => ?_⟩
    · obtain ⟨w, inside, rfl⟩ := List.mem_map.1 member
      exact below w inside
    · rcases List.mem_cons.1 member with rfl | inside
      · exact first
      · have := below w inside
        omega
  | case3 start next found short e failed ih => cases made
  | case4 start next found long =>
    cases made
    refine ⟨List.pairwise_singleton .., fun w member => ?_⟩
    rw [List.mem_singleton.1 member]
    exact Step.remaining_from? found

/-- A series fails where a step on the way leaves the calendar, and names the point in time from which it was taken. -/
theorem windowsFrom_eq_error_iff {e : ReportError} : windowsFrom step finish start = .error e ↔
    ∃ t, step.Passes finish start t ∧ step.Leaves t ∧ e = outOfRange t := by
  have first : ∀ {start t : DateTime}, step.Passes finish start t → step.Leaves t → t = start ∨
      ∃ next, step.from? start = some next ∧ next.order finish = .lt ∧ step.Passes finish next t := by
    rintro _ _ (_ | ⟨leads, short, rest⟩) _
    · exact Or.inl rfl
    · exact Or.inr ⟨_, Step.from?_eq_some_iff.2 leads, short, rest⟩
  fun_induction windowsFrom step finish start with
  | case1 start none_ =>
    constructor
    · intro failed
      cases failed
      exact ⟨start, .here start, Step.from?_eq_none_iff.1 none_, rfl⟩
    · rintro ⟨t, passes, leaves, rfl⟩
      rcases first passes leaves with rfl | ⟨next, found, _⟩
      · rfl
      · rw [none_] at found
        cases found
  | case2 start next found short later made ih =>
    constructor
    · rintro ⟨⟩
    · rintro ⟨t, passes, leaves, rfl⟩
      rcases first passes leaves with rfl | ⟨next', found', _, rest⟩
      · rw [Step.from?_eq_none_iff.2 leaves] at found
        cases found
      · obtain rfl : next = next' := Option.some.inj (found.symm.trans found')
        have failed := ih.2 ⟨t, rest, leaves, rfl⟩
        rw [made] at failed
        cases failed
  | case3 start next found short e' failed ih =>
    rw [Except.error.injEq]
    constructor
    · rintro rfl
      obtain ⟨t, passes, leaves, same⟩ := ih.1 failed
      exact ⟨t, .later (Step.from?_eq_some_iff.1 found) short passes, leaves, same⟩
    · rintro ⟨t, passes, leaves, rfl⟩
      rcases first passes leaves with rfl | ⟨next', found', _, rest⟩
      · rw [Step.from?_eq_none_iff.2 leaves] at found
        cases found
      · obtain rfl : next = next' := Option.some.inj (found.symm.trans found')
        exact Except.error.inj (failed.symm.trans (ih.2 ⟨t, rest, leaves, rfl⟩))
  | case4 start next found long =>
    constructor
    · rintro ⟨⟩
    · rintro ⟨t, passes, leaves, rfl⟩
      rcases first passes leaves with rfl | ⟨next', found', short, _⟩
      · rw [Step.from?_eq_none_iff.2 leaves] at found
        cases found
      · obtain rfl : next = next' := Option.some.inj (found.symm.trans found')
        exact absurd short long

/-- The windows of a fixed length end on different days. -/
theorem Pattern.nodup_days {pattern : Pattern} (regular : pattern ≠ .custom) {custom : List Window}
    (made : pattern.windows start finish custom = .ok ws) : (ws.map fun w => w.finish.date).Nodup := by
  have descending : (ws.map fun w => w.finish.date).Pairwise (fun d e => e.remaining < d.remaining) := by
    unfold Pattern.windows at made
    cases pattern with
    | custom => exact absurd rfl regular
    | _ => exact (days_windowsFrom made).1
  refine descending.imp ?_
  rintro d _ less rfl
  exact absurd less (Nat.lt_irrefl _)

namespace Tiles

theorem head? (tiles : Tiles finish start ws) : ws.head?.map Window.start = some start := by
  cases tiles <;> rfl

theorem isChain (tiles : Tiles finish start ws) : ws.IsChain fun w next => w.finish = next.start := by
  induction tiles with
  | last later reaches => exact .singleton _
  | cons later short others ih =>
    cases others <;> exact .cons_cons rfl ih

theorem short (tiles : Tiles finish start ws) : ∀ w ∈ ws.dropLast, w.finish.order finish = .lt := by
  induction tiles with
  | last later reaches => simp
  | cons later short others ih =>
    rw [List.dropLast_cons_of_ne_nil (by rintro rfl; cases others)]
    exact List.forall_mem_cons.2 ⟨short, ih⟩

theorem reaches (tiles : Tiles finish start ws) : ∀ w ∈ ws.getLast?, w.finish.order finish ≠ .lt := by
  induction tiles with
  | last later reaches =>
    rintro w ⟨⟩
    exact reaches
  | cons later short others ih =>
    rw [List.getLast?_cons_of_ne_nil (by rintro rfl; cases others)]
    exact ih

end Tiles

/-- The windows of a series with a start and an end: each goes from where the one ahead of it ends to the point in time
that is a step later, and only the last one reaches the end. -/
structure Series (step : Step) (start finish : DateTime) (ws : List Window) : Prop where
  first : ws.head?.map Window.start = some start
  leads : ∀ w ∈ ws, step.Leads w.start w.finish
  later : ∀ w ∈ ws, w.start.order w.finish = .lt
  follows : ws.IsChain fun w next => w.finish = next.start
  short : ∀ w ∈ ws.dropLast, w.finish.order finish = .lt
  reaches : ∀ w ∈ ws.getLast?, w.finish.order finish ≠ .lt
  told : (ws.map Window.columnSuffix).Nodup

/-- A series of a fixed length is made, whatever its start and its end, or a step on the way leaves the calendar. -/
theorem Pattern.windows_tile {pattern : Pattern} (regular : pattern ≠ .custom) (start finish : DateTime)
    (custom : List Window) : ∃ step, pattern.step? = some step ∧
      ((∃ ws, pattern.windows start finish custom = .ok ws ∧ Series step start finish ws) ∨
        ∃ t, pattern.windows start finish custom = .error (outOfRange t)) ∧
      ∀ e, pattern.windows start finish custom = .error e ↔
        ∃ t, step.Passes finish start t ∧ step.Leaves t ∧ e = outOfRange t := by
  obtain ⟨step, length⟩ : ∃ step, pattern.step? = some step := by
    cases pattern with
    | custom => exact absurd rfl regular
    | _ => exact ⟨_, rfl⟩
  have windows : pattern.windows start finish custom = windowsFrom step finish start := by
    unfold Pattern.windows
    rw [length]
  refine ⟨step, length, ?_, fun e => by rw [windows]; exact windowsFrom_eq_error_iff⟩
  cases made : windowsFrom step finish start with
  | error e =>
    obtain ⟨t, _, _, rfl⟩ := windowsFrom_eq_error_iff.1 made
    exact Or.inr ⟨t, windows.trans made⟩
  | ok ws =>
    have tiles := tiles_windowsFrom made
    have days := Pattern.nodup_days regular (windows.trans made)
    have told : (ws.map Window.columnSuffix).Nodup := by
      rw [show ws.map Window.columnSuffix = (ws.map fun w => w.finish.date).map fun d => "TS" ++ d.compactText by
        rw [List.map_map]
        rfl]
      exact days.map fun d e same => Date.compactText_inj ((String.append_right_inj _).1 same)
    exact Or.inl ⟨ws, windows.trans made, tiles.head?, leads_windowsFrom made, fun w => tiles.start_before,
      tiles.isChain, tiles.short, tiles.reaches, told⟩

/-- Months from the last day of January, and a day after the last one of the calendar. -/
theorem Pattern.visits_tile :
    Series (.months 1) (Visits.noon ⟨2024, 1, 31, by decide⟩) (Visits.noon ⟨2024, 3, 15, by decide⟩) Visits.windows ∧
      Pattern.daily.windows (Visits.noon .last) (Visits.noon .last) [] = .error (outOfRange (Visits.noon .last)) := by
  constructor
  · obtain ⟨step, length, made, _⟩ :=
      windows_tile (show Pattern.monthly ≠ .custom by decide) (Visits.noon ⟨2024, 1, 31, by decide⟩)
        (Visits.noon ⟨2024, 3, 15, by decide⟩) []
    cases length
    rcases made with ⟨ws, made, series⟩ | ⟨t, failed⟩
    · cases Visits.windows_eq.symm.trans made
      exact series
    · cases Visits.windows_eq.symm.trans failed
  · obtain ⟨step, length, _, fails⟩ :=
      windows_tile (show Pattern.daily ≠ .custom by decide) (Visits.noon .last) (Visits.noon .last) []
    cases length
    exact (fails _).2 ⟨_, .here _, Int.lt_succ _, rfl⟩

end Reporting
