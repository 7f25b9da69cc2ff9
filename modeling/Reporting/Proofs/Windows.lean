import Reporting.Computation.Builtin
import Reporting.Computation.Context
import Reporting.Proofs.Calendar.Order
import Reporting.Proofs.Memory
import Reporting.Proofs.Parts

/-!
Series of windows. The windows of a fixed length tile the time from their start on (`tiles_windowsFrom`), so a
point in time between start and end lies in exactly one of them (`Tiles.countP_holds`). What lies before a window is
what lies before the one ahead of it or in that one, so opening balances roll forward (`Pattern.windows_roll`).
-/

namespace Reporting
open Calendar

theorem Step.order_from? {step : Step} {t next : DateTime} (h : step.from? t = some next) : t.order next = .lt :=
  DateTime.order_eq_lt_of_date (Date.order_eq_lt_of_remaining (remaining_from? h))

theorem windowsFrom_eq {step : Step} {finish start next : DateTime} (found : step.from? start = some next) :
    windowsFrom step finish start =
      if next.order finish = .lt then (windowsFrom step finish next).map (⟨start, next⟩ :: ·) else .ok [⟨start, next⟩] := by
  rw [windowsFrom]
  split
  · rename_i none_
    rw [found] at none_
    cases none_
  · rename_i next' found'
    obtain rfl : next = next' := Option.some.inj (found.symm.trans found')
    cases windowsFrom step finish next <;> rfl

/-! ## Windows one after another -/

/-- Each window begins where the one ahead of it ends, the first one at the given start. None is empty, and only the
last one reaches the end. -/
inductive Tiles (finish : DateTime) : DateTime → List Window → Prop
  | last {start next : DateTime} (later : start.order next = .lt) (reaches : next.order finish ≠ .lt) :
      Tiles finish start [⟨start, next⟩]
  | cons {start next : DateTime} {rest : List Window} (later : start.order next = .lt)
      (short : next.order finish = .lt) (others : Tiles finish next rest) : Tiles finish start (⟨start, next⟩ :: rest)

theorem tiles_windowsFrom {step : Step} {finish start : DateTime} {ws : List Window}
    (made : windowsFrom step finish start = .ok ws) : Tiles finish start ws := by
  fun_induction windowsFrom step finish start generalizing ws with
  | case1 start _ => cases made
  | case2 start next found short later made' ih =>
    cases made
    exact .cons (Step.order_from? found) short (ih made')
  | case3 start next found short e failed ih => cases made
  | case4 start next found long =>
    cases made
    exact .last (Step.order_from? found) long

namespace Window

/-- The point in time lies within the window. -/
def holds (w : Window) (t : DateTime) : Bool :=
  t.order w.start != .lt && t.order w.finish == .lt

variable {w : Window} {t : DateTime}

theorem holds_of_early (early : t.order w.start = .lt) : w.holds t = false := by
  unfold holds
  rw [early]
  rfl

theorem holds_of_started (started : t.order w.start ≠ .lt) : w.holds t = (t.order w.finish == .lt) := by
  unfold holds
  rw [bne_iff_ne.2 started, Bool.true_and]

end Window

namespace Tiles
variable {finish start : DateTime} {ws : List Window} {t : DateTime}

theorem start_before {w : Window} (tiles : Tiles finish start ws) (member : w ∈ ws) : w.start.order w.finish = .lt := by
  induction tiles with
  | last later reaches =>
    cases List.mem_singleton.1 member
    exact later
  | cons later short others ih =>
    rcases List.mem_cons.1 member with rfl | member
    · exact later
    · exact ih member

theorem consecutive {w next : Window} {i : Nat} (tiles : Tiles finish start ws) (here : ws[i]? = some w)
    (there : ws[i + 1]? = some next) : w.finish = next.start := by
  induction tiles generalizing i with
  | last later reaches => simp at there
  | @cons start between rest later short others ih =>
    cases i with
    | succ i => exact ih here there
    | zero =>
      cases here
      cases others <;>
        · cases there
          rfl

/-- No window holds what lies before all of them. -/
theorem countP_eq_zero (tiles : Tiles finish start ws) (early : t.order start = .lt) :
    (ws.countP fun w => w.holds t) = 0 := by
  induction tiles with
  | last later reaches => rw [List.countP_singleton, Window.holds_of_early early, if_neg Bool.false_ne_true]
  | cons later short others ih =>
    have rest := ih (Std.TransCmp.lt_trans early later)
    rw [List.countP_cons, Window.holds_of_early early, if_neg Bool.false_ne_true, rest]

/-- Exactly one window holds a point in time from the start on and before the end. -/
theorem countP_holds (tiles : Tiles finish start ws) (started : t.order start ≠ .lt) (until_ : t.order finish = .lt) :
    (ws.countP fun w => w.holds t) = 1 := by
  induction tiles with
  | last later reaches =>
    have within := Std.TransCmp.lt_of_lt_of_isLE until_ (DateTime.order_isLE_of_not_lt reaches)
    rw [List.countP_singleton, Window.holds_of_started started, within]
    rfl
  | @cons start next rest later short others ih =>
    rw [List.countP_cons, Window.holds_of_started started]
    -- The first window holds it, or it lies at or after the start of the others.
    by_cases within : t.order next = .lt
    · rw [others.countP_eq_zero within, within]
      rfl
    · rw [ih within, beq_eq_false_iff_ne.2 within]
      rfl

end Tiles

/-! ## The filters of windows -/

theorem Value.order?_dateTime (v : Value) (t : DateTime) :
    v.order? (.dateTime t) = v.dateTime?.map fun u => u.order t := by
  cases v with
  | text s => simp [order?, dateTime?, toFloat?]
  | _ => rfl

namespace Context
variable {context : Context} {path : String}

/-- The context with the dates of a window of a series. -/
def during (context : Context) (w : Window) : Context :=
  { context with window := some w }

/-- The cell at the path of the dates passes the restriction to dates. -/
def admits (context : Context) (scope : DateScope) (cell : Value) : Bool :=
  (context.dateFilters scope).all fun p => p.accepts cell

theorem admits_window (dated : context.dateField = some path) (w : Window) (cell : Value) :
    (context.during w).admits .window cell = cell.dateTime?.any w.holds := by
  unfold admits dateFilters during Window.filters
  simp only [dated, Predicate.accepts, Predicate.of, Condition.accepts, Value.order?_dateTime, List.all_cons,
    List.all_nil, Bool.and_true]
  cases cell.dateTime? with
  | none => rfl
  | some t =>
    simp only [Option.map_some, Option.any_some, Window.holds]
    cases t.order w.start <;> simp

theorem admits_before (dated : context.dateField = some path) (w : Window) (cell : Value) :
    (context.during w).admits .before cell = cell.dateTime?.any fun t => t.order w.start == .lt := by
  unfold admits dateFilters during Window.filtersBefore
  simp only [dated, Predicate.accepts, Predicate.of, Condition.accepts, Value.order?_dateTime, List.all_cons,
    List.all_nil, Bool.and_true]
  cases cell.dateTime? <;> simp

/-- What is before the end of a window is either before its start or within it. -/
theorem admits_next (dated : context.dateField = some path) {w next : Window} (later : w.start.order w.finish = .lt)
    (follows : w.finish = next.start) (cell : Value) :
    (context.during next).admits .before cell =
        ((context.during w).admits .before cell || (context.during w).admits .window cell) ∧
      ((context.during w).admits .before cell → (context.during w).admits .window cell = false) := by
  rw [admits_before dated, admits_before dated, admits_window dated, ← follows]
  cases cell.dateTime? with
  | none => simp
  | some t =>
    simp only [Option.any_some]
    by_cases early : t.order w.start = .lt
    · rw [Window.holds_of_early early, early, Std.TransCmp.lt_trans early later]
      simp
    · rw [Window.holds_of_started early, beq_eq_false_iff_ne.2 early]
      simp

/-- The filters of a field with those on dates at the end. -/
theorem filtersOf_perm (context : Context) (c : Computation) (sides : FilterSet) :
    (context.filtersOf c ++ sides).Perm
      (context.baseFilters ++ c.baseFilters.getD [] ++ context.filters ++ sides ++ context.dateFilters c.dateScope) := by
  have dates : (context.dateFilters c.dateScope ++ (context.filters ++ sides)).Perm
      (context.filters ++ sides ++ context.dateFilters c.dateScope) := List.perm_append_comm
  have whole := dates.append_left (context.baseFilters ++ c.baseFilters.getD [])
  simpa only [filtersOf, List.append_assoc] using whole

theorem path_of_mem_dateFilters (dated : context.dateField = some path) (w : Window) (scope : DateScope) :
    ∀ p ∈ (context.during w).dateFilters scope, p.path = path := by
  unfold dateFilters during
  rw [dated]
  cases scope <;> simp [Window.filters, Window.filtersBefore, Predicate.of]

theorem dateFilters_ne_nil (dated : context.dateField = some path) (w : Window) (scope : DateScope) :
    (context.during w).dateFilters scope ≠ [] := by
  unfold dateFilters during
  rw [dated]
  cases scope <;> exact fun none_ => List.cons_ne_nil _ _ none_

/-- The records before the end of a window, in two parts. -/
theorem matching_next (dated : context.dateField = some path) {w next : Window} (later : w.start.order w.finish = .lt)
    (follows : w.finish = next.start) {m : Memory} {c : Computation} {sides : FilterSet} {records : List Record}
    (found : m.matching context.entity
      ((context.during next).filtersOf { c with dateScope := .before } ++ sides) = .ok records) :
    ∃ before moved,
      m.matching context.entity ((context.during w).filtersOf { c with dateScope := .before } ++ sides) = .ok before ∧
      m.matching context.entity ((context.during w).filtersOf { c with dateScope := .window } ++ sides) = .ok moved ∧
      records.Perm (before ++ moved) := by
  obtain ⟨place, all, led, matched, rfl⟩ := Memory.exists_of_matching_append_at
    (Memory.matching_of_perm (filtersOf_perm _ _ _) found) (path_of_mem_dateFilters dated next .before)
    (dateFilters_ne_nil dated next .before)
  have part : ∀ scope, m.matching context.entity ((context.during w).filtersOf { c with dateScope := scope } ++ sides) =
      .ok (all.filter fun record => (context.during w).admits scope (m.cellAt record place)) := fun scope =>
    Memory.matching_of_perm (filtersOf_perm _ _ _).symm 
      (Memory.matching_append_at matched led (path_of_mem_dateFilters dated w scope))
  refine ⟨_, _, part .before, part .window, ?_⟩
  have next_ := fun record => admits_next dated later follows (m.cellAt record place)
  refine .trans (.of_eq ?_) (Parts.filter_append_filter_perm fun record _ => (next_ record).2).symm
  exact congrArg (fun test => all.filter test) (funext fun record => (next_ record).1)

end Context

/-! ## Series -/

/-- Of the windows of a series, exactly one admits a date between start and end, and what comes before one of them is
what comes before the previous one or within it, whatever the other filters. -/
theorem Pattern.windows_roll {pattern : Pattern} {start finish : DateTime} {custom ws : List Window}
    (regular : pattern ≠ .custom) (made : pattern.windows start finish custom = .ok ws) {context : Context}
    {path : String} (dated : context.dateField = some path) :
    (∀ (cell : Value) t, cell.dateTime? = some t → t.order start ≠ .lt → t.order finish = .lt →
      (ws.countP fun w => (context.during w).admits .window cell) = 1) ∧
    ∀ i w next, ws[i]? = some w → ws[i + 1]? = some next →
      (∀ cell, (context.during next).admits .before cell =
          ((context.during w).admits .before cell || (context.during w).admits .window cell) ∧
        ((context.during w).admits .before cell → (context.during w).admits .window cell = false)) ∧
      ∀ (m : Memory) (c : Computation) (sides : FilterSet) records,
        m.matching context.entity ((context.during next).filtersOf { c with dateScope := .before } ++ sides) =
          .ok records →
        ∃ before moved,
          m.matching context.entity ((context.during w).filtersOf { c with dateScope := .before } ++ sides) =
            .ok before ∧
          m.matching context.entity ((context.during w).filtersOf { c with dateScope := .window } ++ sides) =
            .ok moved ∧
          records.Perm (before ++ moved) := by
  have tiles : Tiles finish start ws := by
    unfold Pattern.windows at made
    cases pattern with
    | custom => exact absurd rfl regular
    | _ => exact tiles_windowsFrom made
  constructor
  · intro cell t dates started until_
    rw [← tiles.countP_holds started until_]
    refine List.countP_congr fun w _ => ?_
    rw [Context.admits_window dated, dates, Option.any_some]
  · intro i w next here there
    have later := tiles.start_before (List.mem_of_getElem? here)
    have follows := tiles.consecutive here there
    exact ⟨Context.admits_next dated later follows, fun m c sides records => Context.matching_next dated later follows⟩

namespace Visits

def noon (d : Date) : DateTime := ⟨d, 43200, 0, by decide⟩

def memory : Memory :=
  ((Memory.empty (.ofEntities [(Entity.new "visit").withField ⟨"day", none, .date, none⟩])).insertAll "visit"
    [.ofList [("day", .date ⟨2024, 1, 10, by decide⟩)], .ofList [("day", .date ⟨2024, 2, 10, by decide⟩)],
      .ofList [("day", .date ⟨2024, 2, 29, by decide⟩)], .ofList [("day", .null)]]).1

def context : Context :=
  ⟨"visit", [], some "day", none, [], .none, none, none⟩

theorem dated : context.dateField = some "day" :=
  rfl

/-- Two months from noon of the last day of January, the second of which is no longer the last day's. -/
def windows : List Window :=
  [⟨noon ⟨2024, 1, 31, by decide⟩, noon ⟨2024, 2, 29, by decide⟩⟩,
    ⟨noon ⟨2024, 2, 29, by decide⟩, noon ⟨2024, 3, 29, by decide⟩⟩]

def window (i : Fin 2) : Window := windows[i]

theorem windows_eq :
    Pattern.monthly.windows (noon ⟨2024, 1, 31, by decide⟩) (noon ⟨2024, 3, 15, by decide⟩) [] = .ok windows := by
  have first : Step.from? (.months 1) (noon ⟨2024, 1, 31, by decide⟩) = some (noon ⟨2024, 2, 29, by decide⟩) := rfl
  have second : Step.from? (.months 1) (noon ⟨2024, 2, 29, by decide⟩) = some (noon ⟨2024, 3, 29, by decide⟩) := rfl
  show windowsFrom (.months 1) _ _ = _
  rw [windowsFrom_eq first, windowsFrom_eq second]
  rfl

end Visits

/-- The midnight of the leap day is in the first month, and the visits up to then are behind the second. -/
theorem Pattern.visits_roll :
    (Visits.windows.countP fun w => (Visits.context.during w).admits .window (.date ⟨2024, 2, 29, by decide⟩)) = 1 ∧
    ∃ before moved,
      Visits.memory.matching "visit" ((Visits.context.during (Visits.window 0)).filtersOf Builtin.openingBalance) =
        .ok before ∧
      Visits.memory.matching "visit" ((Visits.context.during (Visits.window 0)).filtersOf Builtin.total) = .ok moved ∧
      ((Visits.memory.tableOf "visit").rows.toList.take 3).Perm (before ++ moved) := by
  obtain ⟨once, next⟩ := windows_roll (by decide) Visits.windows_eq Visits.dated
  obtain ⟨_, rolled⟩ := next 0 (Visits.window 0) (Visits.window 1) rfl rfl
  refine ⟨once _ _ rfl (by decide) (by decide), ?_⟩
  obtain ⟨before, moved, early, within, split⟩ :=
    rolled Visits.memory Builtin.total [] ((Visits.memory.tableOf "visit").rows.toList.take 3) rfl
  rw [List.append_nil] at early within
  exact ⟨before, moved, early, within, split⟩

end Reporting
