import Reporting.Proofs.Report.Grouped

/-!
Reports grouped by the cells at a path. The rows are for the different keys of the records, and a plain column takes
each record in the one row with the record's key (`Report.rows_partition`).
-/

namespace Reporting
open Calendar

/-- The column takes what it adds from the records of the report, and subtracts nothing: it is of no window and no
bucket, and neither its field nor the report has further filters or sides for it. -/
structure ComputedColumn.Plain (c : ComputedColumn) (o : ReportOptions) : Prop where
  unwindowed : c.column.window = none
  whole : c.column.bucket = none
  dateScope : c.computation.dateScope = .window
  splits : c.computation.preventGroupBy = false
  baseFilters : c.computation.baseFilters = none
  plusSide : c.computation.plusSide = none ∧ o.plusSide = none
  minusSide : c.computation.minusSide = none ∧ o.minusSide = none

namespace ComputedColumn.Plain
variable {s : Source} {o : ReportOptions} {shape : Shape} {range : Window} {c : ComputedColumn}

theorem context_eq (plain : c.Plain o) (base : Context) (crosstab : Option Crosstab) :
    c.context base crosstab = base := by
  unfold ComputedColumn.context
  rw [plain.unwindowed, plain.whole]
  rfl

theorem debitFilters_eq (plain : c.Plain o) (ranged : shape.context = o.context range) :
    shape.context.debitFilters c.computation = shape.rowFilters := by
  have side : shape.context.plusSide = none := by
    rw [ranged]
    exact plain.plusSide.2
  unfold Context.debitFilters Context.filtersOf Shape.rowFilters
  rw [plain.plusSide.1, side, plain.baseFilters, plain.dateScope]
  simp

theorem creditFilters?_eq (plain : c.Plain o) (ranged : shape.context = o.context range) :
    shape.context.creditFilters? c.computation = none := by
  have side : shape.context.minusSide = none := by
    rw [ranged]
    exact plain.minusSide.2
  unfold Context.creditFilters?
  rw [plain.minusSide.1, side]
  rfl

/-- The aggregates of a plain column are those of the records of the report, by key. -/
theorem aggregates_eq (plain : c.Plain o) (ranged : shape.context = o.context range) {path : String}
    (byPath : o.grouping = .byPath path) (crosstab : Option Crosstab) :
    s.aggregates (c.context shape.context crosstab) c.computation =
      (s.groupAggregate o.entity shape.rowFilters path ⟨c.computation.method, c.computation.field⟩).map fun groups =>
        ⟨.byKey groups, none⟩ := by
  have grouping : shape.context.groupingOf c.computation = .byPath path := by
    unfold Context.groupingOf
    rw [plain.splits, if_neg Bool.false_ne_true, ranged]
    exact byPath
  have entity : shape.context.entity = o.entity := congrArg Context.entity ranged
  unfold Source.aggregates
  rw [plain.context_eq, plain.debitFilters_eq ranged, plain.creditFilters?_eq ranged, grouping, entity]
  dsimp only [Source.totals]
  show Except.map _ (Except.map _ (s.groupAggregate ..)) = _
  cases s.groupAggregate o.entity shape.rowFilters path ⟨c.computation.method, c.computation.field⟩ <;> rfl

end ComputedColumn.Plain

namespace ReportOptions
variable {s : Source} {m : Memory} {o : ReportOptions} {now : DateTime} {report : Report} {w after : Workspace}
  {path : String} {place : ResolvedPath}

/-- The rows of a report that is grouped by a path to no relation are for the different cells there. -/
theorem cells_of_build (built : o.build s now w = (.ok report, after)) (whole : o.groupSets = [])
    (split : o.groupBy = some path) (unlimited : o.limit = none) (resolved : s.schema.resolve o.entity path = .ok place)
    (direct : place.isRelation = false) :
    ∃ cells, s.distinctValues o.entity report.shape.rowFilters path = .ok cells ∧
      report.baseRows.map BaseRow.group = cells.map fun cell => .key cell.key := by
  obtain ⟨rows, between, shaped, asked, _, limited, _⟩ := build_eq_ok built
  have unrelated := relatedEntity_eq_none shaped fun other same => by
    obtain rfl : path = other := Option.some.inj (split.symm.trans same)
    exact ⟨place, resolved, direct⟩
  unfold BaseRow.ask at asked
  rw [if_neg (by simp [whole]), split, unrelated] at asked
  obtain ⟨cells, _, answered, asked⟩ := Session.bind_eq_ok asked
  cases asked
  refine ⟨cells, Session.ask_eq_ok answered, ?_⟩
  rw [limited]
  simp [ReportOptions.limited, unlimited, BaseRow.ofCell]

end ReportOptions

namespace Memory

end Memory

namespace Report
variable {s : Source} {m : Memory} {o : ReportOptions} {now : DateTime} {report : Report} {w after : Workspace}

/-- The report reads the column from an instance of its field that holds the aggregates. If the field requires nothing,
the cells are made of them alone. -/
structure Reads (report : Report) (c : ComputedColumn) (a : Aggregates) : Prop where
  provider : ∃ i, report.plan.provider? c.column = some i ∧ i.computation = c.computation ∧
    report.workspace.aggregates? i = some a
  cells : c.computation.requirements = [] → ∀ base row, report.cell base row c.column =
    (c.computation.resolve ⟨a.debitOf base.group, a.creditOf base.group, [], report.options.dateField.isSome⟩ row).map
      fun v => if report.options.swapSign then v.negate else v

/-- The computed columns are of fields that the registry has all requirements of, and those with one name are of one
window and one bucket. -/
structure Regular (report : Report) (registry : Registry) : Prop where
  covers : ∀ d ∈ Column.computed report.shape.columns, registry.Covers d.computation
  told : ∀ x ∈ Column.computed report.shape.columns, ∀ y ∈ Column.computed report.shape.columns, x.name = y.name →
    x.column.window = y.column.window ∧ x.column.bucket = y.column.bucket

/-- A report that is built reads every computed column from aggregates that the source has given. -/
theorem exists_reads (built : o.build s now w = (.ok report, after)) (regular : report.Regular o.registry)
    {c : ComputedColumn} (member : c ∈ Column.computed report.shape.columns) :
    ∃ a, s.aggregates (c.context report.shape.context report.shape.crosstab) c.computation = .ok a ∧
      report.Reads c a := by
  obtain ⟨rows, between, shaped, _, planned, _, rfl⟩ := ReportOptions.build_eq_ok built
  obtain ⟨scope, produced⟩ := ReportOptions.shape_produced shaped
  have families := ComputedColumn.families_of_produced produced regular.covers
  have apart := ReportOptions.shape_apart shaped regular.told
  obtain ⟨i, provided, settled, same, _⟩ := Plan.provides_of_build families apart planned member
  obtain ⟨a, answered, held⟩ : ∃ a, s.aggregates (c.context report.shape.context report.shape.crosstab) c.computation =
      .ok a ∧ report.workspace.aggregates? i = some a := by
    cases settled with
    | mk answered held each =>
      cases same
      exact ⟨_, answered, held⟩
  refine ⟨a, answered, ⟨i, provided, same, held⟩, fun alone base row => ?_⟩
  obtain ⟨a', answered', cells⟩ := Plan.cell_of_alone families apart planned member alone
  obtain rfl : a = a' := Except.ok.inj (answered.symm.trans answered')
  obtain ⟨range, ranged⟩ := ReportOptions.shape_context shaped
  have dates : report.shape.context.dateField = report.options.dateField := congrArg Context.dateField ranged
  unfold cell
  rw [Column.source_of_computation? (Column.mem_computed.1 member).2]
  dsimp only
  rw [cells, dates]

/-- A plain column is read from aggregates of the records of a report, by the path of its groups: under each key there is
what the column makes of the records with the key, in order, and nothing is subtracted. -/
structure Takes (report : Report) (m : Memory) (o : ReportOptions) (place target : ResolvedPath) (records : List Record)
    (c : ComputedColumn) (a : Aggregates) : Prop where
  answered : m.source.aggregates (c.context report.shape.context report.shape.crosstab) c.computation = .ok a
  debit : ∀ key, m.withKey place records key ≠ [] → a.debitOf (.key key) =
    (c.computation.method.compute? ((m.withKey place records key).map fun record => m.cellAt record target)).getD 0
  credit : ∀ group, a.creditOf group = 0
  reads : c ∈ Column.computed report.shape.columns → report.Regular o.registry → report.Reads c a

theorem exists_takes (built : o.build m.source now w = (.ok report, after)) (whole : o.groupSets = []) {path : String}
    (split : o.groupBy = some path) {place target : ResolvedPath} (resolved : m.schema.resolve o.entity path = .ok place)
    {records : List Record} (matched : m.matching o.entity report.shape.rowFilters = .ok records) {c : ComputedColumn}
    (plain : c.Plain o) (reached : m.schema.resolve o.entity c.computation.field = .ok target) :
    ∃ a, report.Takes m o place target records c a := by
  obtain ⟨_, _, shaped, _⟩ := ReportOptions.build_eq_ok built
  obtain ⟨range, ranged⟩ := ReportOptions.shape_context shaped
  have byPath : o.grouping = .byPath path := by simp [ReportOptions.grouping, whole, split]
  obtain ⟨totals, grouped, _, _, lookup⟩ := Memory.groupAggregate_of_matching resolved
    (show m.schema.resolve o.entity (Aggregation.mk c.computation.method c.computation.field).field = _ from reached) matched
  have answered : m.source.aggregates (c.context report.shape.context report.shape.crosstab) c.computation =
      .ok ⟨.byKey totals, none⟩ := by
    rw [plain.aggregates_eq ranged byPath]
    exact Results.map_eq_ok_iff.2 ⟨totals, grouped, rfl⟩
  refine ⟨_, answered, fun key some_ => ?_, fun _ => rfl, fun member regular => ?_⟩
  · show (totals.lookup key).getD 0 = _
    rw [lookup, if_neg some_]
  · obtain ⟨a, answered', reads⟩ := exists_reads built regular member
    obtain rfl := Except.ok.inj (answered.symm.trans answered')
    exact reads

end Report
end Reporting
