import Reporting.Proofs.Computation.Measures
import Reporting.Proofs.Report.Naming

/-!
Movements and balances in the rows of reports. A report over the fields that are there to begin with has all of its
rows, and wherever a row shows the fields of one measure for one window and one bucket, they add up
(`Report.measures_balance`): the cells may come from different instances, or one from what another requires, but all
of these hold the source's aggregates of the one context.
-/

namespace Reporting
open Calendar

/-! ## Columns that keep their cells -/

namespace ColumnScope
variable {scope : ColumnScope} {entry : ColumnEntry} {c : Column}

theorem name_of_find {f : Computation} (means : scope.find entry = .ok c) (computed : c.computation? = some f) :
    c.name = f.name ∧ c.name ≠ indexColumn := by
  unfold find at means
  dsimp only at means
  split at means
  · cases means
    cases computed
  · rename_i other
    split at means
    · cases means
      cases computed
      exact ⟨rfl, other⟩
    · split at means
      · rename_i g found
        cases means
        cases computed
        have own : f.name = entry.name := (scope.registry.own _ (Keyed.mem_of_get? found)).symm
        exact ⟨rfl, fun same => other (own ▸ same)⟩
      · split at means
        · cases means
          cases computed
        · split at means <;> cases means
          cases computed

/-- A column of the records or of the report itself does not have the name of a field of the registry. -/
theorem unregistered_of_find (means : scope.find entry = .ok c) (other : c.computation? = none) :
    c.name = indexColumn ∨ scope.registry.fields.get? c.name = none := by
  unfold find at means
  dsimp only at means
  split at means
  · rename_i index
    cases means
    exact Or.inl index
  · split at means
    · cases means
      cases other
    · split at means
      · cases means
        cases other
      · rename_i absent
        refine Or.inr ?_
        split at means
        · cases means
          exact absent
        · split at means <;> cases means
          exact absent

theorem column_eq_ok (means : scope.column entry = .ok c) :
    ∃ found, scope.find entry = .ok found ∧ c.name = found.name ∧ c.computation? = found.computation? := by
  obtain ⟨found, entered, rfl⟩ := Results.map_eq_ok_iff.1 means
  obtain ⟨name, _, source, _, _⟩ := Column.withOptions_regular entry.options? found
  refine ⟨found, entered, name, ?_⟩
  unfold Column.computation?
  rw [source]

end ColumnScope

namespace ReportOptions
variable {o : ReportOptions} {schema : Schema} {shape : Shape} {groupPath : Option ResolvedPath} {scope : ColumnScope}

/-- No column takes the name of a computed column before it, where the computed ones have different names and come from
the registry. -/
theorem Shaped.keeps (parts : o.Shaped schema shape groupPath scope)
    (registered : ∀ c ∈ Column.computed shape.columns, o.registry.get c.computation.name = .ok c.computation)
    (names : ((Column.computed shape.columns).map ComputedColumn.name).Nodup) :
    shape.columns.Pairwise fun a b => a.computation?.isSome → b.name ≠ a.name := by
  have apart := Column.pairwise_of_names names
  have entered : ∀ c ∈ shape.plainColumns, ∃ entry found, scope.find entry = .ok found ∧ c.name = found.name ∧
      c.computation? = found.computation? := by
    intro c member
    obtain ⟨entry, means⟩ := ColumnScope.entry_of_columns parts.plain member
    exact ⟨entry, ColumnScope.column_eq_ok means⟩
  unfold Shape.columns at apart registered ⊢
  rw [List.append_assoc, List.pairwise_append] at apart ⊢
  obtain ⟨plain, others, between⟩ := apart
  refine ⟨plain.imp_of_mem fun {a b} hereA hereB differ computed => ?_,
    others.imp_of_mem fun {a b} _ hereB differ computed => differ computed (parts.computed_of_copies b hereB),
    fun a hereA b hereB computed => between a hereA b hereB computed (parts.computed_of_copies b hereB)⟩
  cases field : b.computation? with
  | some g => exact differ computed (by rw [field]; rfl)
  | none =>
    -- the entry of a computed column names a field, and that of another column does not
    obtain ⟨f, fieldA⟩ := Option.isSome_iff_exists.1 computed
    obtain ⟨entryA, foundA, meansA, nameA, sameA⟩ := entered a hereA
    obtain ⟨entryB, foundB, meansB, nameB, sameB⟩ := entered b hereB
    obtain ⟨named, notIndex⟩ := ColumnScope.name_of_find meansA (sameA ▸ fieldA)
    have known := registered ⟨a, f⟩ (Column.mem_computed.2 ⟨by simp [hereA], fieldA⟩)
    intro same
    rcases ColumnScope.unregistered_of_find meansB (sameB ▸ field) with index | absent
    · rw [← nameB, same, nameA] at index
      exact notIndex index
    · rw [← nameB, same, nameA, named, parts.entries] at absent
      rw [Registry.get_eq_ok_iff.1 known] at absent
      cases absent

end ReportOptions

namespace Report
variable {report : Report} {base : BaseRow} {c : Column} {columns : List Column} {row filled : Row}

/-- A row can be filled where no cell fails. -/
theorem fill_of_cells (cells : ∀ c ∈ columns, ∀ row, ∃ v, report.cell base row c = .ok v) (row : Row) :
    ∃ filled, report.fill base columns row = .ok filled := by
  induction columns generalizing row with
  | nil => exact ⟨row, rfl⟩
  | cons c rest ih =>
    obtain ⟨v, found⟩ := cells c (List.mem_cons_self ..) row
    obtain ⟨filled, ran⟩ := ih (fun d member => cells d (List.mem_cons_of_mem c member)) (row.insert c.name v)
    refine ⟨filled, ?_⟩
    unfold fill
    rw [found]
    exact ran

variable {s : Source} {o : ReportOptions} {now : DateTime} {w after : Workspace}

/-- The row shows the number for the field, in the column of the window and the bucket. -/
def Shows (report : Report) (row : Row) (key : ContextKey) (f : Computation) (x : Float) : Prop :=
  ∃ c ∈ Column.computed report.shape.columns, c.contextKey = key ∧ c.computation = f ∧
    row.get? c.name = some (.float x)

/-- The cell of a column is what its field gives in the context of its window and its bucket. -/
theorem gives_of_build (built : o.build s now w = (.ok report, after)) (defaults : o.registry = .withDefaults)
    (builtin : ∀ c ∈ Column.computed report.shape.columns, c.computation ∈ Builtin.all)
    (names : ((Column.computed report.shape.columns).map ComputedColumn.name).Nodup) (unsigned : o.swapSign = false)
    {c : ComputedColumn} (member : c ∈ Column.computed report.shape.columns) (base : BaseRow) (row : Row) :
    ∃ v, report.cell base row c.column = .ok v ∧
      c.computation.Gives .withDefaults s
        (c.contextKey.context (Column.computed report.shape.columns) report.shape.context report.shape.crosstab)
        base.group v := by
  obtain ⟨rows, between, shaped, _, planned, _, rfl⟩ := ReportOptions.build_eq_ok built
  obtain ⟨scope, produced⟩ := ReportOptions.shape_produced shaped
  rw [defaults] at planned
  have families := ComputedColumn.families_of_produced produced fun d inside => Builtin.covers (builtin d inside)
  have apart := ReportOptions.shape_apart shaped fun a ha b hb same => by
    rw [List.inj_on_of_nodup_map names ha hb same]
    exact ⟨rfl, rfl⟩
  obtain ⟨i, provided, settled, same, unfolds⟩ := Plan.provides_of_build families apart planned member
  have root : i.tree.root = c.computation := by rw [Instance.root_tree, same]
  obtain ⟨v, given⟩ := Builtin.value_ok unfolds (root ▸ builtin c member) settled.answered base.group row
  refine ⟨v, ?_, ?_⟩
  · unfold cell
    rw [Column.source_of_computation? (Column.mem_computed.1 member).2]
    dsimp only
    rw [Plan.cell_of_provider? provided, settled.cell_eq, given, unsigned]
    rfl
  · rw [Plan.context_contextKey apart member]
    exact ⟨i.tree, root, unfolds, row, given⟩

/-- All rows are there, and each has for the computed columns what their fields give for one group. -/
theorem rows_give (built : o.build s now w = (.ok report, after)) (defaults : o.registry = .withDefaults)
    (builtin : ∀ c ∈ Column.computed report.shape.columns, c.computation ∈ Builtin.all)
    (names : ((Column.computed report.shape.columns).map ComputedColumn.name).Nodup)
    (fixed : ∀ c ∈ report.shape.columns, ∀ a, c.source ≠ .perRow a) (unhooked : o.formatRow = id)
    (unsigned : o.swapSign = false) :
    ∃ rows, report.rows = .ok rows ∧ rows.length = report.baseRows.length ∧ ∀ row ∈ rows, ∃ group,
      ∀ c ∈ Column.computed report.shape.columns, ∃ v, row.get? c.name = some v ∧
        c.computation.Gives .withDefaults s
          (c.contextKey.context (Column.computed report.shape.columns) report.shape.context report.shape.crosstab)
          group v := by
  have gives := fun {c} member => gives_of_build built defaults builtin names unsigned (c := c) member
  obtain ⟨_, _, shaped, _, _, _, rfl⟩ := ReportOptions.build_eq_ok built
  obtain ⟨_, scope, parts⟩ := ReportOptions.shape_eq_ok shaped
  have keeps := parts.keeps (fun c member => by rw [defaults]; exact Builtin.get (builtin c member)) names
  have each : ∀ base ∈ report.baseRows, ∃ row,
      (report.fill base report.shape.columns .empty).map report.options.formatRow = .ok row := by
    intro base _
    have cells : ∀ c ∈ report.shape.columns, ∀ row, ∃ v, report.cell base row c = .ok v := by
      intro c member row
      cases source : c.source with
      | database path => exact ⟨base.record.cell path, by rw [cell, source]⟩
      | perRow a => exact absurd source (fixed c member a)
      | computation f =>
        have field : c.computation? = some f := by rw [Column.computation?, source]
        obtain ⟨v, found, _⟩ := gives (c := ⟨c, f⟩) (Column.mem_computed.2 ⟨member, field⟩) base row
        exact ⟨v, found⟩
    obtain ⟨row, ran⟩ := fill_of_cells cells .empty
    exact ⟨row, by rw [ran, unhooked]; rfl⟩
  obtain ⟨rows, ran, length⟩ := Results.mapM_of_each each
  refine ⟨rows, ran, length, fun row among => ?_⟩
  obtain ⟨base, _, made⟩ := Results.exists_of_mapM ran among
  obtain ⟨filled, ran', same⟩ := Results.map_eq_ok_iff.1 made
  obtain rfl : filled = row := by rw [← same, unhooked]; rfl
  refine ⟨base.group, fun c member => ?_⟩
  obtain ⟨inside, field⟩ := Column.mem_computed.1 member
  obtain ⟨before, v, found, there⟩ := get?_fill_of_pairwise keeps inside (by rw [field]; rfl) ran'
  obtain ⟨v', found', given⟩ := gives member base before
  obtain rfl : v = v' := Except.ok.inj (found.symm.trans found')
  exact ⟨v, there, given⟩

/-- A report over the fields that are there to begin with, with different names for the computed columns, has all of its
rows. In each of them the computed columns show numbers, but for shares, which can be missing. Among the numbers for
one window and one bucket, the movement is what is added less what is subtracted, and the balance is that on top of the
opening balance, which is zero without dates; values and quantities alike. -/
theorem measures_balance (built : o.build s now w = (.ok report, after)) (defaults : o.registry = .withDefaults)
    (builtin : ∀ c ∈ Column.computed report.shape.columns, c.computation ∈ Builtin.all)
    (names : ((Column.computed report.shape.columns).map ComputedColumn.name).Nodup)
    (fixed : ∀ c ∈ report.shape.columns, ∀ a, c.source ≠ .perRow a) (unhooked : o.formatRow = id)
    (unsigned : o.swapSign = false) :
    ∃ rows, report.rows = .ok rows ∧ rows.length = report.baseRows.length ∧ ∀ row ∈ rows,
      (∀ c ∈ Column.computed report.shape.columns, ∃ v, row.get? c.name = some v ∧
        (c.computation ≠ Builtin.percentToTotalBalance → ∃ x, v = .float x)) ∧
      ∀ key, ∀ μ ∈ [Builtin.values, Builtin.quantities],
        (∀ debit credit total, report.Shows row key μ.debit debit → report.Shows row key μ.credit credit →
          report.Shows row key μ.total total → total = debit - credit) ∧
        (∀ debit credit opening balance, report.Shows row key μ.debit debit → report.Shows row key μ.credit credit →
          report.Shows row key μ.opening opening → report.Shows row key μ.balance balance →
          balance = (debit - credit) + opening) ∧
        (o.dateField = none → ∀ opening, report.Shows row key μ.opening opening → opening = 0) := by
  obtain ⟨rows, ran, length, shown⟩ := rows_give built defaults builtin names fixed unhooked unsigned
  obtain ⟨_, _, shaped, _, _, _, rfl⟩ := ReportOptions.build_eq_ok built
  obtain ⟨_, _, parts⟩ := ReportOptions.shape_eq_ok shaped
  refine ⟨rows, ran, length, fun row among => ?_⟩
  obtain ⟨group, shown⟩ := shown row among
  refine ⟨fun c member => ?_, fun key μ listed => ?_⟩
  · obtain ⟨v, there, given⟩ := shown c member
    exact ⟨v, there, fun whole => Builtin.float_of_gives (builtin c member) whole given⟩
  · have lawful := Builtin.lawful listed
    have number : ∀ {f x}, report.Shows row key f x → f.Gives .withDefaults s
        (key.context (Column.computed report.shape.columns) report.shape.context report.shape.crosstab) group
        (.float x) := by
      rintro _ x ⟨c, member, rfl, rfl, there⟩
      obtain ⟨v, there', given⟩ := shown c member
      obtain rfl : v = .float x := Option.some.inj (there'.symm.trans there)
      exact given
    refine ⟨fun debit credit total added subtracted moved => ?_,
      fun debit credit opening balance added subtracted opened closed => ?_, fun undated opening opened => ?_⟩
    · exact lawful.total_eq (number added) (number subtracted) (number moved)
    · exact lawful.balance_eq (number added) (number subtracted) (number opened) (number closed)
    · refine lawful.opening_eq_zero ?_ (number opened)
      rw [ContextKey.dateField_context, parts.context]
      exact undated

end Report

namespace Sales

/-- The fields of a statement, the balance before what it is made of. -/
def stated : List Computation :=
  [Builtin.balance, Builtin.total, Builtin.debit, Builtin.credit, Builtin.openingBalance]

/-- Movements and balances of the clients; sales of ten and less are subtracted. -/
def statement : ReportOptions :=
  { entity := "sale", registry := .withDefaults, groupBy := some "client", dateField := some "day"
    start := some year.start, finish := some year.finish, plusSide := some [.of "value" (.gt (.float 10))]
    minusSide := some [.of "value" (.lte (.float 10))]
    columns := .named "client" :: stated.map fun f => .named f.name }

def statementShape : Shape where
  range := year
  plainColumns := .plain "client" "client" (.database "client") "integer" :: stated.map .ofComputation
  display := (List.range (stated.length + 1)).map .column
  timeSeriesColumns := []
  crosstabColumns := []
  crosstab := none
  context := statement.context year
  relatedEntity := none

theorem statementShape_eq : statement.shape schema year.start = .ok statementShape :=
  rfl

theorem computed_statement : Column.computed statementShape.columns = stated.map fun f => ⟨.ofComputation f, f⟩ :=
  rfl

theorem stated_builtin : stated ⊆ Builtin.all := by
  simp [stated, Builtin.all]

theorem statement_builtin : ∀ c ∈ Column.computed statementShape.columns, c.computation ∈ Builtin.all := by
  intro c member
  rw [computed_statement] at member
  obtain ⟨f, listed, rfl⟩ := List.mem_map.1 member
  exact stated_builtin listed

theorem stated_unfolds {f : Computation} (listed : f ∈ stated) :
    ∃ t : FieldTree, t.root = f ∧ t.Unfolds .withDefaults [] ∧ ∀ d ∈ t.fields, d ∈ stated := by
  have alone : ∀ c ∈ stated, c.requirements = [] →
      ∃ t : FieldTree, t.root = c ∧ t.Unfolds .withDefaults [] ∧ ∀ d ∈ t.fields, d ∈ stated := by
    intro c member none_
    refine ⟨.node c [], rfl, FieldTree.unfolds_of_alone none_, ?_⟩
    simpa [FieldTree.fields, FieldTree.fieldsOf] using member
  simp only [stated, List.mem_cons, List.not_mem_nil, or_false] at listed
  rcases listed with rfl | rfl | rfl | rfl | rfl
  · refine ⟨Builtin.balanceTree, rfl, Builtin.unfolds_balanceTree List.not_mem_nil List.not_mem_nil, ?_⟩
    simp [Builtin.balanceTree, Builtin.openingTree, FieldTree.fields, FieldTree.fieldsOf, stated]
  · refine ⟨Builtin.totalTree, rfl, Builtin.unfolds_totalTree, ?_⟩
    simp [Builtin.totalTree, FieldTree.fields, FieldTree.fieldsOf, stated]
  all_goals exact alone _ (by simp [stated]) rfl

theorem statement_built : ∃ report after, statement.build memory.source year.start .empty = (.ok report, after) ∧
    report.shape = statementShape ∧ report.baseRows = [.ofCell "client" (.int 1), .ofCell "client" .null] := by
  obtain ⟨between, asked⟩ : ∃ between, BaseRow.ask statement statementShape memory.source .empty =
      (.ok [.ofCell "client" (.int 1), .ofCell "client" .null], between) := ⟨_, rfl⟩
  obtain ⟨scope, produced⟩ := ReportOptions.shape_produced statementShape_eq
  have families := ComputedColumn.families_of_produced produced fun c member => Builtin.covers (statement_builtin c member)
  have listed : ∀ c ∈ Column.computed statementShape.columns,
      ∃ ds, Registry.withDefaults.dependencies c.computation = .ok ds := by
    intro c member
    rw [computed_statement] at member
    obtain ⟨f, listed, rfl⟩ := List.mem_map.1 member
    obtain ⟨t, root, unfolds, _⟩ := stated_unfolds listed
    exact root ▸ Registry.dependencies_of_unfolds unfolds
  have answers : ∀ c ∈ Column.computed statementShape.columns, ∀ d, Registry.withDefaults.Reaches c.computation d →
      ∃ a, memory.source.aggregates
        (c.contextKey.context (Column.computed statementShape.columns) statementShape.context statementShape.crosstab) d =
          .ok a := by
    intro c member d reaches
    rw [computed_statement] at member
    obtain ⟨f, listed, rfl⟩ := List.mem_map.1 member
    obtain ⟨t, rfl, unfolds, inside⟩ := stated_unfolds listed
    have field := inside d (unfolds.mem_fields_iff.2 reaches)
    show ∃ a, memory.source.aggregates (statement.context year) d = .ok a
    simp only [stated, List.mem_cons, List.not_mem_nil, or_false] at field
    rcases field with rfl | rfl | rfl | rfl | rfl <;> exact ⟨_, rfl⟩
  obtain ⟨plan, after, planned⟩ := Plan.build_of_answers families listed answers between
  exact ⟨_, after, ReportOptions.build_of_parts statementShape_eq asked planned, rfl, rfl⟩

end Sales

namespace Report

/-- In the rows of both clients. -/
theorem statement_balances : ∃ report after rows,
    Sales.statement.build Sales.memory.source Sales.year.start .empty = (.ok report, after) ∧ report.rows = .ok rows ∧
      rows.length = 2 ∧ ∀ row ∈ rows, ∃ debit credit opening : Float,
        row.get? "__debit__" = some (.float debit) ∧ row.get? "__credit__" = some (.float credit) ∧
        row.get? "__total__" = some (.float (debit - credit)) ∧ row.get? "__fb__" = some (.float opening) ∧
        row.get? "__balance__" = some (.float ((debit - credit) + opening)) := by
  obtain ⟨report, after, built, shape, bases⟩ := Sales.statement_built
  have computed : Column.computed report.shape.columns = Sales.stated.map fun f => ⟨.ofComputation f, f⟩ := by
    rw [shape, Sales.computed_statement]
  have sources : ∀ c ∈ report.shape.columns, ∀ a, c.source ≠ .perRow a := by
    rw [shape]
    intro c member a
    have among : c ∈ Column.plain "client" "client" (.database "client") "integer" ::
        Sales.stated.map Column.ofComputation := member
    rcases List.mem_cons.1 among with rfl | among
    · exact nofun
    · obtain ⟨f, _, rfl⟩ := List.mem_map.1 among
      exact nofun
  obtain ⟨rows, ran, length, each⟩ := measures_balance built rfl (by rw [shape]; exact Sales.statement_builtin)
    (by rw [computed]; decide) sources rfl rfl
  refine ⟨report, after, rows, built, ran, by rw [length, bases]; rfl, fun row member => ?_⟩
  obtain ⟨shown, sums⟩ := each row member
  have number : ∀ f ∈ Sales.stated, ∃ x, report.Shows row ⟨none, none⟩ f x ∧ row.get? f.name = some (.float x) := by
    intro f listed
    have whole : f ≠ Builtin.percentToTotalBalance := by
      rintro rfl
      exact absurd (List.mem_map_of_mem (f := Computation.name) listed) (by decide)
    have among : (⟨.ofComputation f, f⟩ : ComputedColumn) ∈ Column.computed report.shape.columns := by
      rw [computed]
      exact List.mem_map_of_mem listed
    obtain ⟨v, there, float⟩ := shown _ among
    obtain ⟨x, rfl⟩ := float whole
    exact ⟨x, ⟨_, among, rfl, rfl, there⟩, there⟩
  obtain ⟨debit, added, debitCell⟩ := number Builtin.debit (by simp [Sales.stated])
  obtain ⟨credit, subtracted, creditCell⟩ := number Builtin.credit (by simp [Sales.stated])
  obtain ⟨total, moved, totalCell⟩ := number Builtin.total (by simp [Sales.stated])
  obtain ⟨opening, opened, openingCell⟩ := number Builtin.openingBalance (by simp [Sales.stated])
  obtain ⟨balance, closed, balanceCell⟩ := number Builtin.balance (by simp [Sales.stated])
  obtain ⟨totals, balances, _⟩ := sums ⟨none, none⟩ Builtin.values (by simp)
  rw [totals debit credit total added subtracted moved] at totalCell
  rw [balances debit credit opening balance added subtracted opened closed] at balanceCell
  exact ⟨debit, credit, opening, debitCell, creditCell, totalCell, openingCell, balanceCell⟩

end Report
end Reporting
