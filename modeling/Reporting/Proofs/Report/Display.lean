import Reporting.Proofs.Parts
import Reporting.Proofs.Report.Balances

/-!
The columns that a report shows, and its rows. The list of columns is shown with the blocks of the time series and of the
cross-tab in their places (`ReportOptions.laid_of_shape`), and rows have the cells of these columns and no others
(`Report.display_covered`).
-/

namespace Reporting
open Calendar

/-! ## Rows -/

namespace Row

/-- A name that is there keeps its place, and another one comes last. -/
theorem columns_insert (row : Row) (name : String) (v : Value) :
    (row.insert name v).columns = if name ∈ row.columns then row.columns else row.columns ++ [name] := by
  obtain ⟨cells⟩ := row
  show (putCell name v cells).map Prod.fst = if name ∈ cells.map Prod.fst then cells.map Prod.fst else cells.map Prod.fst ++ [name]
  induction cells with
  | nil => rfl
  | cons cell rest ih =>
    obtain ⟨other, held⟩ := cell
    unfold putCell
    by_cases same : other = name
    · simp [same]
    · rw [if_neg same, List.map_cons, ih]
      by_cases inside : name ∈ rest.map Prod.fst
      · simp [inside]
      · simp [inside, Ne.symm same]

theorem contains_iff {row : Row} {name : String} : row.contains name ↔ name ∈ row.columns := by
  obtain ⟨cells⟩ := row
  show (cells.lookup name).isSome ↔ name ∈ cells.map Prod.fst
  induction cells with
  | nil => simp
  | cons cell rest ih =>
    rw [List.lookup_cons, List.map_cons, List.mem_cons]
    by_cases same : name = cell.1
    · simp [same]
    · rw [beq_eq_false_iff_ne.2 same, ih]
      simp [same]

end Row

namespace Report
variable {report : Report} {base : BaseRow} {columns : List Column} {row filled : Row}

/-- To the columns of the row come the others, each where its name is met first. -/
theorem columns_fill (ran : report.fill base columns row = .ok filled) :
    filled.columns = row.columns ++ ((columns.map Column.name).filter fun name => name ∉ row.columns).eraseDups := by
  induction columns generalizing row with
  | nil =>
    cases ran
    simp
  | cons c rest ih =>
    unfold fill at ran
    split at ran
    · rw [ih ran, Row.columns_insert, List.map_cons]
      by_cases inside : c.name ∈ row.columns
      · rw [if_pos inside, List.filter_cons_of_neg (by simpa using inside)]
      · rw [if_neg inside, List.filter_cons_of_pos (by simpa using inside), List.eraseDups_cons, List.filter_filter,
          List.append_assoc, List.singleton_append]
        congr 3
        refine List.filter_congr fun name _ => Bool.eq_iff_iff.2 ?_
        simp [and_comm]
    · cases ran

theorem columns_fill_empty (ran : report.fill base columns .empty = .ok filled) :
    filled.columns = (columns.map Column.name).eraseDups := by
  have all : (columns.map Column.name).filter (fun name => name ∉ Row.empty.columns) = columns.map Column.name :=
    List.filter_eq_self.2 fun _ _ => decide_eq_true List.not_mem_nil
  rw [columns_fill ran, all]
  rfl

end Report

/-! ## Columns shown -/

/-- The position of the plain column whose place it is. -/
def DisplayItem.position? : DisplayItem → Option Nat
  | column position => some position
  | _ => none

namespace ReportOptions
variable {o : ReportOptions} {schema : Schema} {now : DateTime} {shape : Shape} {scope : ColumnScope}

/-- The list of columns, with the number of the filter set in front where there are filter sets and it is not listed. -/
def requested (o : ReportOptions) : List ColumnEntry :=
  if o.groupSets ≠ [] ∧ ∀ e ∈ o.columns, e.name ≠ indexColumn then .named indexColumn :: o.columns else o.columns

theorem columnEntries_eq (o : ReportOptions) : o.columnEntries = o.requested := by
  unfold columnEntries requested
  congr 1
  simp

/-- What the entries of the report's columns can name. -/
def scopeOf (o : ReportOptions) (schema : Schema) (groupPath : Option ResolvedPath) : ColumnScope :=
  ⟨schema, (o.relatedEntity groupPath).getD o.entity, o.registry, o.attributes, o.name, o.groupLabel⟩

/-- What is shown in place of an entry: its own column, or a block if there is one. -/
def block (o : ReportOptions) (scope : ColumnScope) (shape : Shape) (e : ColumnEntry) : List Column :=
  if e.name = timeSeriesPlaceholder then if o.pattern.isSome then shape.timeSeriesColumns else []
  else if e.name = crosstabPlaceholder then if o.crosstabField.isSome then shape.crosstabColumns else []
  else (scope.column e).toOption.toList

/-- What is shown after the list: the blocks that have no place in it. -/
def trailing (o : ReportOptions) (shape : Shape) : List Column :=
  (if o.pattern.isSome ∧ ∀ e ∈ o.requested, e.name ≠ timeSeriesPlaceholder then shape.timeSeriesColumns else []) ++
    if o.crosstabField.isSome ∧ ∀ e ∈ o.requested, e.name ≠ crosstabPlaceholder then shape.crosstabColumns else []

/-- The columns of the shape are laid out as the list has it: the places of plain columns are numbered as these are, and
what stands in the places is what is shown in place of each entry. -/
structure Laid (o : ReportOptions) (scope : ColumnScope) (shape : Shape) : Prop where
  means : ∀ e ∈ o.requested, e.isPlaceholder = false → ∃ c, scope.column e = .ok c
  plain : scope.columns o.requested = .ok shape.plainColumns
  positions : shape.display.filterMap DisplayItem.position? = List.range shape.plainColumns.length
  shown : shape.displayColumns = o.requested.flatMap (o.block scope shape) ++ o.trailing shape
  timeSeries : o.pattern = none → shape.timeSeriesColumns = []
  crosstab : o.crosstabField = none → shape.crosstabColumns = []

/-! ## Places -/

/-- The columns that stand in a place. -/
def columnsAt (shape : Shape) : DisplayItem → List Column
  | .column position => shape.plainColumns[position]?.toList
  | .timeSeries => shape.timeSeriesColumns
  | .crosstab => shape.crosstabColumns

theorem displayColumns_eq (shape : Shape) : shape.displayColumns = shape.display.flatMap (columnsAt shape) :=
  rfl

section Places
variable {e : ColumnEntry} {rest entries : List ColumnEntry} {position : Nat} {columns : List Column}

theorem placesFrom_of_timeSeries (named : e.name = timeSeriesPlaceholder) : o.placesFrom position (e :: rest) =
    (if o.pattern.isSome then [.timeSeries] else []) ++ o.placesFrom position rest := by
  rw [placesFrom, if_pos (beq_iff_eq.2 named)]

theorem placesFrom_of_crosstab (named : e.name = crosstabPlaceholder) : o.placesFrom position (e :: rest) =
    (if o.crosstabField.isSome then [.crosstab] else []) ++ o.placesFrom position rest := by
  have other : (e.name == timeSeriesPlaceholder) = false := by
    rw [named]
    decide
  rw [placesFrom, if_neg (by simp [other]), if_pos (beq_iff_eq.2 named)]

theorem placesFrom_of_column (ordinary : e.isPlaceholder = false) :
    o.placesFrom position (e :: rest) = .column position :: o.placesFrom (position + 1) rest := by
  obtain ⟨other, another⟩ : e.name ≠ timeSeriesPlaceholder ∧ e.name ≠ crosstabPlaceholder := by
    simpa [ColumnEntry.isPlaceholder] using ordinary
  rw [placesFrom, if_neg (by simpa using other), if_neg (by simpa using another)]

/-- An entry is the place of one of the blocks, or one for a column. -/
theorem entry_cases (e : ColumnEntry) :
    e.name = timeSeriesPlaceholder ∨ e.name = crosstabPlaceholder ∨ e.isPlaceholder = false := by
  by_cases series : e.name = timeSeriesPlaceholder
  · exact Or.inl series
  · by_cases cross : e.name = crosstabPlaceholder
    · exact Or.inr (Or.inl cross)
    · exact Or.inr (Or.inr (by simp [ColumnEntry.isPlaceholder, series, cross]))

theorem columns_cons_of_placeholder (placeholder : e.isPlaceholder) : scope.columns (e :: rest) = scope.columns rest := by
  unfold ColumnScope.columns
  rw [List.filter_cons_of_neg (by simp [placeholder])]

theorem columns_cons_eq_ok (ordinary : e.isPlaceholder = false) (means : scope.columns (e :: rest) = .ok columns) :
    ∃ c others, scope.column e = .ok c ∧ scope.columns rest = .ok others ∧ columns = c :: others := by
  unfold ColumnScope.columns at means ⊢
  rw [List.filter_cons_of_pos (by simp [ordinary])] at means
  obtain ⟨c, others, first, later, same⟩ := Results.mapM_cons_eq_ok_iff.1 means
  exact ⟨c, others, first, later, same⟩

/-- What stands in the places of entries, of which the columns come after those of the entries before. -/
theorem flatMap_placesFrom (before : List Column) (means : scope.columns entries = .ok columns) (shape : Shape)
    (placed : shape.plainColumns = before ++ columns) :
    (o.placesFrom before.length entries).flatMap (columnsAt shape) = entries.flatMap (o.block scope shape) := by
  induction entries generalizing before columns with
  | nil => rfl
  | cons e rest ih =>
    rcases entry_cases e with named | named | ordinary
    · rw [columns_cons_of_placeholder (by simp [ColumnEntry.isPlaceholder, named])] at means
      rw [placesFrom_of_timeSeries named, List.flatMap_append, List.flatMap_cons, ih before means placed, block, if_pos named]
      split <;> simp [columnsAt]
    · rw [columns_cons_of_placeholder (by simp [ColumnEntry.isPlaceholder, named])] at means
      have other : e.name ≠ timeSeriesPlaceholder := by
        rw [named]
        decide
      rw [placesFrom_of_crosstab named, List.flatMap_append, List.flatMap_cons, ih before means placed, block, if_neg other,
        if_pos named]
      split <;> simp [columnsAt]
    · obtain ⟨c, others, first, later, rfl⟩ := columns_cons_eq_ok ordinary means
      obtain ⟨other, another⟩ : e.name ≠ timeSeriesPlaceholder ∧ e.name ≠ crosstabPlaceholder := by
        simpa [ColumnEntry.isPlaceholder] using ordinary
      -- The column of the entry has the position that its place tells, and the others come after it.
      have next := ih (before ++ [c]) later (by rw [placed, List.append_assoc, List.singleton_append])
      rw [List.length_append, List.length_singleton] at next
      have here : columnsAt shape (.column before.length) = [c] := by simp [columnsAt, placed]
      have own : o.block scope shape e = [c] := by
        rw [block, if_neg other, if_neg another, first]
        rfl
      rw [placesFrom_of_column ordinary, List.flatMap_cons, List.flatMap_cons, next, here, own]

/-- The places of plain columns are numbered one after another. -/
theorem positions_placesFrom (means : scope.columns entries = .ok columns) (position : Nat) :
    (o.placesFrom position entries).filterMap DisplayItem.position? = List.range' position columns.length := by
  induction entries generalizing position columns with
  | nil =>
    cases means
    rfl
  | cons e rest ih =>
    rcases entry_cases e with named | named | ordinary
    · rw [columns_cons_of_placeholder (by simp [ColumnEntry.isPlaceholder, named])] at means
      rw [placesFrom_of_timeSeries named, List.filterMap_append, ih means]
      split <;> rfl
    · rw [columns_cons_of_placeholder (by simp [ColumnEntry.isPlaceholder, named])] at means
      rw [placesFrom_of_crosstab named, List.filterMap_append, ih means]
      split <;> rfl
    · obtain ⟨c, others, _, later, rfl⟩ := columns_cons_eq_ok ordinary means
      rw [placesFrom_of_column ordinary, List.filterMap_cons, ih later]
      rfl

theorem timeSeries_mem_placesFrom (o : ReportOptions) (position : Nat) (entries : List ColumnEntry) :
    .timeSeries ∈ o.placesFrom position entries ↔ o.pattern.isSome ∧ ∃ e ∈ entries, e.name = timeSeriesPlaceholder := by
  induction entries generalizing position with
  | nil => simp [placesFrom]
  | cons e rest ih =>
    rcases entry_cases e with named | named | ordinary
    · rw [placesFrom_of_timeSeries named, List.mem_append, ih]
      split <;> simp_all
    · have other : e.name ≠ timeSeriesPlaceholder := by
        rw [named]
        decide
      rw [placesFrom_of_crosstab named, List.mem_append, ih]
      split <;> simp [other]
    · have other : e.name ≠ timeSeriesPlaceholder := fun same => by simp [ColumnEntry.isPlaceholder, same] at ordinary
      rw [placesFrom_of_column ordinary, List.mem_cons, ih]
      simp [other]

theorem crosstab_mem_placesFrom (o : ReportOptions) (position : Nat) (entries : List ColumnEntry) :
    .crosstab ∈ o.placesFrom position entries ↔ o.crosstabField.isSome ∧ ∃ e ∈ entries, e.name = crosstabPlaceholder := by
  induction entries generalizing position with
  | nil => simp [placesFrom]
  | cons e rest ih =>
    rcases entry_cases e with named | named | ordinary
    · have other : e.name ≠ crosstabPlaceholder := by
        rw [named]
        decide
      rw [placesFrom_of_timeSeries named, List.mem_append, ih]
      split <;> simp [other]
    · rw [placesFrom_of_crosstab named, List.mem_append, ih]
      split <;> simp_all
    · have other : e.name ≠ crosstabPlaceholder := fun same => by simp [ColumnEntry.isPlaceholder, same] at ordinary
      rw [placesFrom_of_column ordinary, List.mem_cons, ih]
      simp [other]

end Places

/-- The places of the list come first, then those of the blocks that have none in it. -/
theorem display_eq (o : ReportOptions) : o.display = o.placesFrom 0 o.requested ++
    (if o.pattern.isSome ∧ ∀ e ∈ o.requested, e.name ≠ timeSeriesPlaceholder then [.timeSeries] else []) ++
    if o.crosstabField.isSome ∧ ∀ e ∈ o.requested, e.name ≠ crosstabPlaceholder then [.crosstab] else [] := by
  have withoutSeries : (o.pattern.isSome && !(o.placesFrom 0 o.requested).contains .timeSeries) = true ↔
      o.pattern.isSome ∧ ∀ e ∈ o.requested, e.name ≠ timeSeriesPlaceholder := by
    rw [Bool.and_eq_true, Bool.not_eq_true', ← Bool.not_eq_true, List.contains_iff_mem, timeSeries_mem_placesFrom]
    simp +contextual
  have withoutCross : (o.crosstabField.isSome && !(o.placesFrom 0 o.requested).contains .crosstab) = true ↔
      o.crosstabField.isSome ∧ ∀ e ∈ o.requested, e.name ≠ crosstabPlaceholder := by
    rw [Bool.and_eq_true, Bool.not_eq_true', ← Bool.not_eq_true, List.contains_iff_mem, crosstab_mem_placesFrom]
    simp +contextual
  unfold display
  simp only [columnEntries_eq, withoutSeries, withoutCross]

/-- The shape of a report has the columns where the list puts them. -/
theorem laid_of_shape (shaped : o.shape schema now = .ok shape) :
    ∃ groupPath, o.groupPath schema = .ok groupPath ∧ o.Laid (o.scopeOf schema groupPath) shape := by
  obtain ⟨groupPath, scope, parts⟩ := shape_eq_ok shaped
  obtain rfl : scope = o.scopeOf schema groupPath := parts.entries
  have plain := parts.plain
  rw [columnEntries_eq] at plain
  refine ⟨groupPath, parts.led, ?_⟩
  constructor
  · intro e member ordinary
    have among : e ∈ o.requested.filter fun e => !e.isPlaceholder := List.mem_filter.2 ⟨member, by simp [ordinary]⟩
    obtain ⟨i, there⟩ := List.getElem?_of_mem among
    obtain ⟨c, _, means⟩ := Results.getElem?_of_mapM plain there
    exact ⟨c, means⟩
  · exact plain
  · rw [parts.display, display_eq, List.filterMap_append, List.filterMap_append, positions_placesFrom plain,
      List.range_eq_range']
    split <;> split <;> simp [DisplayItem.position?]
  · rw [displayColumns_eq, parts.display, display_eq, List.flatMap_append, List.flatMap_append,
      ← flatMap_placesFrom [] plain shape rfl, List.append_assoc]
    congr 1
    unfold trailing
    congr 1
    · split <;> simp [columnsAt]
    · split <;> simp [columnsAt]
  · intro absent
    have windows := parts.windows
    rw [windowColumns, absent] at windows
    exact (Except.ok.inj windows).symm
  · intro absent
    have split := parts.split
    rw [crosstab, absent] at split
    have buckets := parts.buckets
    rw [← Except.ok.inj split] at buckets
    exact (Except.ok.inj buckets).symm

/-- The plain columns are the own columns of the entries that stand for no others. -/
theorem Laid.mem_plainColumns (laid : o.Laid scope shape) {c : Column} :
    c ∈ shape.plainColumns ↔ ∃ e ∈ o.requested, e.isPlaceholder = false ∧ scope.column e = .ok c := by
  constructor
  · intro member
    obtain ⟨e, among, means⟩ := Results.exists_of_mapM laid.plain member
    obtain ⟨inside, ordinary⟩ := List.mem_filter.1 among
    exact ⟨e, inside, by simpa using ordinary, means⟩
  · rintro ⟨e, inside, ordinary, means⟩
    have among : e ∈ o.requested.filter fun e => !e.isPlaceholder := List.mem_filter.2 ⟨inside, by simp [ordinary]⟩
    obtain ⟨i, there⟩ := List.getElem?_of_mem among
    obtain ⟨c', placed, means'⟩ := Results.getElem?_of_mapM laid.plain there
    obtain rfl : c = c' := Except.ok.inj (means.symm.trans means')
    exact List.mem_of_getElem? placed

/-- The columns of a block are shown, in place of an entry or after the list. -/
theorem Laid.shown_of_block (laid : o.Laid scope shape) (placeholder : String) {columns : List Column}
    (placed : ∀ e, e.name = placeholder → o.block scope shape e = columns)
    (behind : (∀ e ∈ o.requested, e.name ≠ placeholder) → columns ⊆ o.trailing shape) : columns ⊆ shape.displayColumns := by
  intro c member
  rw [laid.shown, List.mem_append, List.mem_flatMap]
  by_cases absent : ∀ e ∈ o.requested, e.name ≠ placeholder
  · exact Or.inr (behind absent member)
  · push Not at absent
    obtain ⟨e, inside, named⟩ := absent
    exact Or.inl ⟨e, inside, by rwa [placed e named]⟩

theorem Laid.timeSeries_shown (laid : o.Laid scope shape) : shape.timeSeriesColumns ⊆ shape.displayColumns := by
  cases active : o.pattern with
  | none =>
    rw [laid.timeSeries active]
    exact List.nil_subset _
  | some _ =>
    refine laid.shown_of_block timeSeriesPlaceholder (fun e named => ?_) fun absent => ?_
    · simp [block, named, active]
    · unfold trailing
      rw [if_pos ⟨by rw [active]; rfl, absent⟩]
      exact List.subset_append_left ..

theorem Laid.crosstab_shown (laid : o.Laid scope shape) : shape.crosstabColumns ⊆ shape.displayColumns := by
  cases active : o.crosstabField with
  | none =>
    rw [laid.crosstab active]
    exact List.nil_subset _
  | some _ =>
    have differ : crosstabPlaceholder ≠ timeSeriesPlaceholder := by decide
    refine laid.shown_of_block crosstabPlaceholder (fun e named => ?_) fun absent => ?_
    · simp [block, named, differ, active]
    · unfold trailing
      rw [if_pos (c := o.crosstabField.isSome ∧ _) ⟨by rw [active]; rfl, absent⟩]
      exact List.subset_append_right ..

theorem Laid.plain_shown (laid : o.Laid scope shape) : shape.plainColumns ⊆ shape.displayColumns := by
  intro c member
  obtain ⟨e, inside, ordinary, means⟩ := laid.mem_plainColumns.1 member
  obtain ⟨other, another⟩ : e.name ≠ timeSeriesPlaceholder ∧ e.name ≠ crosstabPlaceholder := by
    simpa [ColumnEntry.isPlaceholder] using ordinary
  rw [laid.shown]
  refine List.mem_append_left _ (List.mem_flatMap.2 ⟨e, inside, ?_⟩)
  rw [block, if_neg other, if_neg another, means]
  exact List.mem_singleton_self c

/-- What is shown in place of an entry is its own column or of one of the blocks. -/
theorem mem_block_cases {e : ColumnEntry} {c : Column} (member : c ∈ o.block scope shape e) :
    e.isPlaceholder = false ∧ scope.column e = .ok c ∨ c ∈ shape.timeSeriesColumns ∨ c ∈ shape.crosstabColumns := by
  unfold block at member
  split at member
  · split at member
    · exact Or.inr (Or.inl member)
    · cases member
  · split at member
    · split at member
      · exact Or.inr (Or.inr member)
      · cases member
    · rename_i other another
      exact Or.inl ⟨by simp [ColumnEntry.isPlaceholder, other, another], Results.toOption_eq_some_iff.1 (Option.mem_toList.1 member)⟩

theorem mem_trailing_cases {c : Column} (member : c ∈ o.trailing shape) :
    c ∈ shape.timeSeriesColumns ∨ c ∈ shape.crosstabColumns := by
  unfold trailing at member
  refine (List.mem_append.1 member).imp (fun inside => ?_) fun inside => ?_
  · split at inside
    · exact inside
    · cases inside
  · split at inside
    · exact inside
    · cases inside

/-- What is shown is what rows are filled with, though in another order. -/
theorem Laid.mem_displayColumns (laid : o.Laid scope shape) {c : Column} :
    c ∈ shape.displayColumns ↔ c ∈ shape.columns := by
  unfold Shape.columns
  rw [List.mem_append, List.mem_append, or_assoc]
  constructor
  · rw [laid.shown, List.mem_append, List.mem_flatMap]
    rintro (⟨e, inside, member⟩ | member)
    · exact (mem_block_cases member).imp_left fun ⟨ordinary, means⟩ => laid.mem_plainColumns.2 ⟨e, inside, ordinary, means⟩
    · exact Or.inr (mem_trailing_cases member)
  · rintro (member | member | member)
    · exact laid.plain_shown member
    · exact laid.timeSeries_shown member
    · exact laid.crosstab_shown member

end ReportOptions

namespace Report
variable {s : Source} {o : ReportOptions} {now : DateTime} {report : Report} {w after : Workspace}

/-- The columns that a report shows are those of its list, with the blocks in their places. Where no hook changes them,
each row has a cell under the name of every column shown and no others, in the order in which the names come first among
the plain columns, those of the time series and those of the cross-tab. -/
theorem display_covered (built : o.build s now w = (.ok report, after)) :
    (∃ groupPath, o.groupPath s.schema = .ok groupPath ∧ o.Laid (o.scopeOf s.schema groupPath) report.shape) ∧
    (o.formatRow = id → ∀ rows, report.rows = .ok rows → ∀ row ∈ rows,
      row.columns = (report.shape.columns.map Column.name).eraseDups ∧
      ∀ name, row.contains name ↔ name ∈ report.shape.displayColumns.map Column.name) := by
  obtain ⟨_, _, shaped, _, _, _, rfl⟩ := ReportOptions.build_eq_ok built
  obtain ⟨groupPath, led, laid⟩ := ReportOptions.laid_of_shape shaped
  refine ⟨⟨groupPath, led, laid⟩, fun unhooked rows ran row member => ?_⟩
  obtain ⟨base, _, made⟩ := Results.exists_of_mapM ran member
  obtain ⟨filled, ran', same⟩ := Results.map_eq_ok_iff.1 made
  obtain rfl : filled = row := by rw [← same, unhooked]; rfl
  have names := columns_fill_empty ran'
  refine ⟨names, fun name => ?_⟩
  rw [Row.contains_iff, names, List.mem_eraseDups, List.mem_map, List.mem_map]
  simp only [laid.mem_displayColumns]

end Report

namespace Sales

/-- The halves of the year. -/
def halves : List Window :=
  [⟨year.start, .atMidnight ⟨2024, 7, 1, by decide⟩⟩, ⟨.atMidnight ⟨2024, 7, 1, by decide⟩, year.finish⟩]

/-- The sales by client, with the blocks before, between and after other columns, and both more than once. -/
def mixed : ReportOptions :=
  { entity := "sale", registry := .withDefaults, groupBy := some "client", dateField := some "day"
    start := some year.start, finish := some year.finish
    columns := [.named crosstabPlaceholder, .named "client", .named timeSeriesPlaceholder, .named "__debit__",
      .named "client", .named timeSeriesPlaceholder, .named crosstabPlaceholder]
    pattern := some .custom, customWindows := halves, timeSeriesColumns := [.named "__debit__"]
    crosstabField := some "client", crosstabIds := [.int 1], crosstabColumns := [.named "__debit__"]
    computeRemainder := false }

def debit : Column :=
  .ofComputation Builtin.debit

def mixedCrosstab : Crosstab :=
  ⟨"client", [.int 1], [], false⟩

def mixedShape : Shape where
  range := year
  plainColumns := [.plain "client" "client" (.database "client") "integer", debit,
    .plain "client" "client" (.database "client") "integer"]
  display := [.crosstab, .column 0, .timeSeries, .column 1, .column 2, .timeSeries, .crosstab]
  timeSeriesColumns := expandWindows (debit :: mixedCrosstab.expand [debit] "client") halves .custom
  crosstabColumns := mixedCrosstab.expand [debit] "client"
  crosstab := some mixedCrosstab
  context := mixed.context year
  relatedEntity := none

theorem mixedShape_eq : mixed.shape schema year.start = .ok mixedShape :=
  rfl

/-- The copies of the one field that is computed. -/
def copies : List Column :=
  debit :: mixedShape.timeSeriesColumns ++ mixedShape.crosstabColumns

theorem computed_mixed : Column.computed mixedShape.columns = copies.map fun c => ⟨c, Builtin.debit⟩ :=
  rfl

theorem mixed_debit {c : ComputedColumn} (member : c ∈ Column.computed mixedShape.columns) : c.computation = Builtin.debit := by
  rw [computed_mixed] at member
  obtain ⟨_, _, rfl⟩ := List.mem_map.1 member
  rfl

theorem copies_answered : ∀ c ∈ copies, (memory.source.aggregates
    ((ComputedColumn.mk c Builtin.debit).contextKey.context (Column.computed mixedShape.columns) mixedShape.context
      mixedShape.crosstab) Builtin.debit).toOption.isSome := by
  decide

theorem mixed_built : ∃ report after, mixed.build memory.source year.start .empty = (.ok report, after) ∧
    report.shape = mixedShape ∧ report.baseRows = [.ofCell "client" (.int 1), .ofCell "client" .null] := by
  obtain ⟨between, asked⟩ : ∃ between, BaseRow.ask mixed mixedShape memory.source .empty =
      (.ok [.ofCell "client" (.int 1), .ofCell "client" .null], between) := ⟨_, rfl⟩
  obtain ⟨scope, produced⟩ := ReportOptions.shape_produced mixedShape_eq
  have families := ComputedColumn.families_of_produced produced fun c member =>
    Builtin.covers (by rw [mixed_debit member]; simp [Builtin.all])
  obtain ⟨plan, after, planned⟩ : ∃ plan after, Plan.build mixedShape.columns mixedShape.context mixedShape.crosstab
      .withDefaults memory.source between = (.ok plan, after) := by
    refine Plan.build_of_alone families (fun c member => ?_) (fun c member => ?_) between
    · rw [mixed_debit member]
      rfl
    · rw [computed_mixed] at member
      obtain ⟨column, copy, rfl⟩ := List.mem_map.1 member
      exact Results.exists_of_isSome (copies_answered column copy)
  exact ⟨_, after, ReportOptions.build_of_parts mixedShape_eq asked planned, rfl, rfl⟩

end Sales

namespace Report

/-- In each of the two rows, the columns shown more than once have one cell. -/
theorem mixed_display : ∃ report after rows,
    Sales.mixed.build Sales.memory.source Sales.year.start .empty = (.ok report, after) ∧ report.rows = .ok rows ∧
      rows.length = 2 ∧ report.shape.displayColumns.map Column.name =
        ["__debit__CT1", "client", "__debit__TS20240701", "__debit__CT1TS20240701", "__debit__TS20250101",
          "__debit__CT1TS20250101", "__debit__", "client", "__debit__TS20240701", "__debit__CT1TS20240701",
          "__debit__TS20250101", "__debit__CT1TS20250101", "__debit__CT1"] ∧
      ∀ row ∈ rows, row.columns = ["client", "__debit__", "__debit__TS20240701", "__debit__CT1TS20240701",
        "__debit__TS20250101", "__debit__CT1TS20250101", "__debit__CT1"] := by
  obtain ⟨report, after, built, shape, bases⟩ := Sales.mixed_built
  have builtin : ∀ c ∈ Column.computed report.shape.columns, c.computation ∈ Builtin.all := by
    intro c member
    rw [shape] at member
    rw [Sales.mixed_debit member]
    simp [Builtin.all]
  have sources : ∀ c ∈ report.shape.columns, ∀ a, c.source ≠ .perRow a := by
    intro c member a same
    rw [shape] at member
    have either : ∀ c ∈ Sales.mixedShape.columns, c.computation?.isSome ∨ c.isDatabase := by decide
    simpa [Column.computation?, Column.isDatabase, same] using either c member
  obtain ⟨rows, ran, length, _⟩ := rows_give built rfl builtin (by rw [shape]; decide) sources rfl rfl
  obtain ⟨_, each⟩ := display_covered built
  refine ⟨report, after, rows, built, ran, by rw [length, bases]; rfl, by rw [shape]; decide, fun row member => ?_⟩
  rw [(each rfl rows ran row member).1, shape]
  decide

end Report
end Reporting
