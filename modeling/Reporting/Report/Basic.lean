import Reporting.Report.Plan
import Reporting.Report.Shape

/-!
Reports: built once by asking a source, and read off as rows as often as wanted without asking again.
-/

namespace Reporting
open Calendar

/-- What a row is made from: its group and a record. -/
structure BaseRow where
  group : GroupKey
  record : Record

/-- A report whose computed columns are prepared. -/
structure Report where
  options : ReportOptions
  shape : Shape
  baseRows : List BaseRow
  plan : Plan
  /-- what is at hand after the preparation -/
  workspace : Workspace

namespace Shape

/-- The names of the columns that come from the records of the rows. -/
def recordFields (s : Shape) : List String :=
  (s.plainColumns.filter Column.isDatabase).map Column.name

/-- The records that the rows are made from: those of the report within its range. -/
def rowFilters (s : Shape) : FilterSet :=
  s.context.baseFilters ++ s.context.dateFilters .window ++ s.context.filters

end Shape

namespace BaseRow

/-- A row for each filter set, with its number. -/
def ofSets (count : Nat) : List BaseRow :=
  (List.range count).map fun i =>
    ⟨.index i, Keyed.ofList [(indexColumn, .int (Int64.ofNat i))]⟩

/-- The row of a related record; its group is the primary key. -/
def ofRelated (primaryKey : String) (record : Record) : BaseRow :=
  ⟨.key (((record.get? primaryKey).map Value.key).getD ""), record⟩

/-- The row of a cell at the path of the groups. -/
def ofCell (path : String) (cell : Value) : BaseRow :=
  ⟨.key cell.key, Keyed.ofList [(path, cell)]⟩

/-- A row for each row of the related entity: each that a filter on the path allows if empty ones are
shown, else each that a record points to. -/
def askRelated (o : ReportOptions) (shape : Shape) (s : Source) (path target : String) :
    Session (List BaseRow) := do
  let e ← Session.ofExcept ((s.schema.entity target).mapError .source)
  let ids ←
    if o.showEmpty then pure (FilterSet.pinned? o.filters path)
    else do
      let cells ← s.askDistinct o.entity shape.rowFilters path
      pure (some (cells.filter fun v => !v.isNull))
  let records ← s.askRelated target ids shape.recordFields
  return records.map (ofRelated e.primaryKey)

/-- What the rows are made from, in order: filter sets, related rows, cells, or records. A report
without groups has one row if it is a time series or shows no field of the records. -/
def ask (o : ReportOptions) (shape : Shape) (s : Source) : Session (List BaseRow) :=
  if !o.groupSets.isEmpty then return ofSets o.groupSets.length
  else
    match o.groupBy, shape.relatedEntity with
    | some path, some target => askRelated o shape s path target
    | some path, none => do
      return (← s.askDistinct o.entity shape.rowFilters path).map (ofCell path)
    | none, _ =>
      if o.pattern.isSome || shape.recordFields.isEmpty then return [⟨.all, Keyed.empty⟩]
      else do
        let records ← s.askRows o.entity shape.rowFilters shape.recordFields
        return records.map fun record => ⟨.all, record⟩

end BaseRow

namespace ReportOptions

/-- The first rows, as many as the limit allows. -/
def limited {α : Type} (o : ReportOptions) (rows : List α) : List α :=
  match o.limit with
  | some limit => rows.take limit
  | none => rows

/-- Builds the report: checks the options, asks for what the rows are made from, and prepares the
columns. -/
def build (o : ReportOptions) (s : Source) (now : DateTime) : Session Report := do
  let shape ← Session.ofExcept (o.shape s.schema now)
  let baseRows ← BaseRow.ask o shape s
  let plan ← Plan.build shape.columns shape.context shape.crosstab o.registry s
  return ⟨o, shape, o.limited baseRows, plan, ← get⟩

end ReportOptions

namespace Report

/-- The cell of a column, given the cells before it. -/
def cell (r : Report) (base : BaseRow) (row : Row) (c : Column) : Except ReportError Value :=
  match c.source with
  | .database path => .ok (base.record.cell path)
  | .computation _ =>
    (r.plan.cell r.workspace c base.group row).map fun v => if r.options.swapSign then v.negate else v
  | .perRow a => a.compute base.record row

/-- Fills a row column by column. -/
def fill (r : Report) (base : BaseRow) : List Column → Row → Except ReportError Row
  | [], row => .ok row
  | c :: rest, row =>
    match r.cell base row c with
    | .ok v => r.fill base rest (row.insert c.name v)
    | .error e => .error e

/-- The rows in the order of what they are made from. -/
def rows (r : Report) : Except ReportError (List Row) :=
  r.baseRows.mapM fun base => (r.fill base r.shape.columns .empty).map r.options.formatRow

/-- The number of columns that were prepared on their own. -/
def preparedCount (r : Report) : Nat :=
  r.plan.preparedCount

end Report
end Reporting
