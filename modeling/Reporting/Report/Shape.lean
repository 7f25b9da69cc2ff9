import Reporting.Computation.Context
import Reporting.Report.Options

/-!
The shape of a report: its columns and what they are taken over. Options that do not fit together or
name what the schema does not have are refused here, before anything is asked of the source.
-/

namespace Reporting
open Calendar

/-- A place in the list of columns to show. -/
inductive DisplayItem where
  /-- the plain column at the position -/
  | column (position : Nat)
  /-- all columns of the time series -/
  | timeSeries
  /-- all columns of the cross-tab -/
  | crosstab
deriving DecidableEq

/-- A report that is consistent in itself and with its schema. -/
structure Shape where
  /-- the range of dates -/
  range : Window
  /-- the columns that are not those of the time series or the cross-tab -/
  plainColumns : List Column
  /-- the places of the columns to show, with some for those of the time series and the cross-tab -/
  display : List DisplayItem
  timeSeriesColumns : List Column
  crosstabColumns : List Column
  crosstab : Option Crosstab
  /-- what plain columns are taken over -/
  context : Context
  /-- the entity whose rows are the groups -/
  relatedEntity : Option String

namespace Shape

/-- All columns in the order in which rows are filled. -/
def columns (s : Shape) : List Column :=
  s.plainColumns ++ s.timeSeriesColumns ++ s.crosstabColumns

/-- The columns to show. -/
def displayColumns (s : Shape) : List Column :=
  s.display.flatMap fun item =>
    match item with
    | .column position => s.plainColumns[position]?.toList
    | .timeSeries => s.timeSeriesColumns
    | .crosstab => s.crosstabColumns

end Shape

namespace ReportOptions

def refuse {α : Type} (cause : ConfigurationError) : Except ReportError α :=
  .error (.configuration cause)

/-- The options go together. -/
def checkOptions (o : ReportOptions) : Except ReportError Unit :=
  if o.pattern.isSome && o.dateField.isNone then refuse .missingDateField
  else if !o.timeSeriesColumns.isEmpty && o.pattern.isNone then
    refuse (.misconfigured "time_series_columns need a time_series_pattern")
  else if !o.crosstabColumns.isEmpty && o.crosstabField.isNone then
    refuse (.misconfigured "crosstab_columns need a crosstab_field")
  else .ok ()

/-- The entity is there. -/
def checkEntity (o : ReportOptions) (schema : Schema) : Except ReportError Unit :=
  if o.entity.isEmpty then refuse .missingEntity
  else
    match schema.entity o.entity with
    | .ok _ => .ok ()
    | .error _ => refuse (.misconfigured ("unknown report entity " ++ o.entity))

/-- The field that dates the records is there. -/
def checkDateField (o : ReportOptions) (schema : Schema) : Except ReportError Unit :=
  match o.dateField with
  | none => .ok ()
  | some path =>
    match schema.resolve o.entity path with
    | .ok _ => .ok ()
    | .error _ => refuse (.misconfigured ("date field " ++ path ++ " not found on " ++ o.entity))

/-- Where the path of the groups leads. -/
def groupPath (o : ReportOptions) (schema : Schema) : Except ReportError (Option ResolvedPath) :=
  match o.groupBy with
  | none => .ok none
  | some path =>
    match schema.resolve o.entity path with
    | .ok resolved => .ok (some resolved)
    | .error _ => refuse (.groupByNotFound path o.entity)

/-- The cross-tab. The key of the remainder is not to be that of a value. -/
def crosstab (o : ReportOptions) (schema : Schema) : Except ReportError (Option Crosstab) :=
  match o.crosstabField with
  | none => .ok none
  | some path =>
    match schema.resolve o.entity path with
    | .error _ => refuse (.crosstabFieldNotFound path o.entity)
    | .ok _ =>
      if o.crosstabIds.any fun id => id.key == Bucket.remainder.key then
        refuse (.misconfigured
          ("crosstab id " ++ Bucket.remainder.key ++ " is reserved for the remainder bucket"))
      else .ok (some ⟨path, o.crosstabIds, o.crosstabSets, o.computeRemainder⟩)

/-- The first day of the year in which a point in time lies. -/
def startOfYear (t : DateTime) : DateTime :=
  match Date.ofNumbers? t.date.year 1 1 with
  | some d => .atMidnight d
  | none => t

/-- The range of dates: what the report says, else the defaults, else the year up to now. -/
def range (o : ReportOptions) (now : DateTime) : Except ReportError Window :=
  let start := (o.start <|> o.defaults.start.map DateTime.atMidnight).getD (startOfYear now)
  let finish := (o.finish <|> o.defaults.finish.map DateTime.atMidnight).getD now
  if start.order finish = .gt then
    refuse (.misconfigured
      ("start_date " ++ start.messageText ++ " is after end_date " ++ finish.messageText))
  else .ok ⟨start, finish⟩

/-- The entity whose rows are the groups: that of a relation at the end of the path. -/
def relatedEntity (o : ReportOptions) (path : Option ResolvedPath) : Option String :=
  match path with
  | some resolved => if o.groupSets.isEmpty && resolved.isRelation then resolved.target? else none
  | none => none

/-- The entries of the columns; filter sets are numbered in the first column unless the numbers are
asked for elsewhere. -/
def columnEntries (o : ReportOptions) : List ColumnEntry :=
  if !o.groupSets.isEmpty && !o.columns.any fun e => e.name == indexColumn then
    .named indexColumn :: o.columns
  else o.columns

/-- The places of the entries, where so many plain columns come before them. The place of a time series or a cross-tab
is nothing without one. -/
def placesFrom (o : ReportOptions) (position : Nat) : List ColumnEntry → List DisplayItem
  | [] => []
  | e :: rest =>
    if e.name == timeSeriesPlaceholder then
      (if o.pattern.isSome then [.timeSeries] else []) ++ placesFrom o position rest
    else if e.name == crosstabPlaceholder then
      (if o.crosstabField.isSome then [.crosstab] else []) ++ placesFrom o position rest
    else .column position :: placesFrom o (position + 1) rest

/-- The places of the columns to show. A time series and then a cross-tab without a place come at the end. -/
def display (o : ReportOptions) : List DisplayItem :=
  let places := o.placesFrom 0 o.columnEntries
  let timeSeries := if o.pattern.isSome && !places.contains .timeSeries then [DisplayItem.timeSeries] else []
  let crosstab := if o.crosstabField.isSome && !places.contains .crosstab then [DisplayItem.crosstab] else []
  places ++ timeSeries ++ crosstab

/-- The columns of the cross-tab. -/
def bucketColumns (o : ReportOptions) (scope : ColumnScope) (crosstab : Option Crosstab) :
    Except ReportError (List Column) :=
  match crosstab with
  | none => .ok []
  | some crosstab =>
    (scope.computationColumns o.crosstabColumns).map fun columns => crosstab.expand columns crosstab.field

/-- The columns of the time series: its own, and those of the cross-tab, for each window. -/
def windowColumns (o : ReportOptions) (scope : ColumnScope) (range : Window) (crosstabColumns : List Column) :
    Except ReportError (List Column) :=
  match o.pattern with
  | none => .ok []
  | some pattern =>
    match pattern.windows range.start range.finish o.customWindows with
    | .error e => .error e
    | .ok [] => refuse (.misconfigured "time series has no date windows")
    | .ok windows =>
      (scope.computationColumns o.timeSeriesColumns).map fun columns =>
        expandWindows (columns ++ crosstabColumns) windows pattern

/-- How the records are split. -/
def grouping (o : ReportOptions) : Grouping :=
  if o.groupSets.isEmpty then
    match o.groupBy with
    | some path => .byPath path
    | none => .none
  else .bySets o.groupSets

/-- What plain columns are taken over. -/
def context (o : ReportOptions) (range : Window) : Context where
  entity := o.entity
  baseFilters := o.baseFilters
  dateField := o.dateField
  window := some range
  filters := o.filters
  grouping := o.grouping
  plusSide := o.plusSide
  minusSide := o.minusSide

/-- The shape of the report, at a point in time that reports without dates go up to. -/
def shape (o : ReportOptions) (schema : Schema) (now : DateTime) : Except ReportError Shape := do
  o.checkEntity schema
  o.checkOptions
  o.checkDateField schema
  let groupPath ← o.groupPath schema
  let crosstab ← o.crosstab schema
  let range ← o.range now
  let relatedEntity := o.relatedEntity groupPath
  let scope : ColumnScope :=
    ⟨schema, relatedEntity.getD o.entity, o.registry, o.attributes, o.name, o.groupLabel⟩
  let plainColumns ← scope.columns o.columnEntries
  let crosstabColumns ← o.bucketColumns scope crosstab
  let timeSeriesColumns ← o.windowColumns scope range crosstabColumns
  return ⟨range, plainColumns, o.display, timeSeriesColumns, crosstabColumns, crosstab, o.context range, relatedEntity⟩

end ReportOptions
end Reporting
