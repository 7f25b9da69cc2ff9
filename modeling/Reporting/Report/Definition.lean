import Reporting.Computation.Builtin
import Reporting.Report.Options
import Reporting.Tree.Schema

/-!
Report definitions: a report described by a data file. Filters are written as keys with operands, dates
as strings in any of the forms that are read.
-/

namespace Reporting
open Calendar

/-- Keys with operands; they are applied in the order of the keys. -/
abbrev Lookups := Keyed Operand

/-- A window by its dates as they are written. -/
structure WindowText where
  start : String
  finish : String
deriving DecidableEq, Repr

/-- The time series of a definition. -/
structure TimeSeriesDefinition where
  pattern : Pattern
  columns : List ColumnEntry
  windows : List WindowText

/-- The cross-tab of a definition. -/
structure CrosstabDefinition where
  field : String
  columns : List ColumnEntry
  ids : List Value
  sets : List Lookups
  computeRemainder : Option Bool

/-- A computation field of a definition. -/
structure FieldDefinition where
  method : Method
  field : String
  name : Option String
  label : Option String
  isSummable : Bool
deriving DecidableEq, Repr

/-- A report as a data file describes it. -/
structure ReportDefinition where
  name : String
  title : Option String
  entity : String
  /-- the entities of a schema of its own, if there are any -/
  entities : List Entity
  dateField : Option String
  start : Option String
  finish : Option String
  groupBy : Option String
  columns : List ColumnEntry
  baseFilters : Lookups
  filters : Lookups
  /-- what records must not pass -/
  exclude : Lookups
  plusSide : Lookups
  minusSide : Lookups
  groupSets : List Lookups
  groupLabel : Option String
  timeSeries : Option TimeSeriesDefinition
  crosstab : Option CrosstabDefinition
  showEmpty : Option Bool
  swapSign : Bool
  limit : Option Nat
  fields : List FieldDefinition
  charts : List Chart

/-! Reading definitions. -/

def Operand.ofTree? : Tree → Option Operand
  | .list items => (items.mapM Tree.value?).map many
  | t => t.value?.map one

def Lookups.ofTree? (t : Tree) : Option Lookups :=
  (t.tableOf? Operand.ofTree?).map Keyed.ofList

/-- A column: its name, or a table with its name and what is said of it. -/
def ColumnEntry.ofTree? : Tree → Option ColumnEntry
  | .string name => some (named name)
  | t => do
    let name ← t.required? "name" Tree.string?
    let label ← t.optional? "verbose_name" Tree.string?
    let columnType ← t.optional? "type" Tree.string?
    let isSummable ← t.optional? "is_summable" Tree.bool?
    let visible ← t.optional? "visible" Tree.bool?
    some (configured name ⟨label, columnType, isSummable, visible⟩)

/-- A pattern by its name in data files, which is told apart by case. -/
def Pattern.ofTree? (d : Dialect) (t : Tree) : Option Pattern :=
  match t.choice? d with
  | some "daily" => some daily
  | some "weekly" => some weekly
  | some "bi-weekly" => some biWeekly
  | some "semimonthly" => some biWeekly
  | some "monthly" => some monthly
  | some "quarterly" => some quarterly
  | some "semiannually" => some semiannually
  | some "annually" => some annually
  | some "custom" => some custom
  | _ => none

/-- A method by its name in data files, which is told apart by case. -/
def Method.ofTree? (d : Dialect) (t : Tree) : Option Method :=
  match t.choice? d with
  | some "sum" => some sum
  | some "count" => some count
  | some "avg" => some avg
  | some "max" => some max
  | some "min" => some min
  | _ => none

def WindowText.ofTree? (d : Dialect) (t : Tree) : Option WindowText := do
  let t ← t.record? d ["start", "end"]
  let start ← t.required? "start" Tree.string?
  let finish ← t.required? "end" Tree.string?
  some ⟨start, finish⟩

def TimeSeriesDefinition.ofTree? (d : Dialect) (t : Tree) : Option TimeSeriesDefinition := do
  let t ← t.record? d ["pattern", "columns", "custom_dates"]
  let pattern ← t.required? "pattern" (Pattern.ofTree? d)
  let columns ← t.defaulted? "columns" [] (Tree.listOf? ColumnEntry.ofTree?)
  let windows ← t.defaulted? "custom_dates" [] (Tree.listOf? (WindowText.ofTree? d))
  some ⟨pattern, columns, windows⟩

def CrosstabDefinition.ofTree? (d : Dialect) (t : Tree) : Option CrosstabDefinition := do
  let t ← t.record? d ["field", "columns", "ids", "custom_filters", "compute_remainder"]
  let field ← t.required? "field" Tree.string?
  let columns ← t.defaulted? "columns" [] (Tree.listOf? ColumnEntry.ofTree?)
  let ids ← t.defaulted? "ids" [] (Tree.listOf? Tree.value?)
  let sets ← t.defaulted? "custom_filters" [] (Tree.listOf? Lookups.ofTree?)
  let computeRemainder ← t.optional? "compute_remainder" Tree.bool?
  some ⟨field, columns, ids, sets, computeRemainder⟩

def FieldDefinition.ofTree? (d : Dialect) (t : Tree) : Option FieldDefinition := do
  let t ← t.record? d ["method", "field", "name", "verbose_name", "is_summable"]
  let method ← t.required? "method" (Method.ofTree? d)
  let field ← t.required? "field" Tree.string?
  let name ← t.optional? "name" Tree.string?
  let label ← t.optional? "verbose_name" Tree.string?
  let isSummable ← t.defaulted? "is_summable" true Tree.bool?
  some ⟨method, field, name, label, isSummable⟩

namespace ReportDefinition

/-- The names of what a definition may have, in the order in which a list has it. -/
def fieldNames : List String :=
  ["name", "title", "entity", "entities", "date_field", "start_date", "end_date", "group_by", "columns",
    "base_filters", "filters", "exclude", "plus_side", "minus_side", "custom_querysets", "custom_group_label",
    "time_series", "crosstab", "show_empty_records", "swap_sign", "limit_records", "fields", "charts"]

/-- A definition: a `name` and an `entity`, and the rest if given. -/
def ofTree? (d : Dialect) (t : Tree) : Option ReportDefinition := do
  let t ← t.record? d fieldNames
  let name ← t.required? "name" Tree.string?
  let title ← t.optional? "title" Tree.string?
  let entity ← t.required? "entity" Tree.string?
  let entities ← t.defaulted? "entities" [] (Tree.listOf? (Entity.ofTree? d))
  let dateField ← t.optional? "date_field" Tree.string?
  let start ← t.optional? "start_date" Tree.string?
  let finish ← t.optional? "end_date" Tree.string?
  let groupBy ← t.optional? "group_by" Tree.string?
  let columns ← t.defaulted? "columns" [] (Tree.listOf? ColumnEntry.ofTree?)
  let lookups (name : String) : Option Lookups := t.defaulted? name Keyed.empty Lookups.ofTree?
  let baseFilters ← lookups "base_filters"
  let filters ← lookups "filters"
  let exclude ← lookups "exclude"
  let plusSide ← lookups "plus_side"
  let minusSide ← lookups "minus_side"
  let groupSets ← t.defaulted? "custom_querysets" [] (Tree.listOf? Lookups.ofTree?)
  let groupLabel ← t.optional? "custom_group_label" Tree.string?
  let timeSeries ← t.optional? "time_series" (TimeSeriesDefinition.ofTree? d)
  let crosstab ← t.optional? "crosstab" (CrosstabDefinition.ofTree? d)
  let showEmpty ← t.optional? "show_empty_records" Tree.bool?
  let swapSign ← t.defaulted? "swap_sign" false Tree.bool?
  let limit ← t.optional? "limit_records" Tree.count?
  let fields ← t.defaulted? "fields" [] (Tree.listOf? (FieldDefinition.ofTree? d))
  let charts ← t.defaulted? "charts" [] (Tree.listOf? (Chart.ofTree? d))
  some { name, title, entity, entities, dateField, start, finish, groupBy, columns, baseFilters, filters,
         exclude, plusSide, minusSide, groupSets, groupLabel, timeSeries, crosstab, showEmpty, swapSign,
         limit, fields, charts }

/-- The title of the charts. -/
def chartTitle (d : ReportDefinition) : String :=
  d.title.getD d.name

/-- The schema of the definition's own entities. -/
def schema? (d : ReportDefinition) : Option Schema :=
  if d.entities.isEmpty then none else some (.ofEntities d.entities)

/-! From a definition to options. -/

/-- Adds a field under a name that must be new. -/
def addField (r : Registry) (f : FieldDefinition) : Except RegistryError Registry := do
  let c ← Computation.create r f.method f.field f.name f.label f.isSummable
  r.register c false

/-- The fields that there are to begin with, and those of the definition. -/
def registry (d : ReportDefinition) : Except ReportError Registry :=
  (d.fields.foldlM addField Registry.withDefaults).mapError .registry

def filtersOf (lookups : Lookups) : Except ReportError FilterSet :=
  (FilterSet.ofLookups lookups.entries).mapError .source

/-- A side; without keys it is not there. -/
def sideOf (lookups : Lookups) : Except ReportError (Option FilterSet) :=
  if lookups.entries.isEmpty then .ok none else (filtersOf lookups).map some

/-- What records must not pass. -/
def excludedBy (lookups : Lookups) : Except ReportError FilterSet :=
  (filtersOf lookups).map fun filters => filters.map fun p => { p with negated := true }

def readDate (text : String) : Except ReportError DateTime :=
  match readDateTime? text with
  | some t => .ok t
  | none => .error (.definition ("invalid date \"" ++ text ++ "\""))

def readOptionalDate : Option String → Except ReportError (Option DateTime)
  | some text => (readDate text).map some
  | none => .ok none

def readWindow (w : WindowText) : Except ReportError Window := do
  let start ← readDate w.start
  let finish ← readDate w.finish
  return ⟨start, finish⟩

/-- The options with the time series; a custom one needs windows. -/
def withTimeSeries (o : ReportOptions) : Option TimeSeriesDefinition → Except ReportError ReportOptions
  | none => .ok o
  | some d => do
    let windows ← d.windows.mapM readWindow
    if d.pattern = .custom ∧ windows.isEmpty then
      .error (.configuration (.misconfigured "custom time series need custom_dates"))
    else return { o with pattern := some d.pattern, timeSeriesColumns := d.columns, customWindows := windows }

/-- The options with the cross-tab. -/
def withCrosstab (o : ReportOptions) : Option CrosstabDefinition → Except ReportError ReportOptions
  | none => .ok o
  | some d => do
    let sets ← d.sets.mapM filtersOf
    return { o with
      crosstabField := some d.field
      crosstabColumns := d.columns
      crosstabIds := d.ids
      crosstabSets := sets
      computeRemainder := d.computeRemainder.getD o.computeRemainder }

/-- The options that the definition describes. The first thing that cannot be read is reported. -/
def options (d : ReportDefinition) (defaults : ReportDefaults) : Except ReportError ReportOptions := do
  let registry ← d.registry
  let baseFilters ← filtersOf d.baseFilters
  let filters ← filtersOf d.filters
  let excluded ← excludedBy d.exclude
  let start ← readOptionalDate d.start
  let finish ← readOptionalDate d.finish
  let plusSide ← sideOf d.plusSide
  let minusSide ← sideOf d.minusSide
  let groupSets ← d.groupSets.mapM filtersOf
  let plain := ReportOptions.withDefaults { entity := d.entity, registry } defaults
  let described : ReportOptions :=
    { plain with
      name := d.name
      baseFilters
      filters := filters ++ excluded
      start
      finish
      dateField := d.dateField
      groupBy := d.groupBy
      groupSets
      groupLabel := d.groupLabel
      columns := d.columns
      showEmpty := d.showEmpty.getD plain.showEmpty
      swapSign := d.swapSign
      plusSide
      minusSide
      limit := d.limit <|> plain.limit }
  let dated ← withTimeSeries described d.timeSeries
  withCrosstab dated d.crosstab

end ReportDefinition
end Reporting
