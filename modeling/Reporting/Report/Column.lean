import Reporting.Computation.Registry
import Reporting.Crosstab
import Reporting.Row
import Reporting.Schema
import Reporting.Window

/-!
Columns of reports. An entry of a report's list of columns names a computation field, an attribute of
the report or a path to a field of its records, in this order of preference. Columns are copied for each
window of a time series and for each bucket of a cross-tab.
-/

namespace Reporting

/-- A cell that is worked out for each row from its record and the cells before it. -/
structure Attribute where
  label : Option String
  compute : Record → Row → Except ReportError Value

namespace Attribute

/-- The record's cell of the name. -/
def ofRecord (label : Option String) (name : String) : Attribute :=
  ⟨label, fun record _ => .ok (record.cell name)⟩

/-- The row's cell of the name. -/
def ofRow (label : Option String) (name : String) : Attribute :=
  ⟨label, fun _ row => .ok ((row.get? name).getD .null)⟩

/-- The key of the record's cell, empty where there is none. -/
def keyOf (label : Option String) (name : String) : Attribute :=
  ⟨label, fun record _ => .ok (.text (((record.get? name).map Value.key).getD ""))⟩

/-- The number of cells before this one. -/
def position (label : Option String) : Attribute :=
  ⟨label, fun _ row => .ok (.int (Int64.ofNat row.size))⟩

/-- No cell at all. -/
def failing (label : Option String) (name message : String) : Attribute :=
  ⟨label, fun _ _ => .error (.attributeFailed name message)⟩

end Attribute

/-- What is said of a column in place of its own label, type and so on. -/
structure ColumnOptions where
  label : Option String
  columnType : Option String
  isSummable : Option Bool
  visible : Option Bool
deriving DecidableEq, Repr

/-- An entry of a report's list of columns. -/
inductive ColumnEntry where
  | named (name : String)
  | configured (name : String) (options : ColumnOptions)
  /-- a field that need not be in a registry -/
  | computed (computation : Computation)

/-- The entries that stand for the columns of the time series and of the cross-tab. -/
def timeSeriesPlaceholder : String := "__time_series__"
def crosstabPlaceholder : String := "__crosstab__"

/-- The column that numbers the rows of filter sets. -/
def indexColumn : String := "__index__"

namespace ColumnEntry

def name : ColumnEntry → String
  | named name => name
  | configured name _ => name
  | computed c => c.name

def options? : ColumnEntry → Option ColumnOptions
  | configured _ options => some options
  | _ => none

/-- The entry stands for other columns. -/
def isPlaceholder (e : ColumnEntry) : Bool :=
  e.name == timeSeriesPlaceholder || e.name == crosstabPlaceholder

end ColumnEntry

/-- Where the cells of a column come from. -/
inductive ColumnSource where
  /-- the record of the row -/
  | database (path : String)
  | computation (c : Computation)
  /-- worked out row by row -/
  | perRow (a : Attribute)

/-- The name of the kind of source. -/
def ColumnSource.name : ColumnSource → String
  | database _ => "database"
  | computation _ => "computation_field"
  | perRow _ => "container_attribute"

/-- A column of a report. -/
structure Column where
  /-- the name of its cells -/
  name : String
  label : String
  source : ColumnSource
  columnType : String
  isSummable : Bool
  visible : Bool
  /-- the name without what was added for a window or a bucket -/
  baseName : String
  window : Option Window
  bucket : Option Bucket

namespace Column

/-- A column of no window and no bucket. -/
def plain (name label : String) (source : ColumnSource) (columnType : String) : Column :=
  ⟨name, label, source, columnType, false, true, name, none, none⟩

/-- The column of a field. -/
def ofComputation (c : Computation) : Column :=
  { plain c.name c.label (.computation c) c.columnType with isSummable := c.isSummable }

def computation? (c : Column) : Option Computation :=
  match c.source with
  | .computation computation => some computation
  | _ => none

def isDatabase (c : Column) : Bool :=
  match c.source with
  | .database _ => true
  | _ => false

/-- The column is that of the remainder of a cross-tab. -/
def isRemainder (c : Column) : Bool :=
  match c.bucket with
  | some bucket => bucket.isRemainder
  | none => false

/-- The column with what the options say. -/
def withOptions (c : Column) (options : Option ColumnOptions) : Column :=
  match options with
  | none => c
  | some options =>
    { c with
      label := options.label.getD c.label
      columnType := options.columnType.getD c.columnType
      isSummable := options.isSummable.getD c.isSummable
      visible := options.visible.getD c.visible }

/-- The copy for a window. A field gives the label anew; a copy for a bucket keeps the bucket's. -/
def forWindow (c : Column) (pattern : Pattern) (w : Window) (index : Nat) : Column :=
  { c with
    name := c.name ++ w.columnSuffix
    label :=
      match c.computation?, c.bucket with
      | _, some _ => pattern.windowLabel c.label w index
      | some computation, none => pattern.windowLabel computation.label w index
      | none, none => c.label
    window := some w }

/-- The copy for a bucket. -/
def forBucket (c : Column) (dimension : String) (b : Bucket) : Column :=
  { c with
    name := c.name ++ b.columnSuffix
    label :=
      match c.computation? with
      | some computation => b.label computation.label dimension
      | none => c.label
    bucket := some b }

end Column

/-- A copy of every column for the first window, then for the second, and so on. -/
def expandWindows (columns : List Column) (windows : List Window) (pattern : Pattern) : List Column :=
  windows.zipIdx.flatMap fun (w, index) => columns.map fun c => c.forWindow pattern w index

/-- A copy of every column for the first bucket, then for the second, and so on. -/
def Crosstab.expand (crosstab : Crosstab) (columns : List Column) (dimension : String) : List Column :=
  crosstab.buckets.flatMap fun b => columns.map fun c => c.forBucket dimension b

/-- What the entries of a report can name. -/
structure ColumnScope where
  schema : Schema
  /-- the entity of the records that rows are made from -/
  entity : String
  registry : Registry
  attributes : Keyed Attribute
  /-- the name of the report -/
  container : String
  /-- the label of the column that numbers the rows -/
  indexLabel : Option String

namespace ColumnScope

/-- The column that an entry means, but for its options. -/
def find (scope : ColumnScope) (entry : ColumnEntry) : Except ReportError Column :=
  let name := entry.name
  if name = indexColumn then
    .ok (.plain name (scope.indexLabel.getD name) (.database name) "text")
  else
    match entry with
    | .computed c => .ok (.ofComputation c)
    | _ =>
      match scope.registry.fields.get? name with
      | some c => .ok (.ofComputation c)
      | none =>
        match scope.attributes.get? name with
        | some a => .ok (.plain name (a.label.getD name) (.perRow a) "text")
        | none =>
          match scope.schema.resolve scope.entity name with
          | .ok resolved =>
            .ok (.plain name resolved.field.label (.database name) resolved.field.kind.name)
          | .error _ => .error (.configuration (.fieldNotFound name scope.container scope.entity))

/-- The column that an entry means. -/
def column (scope : ColumnScope) (entry : ColumnEntry) : Except ReportError Column :=
  (scope.find entry).map fun c => c.withOptions entry.options?

/-- The columns of all entries but placeholders. -/
def columns (scope : ColumnScope) (entries : List ColumnEntry) : Except ReportError (List Column) :=
  (entries.filter fun e => !e.isPlaceholder).mapM scope.column

/-- The columns of entries that all have to be computation fields. -/
def computationColumns (scope : ColumnScope) (entries : List ColumnEntry) :
    Except ReportError (List Column) :=
  match scope.columns entries with
  | .error e => .error e
  | .ok columns =>
    match columns.find? fun c => c.computation?.isNone with
    | some other => .error (.configuration (.misconfigured (other.name ++ " is not a computation field")))
    | none => .ok columns

end ColumnScope
end Reporting
