import Reporting.Report.Basic

/-!
The whole of a report as a document: rows, columns, charts and what is said about them.
-/

namespace Reporting

/-- What is said of a column. -/
structure ColumnData where
  name : String
  /-- the name without what was added for a window or a bucket -/
  baseName : String
  label : String
  visible : Bool
  columnType : String
  isSummable : Bool
deriving DecidableEq, Repr

def Column.data (c : Column) : ColumnData :=
  ⟨c.name, c.baseName, c.label, c.visible, c.columnType, c.isSummable⟩

def ColumnData.json (c : ColumnData) : Json :=
  .object [("name", .string c.name), ("computation_field", .string c.baseName),
    ("verbose_name", .string c.label), ("visible", .bool c.visible), ("type", .string c.columnType),
    ("is_summable", .bool c.isSummable)]

/-- What is said of the time series and the cross-tab. -/
structure Metadata where
  pattern : Option String
  timeSeriesNames : List String
  timeSeriesLabels : List String
  /-- the path of the cross-tab, empty without one -/
  crosstabField : String
  crosstabNames : List String
  crosstabLabels : List String
deriving DecidableEq, Repr

def Metadata.json (m : Metadata) : Json :=
  .object [("time_series_pattern", .ofString? m.pattern),
    ("time_series_column_names", .strings m.timeSeriesNames),
    ("time_series_column_verbose_names", .strings m.timeSeriesLabels),
    ("crosstab_field", .string m.crosstabField), ("crosstab_column_names", .strings m.crosstabNames),
    ("crosstab_column_verbose_names", .strings m.crosstabLabels)]

def Chart.json (c : Chart) : Json :=
  .object [("id", .ofString? c.id), ("type", .string c.kind), ("title", .ofString? c.title),
    ("engine_name", .ofString? c.engine), ("data_source", .strings c.dataSource),
    ("title_source", .strings c.titleSource), ("plot_total", .bool c.plotTotal)]

/-- A report as a document. -/
structure Response where
  slug : String
  rows : List Row
  columns : List ColumnData
  metadata : Metadata
  charts : List Chart

def Response.json (r : Response) : Json :=
  .object [("report_slug", .string r.slug), ("data", .array (r.rows.map Row.json)),
    ("columns", .array (r.columns.map ColumnData.json)), ("metadata", r.metadata.json),
    ("chart_settings", .array (r.charts.map Chart.json))]

namespace Report

/-- What is said of the columns to show. -/
def columnsData (r : Report) : List ColumnData :=
  r.shape.displayColumns.map Column.data

def metadata (r : Report) : Metadata where
  pattern := r.options.pattern.map Pattern.name
  timeSeriesNames := r.shape.timeSeriesColumns.map Column.name
  timeSeriesLabels := r.shape.timeSeriesColumns.map Column.label
  crosstabField := r.options.crosstabField.getD ""
  crosstabNames := r.shape.crosstabColumns.map Column.name
  crosstabLabels := r.shape.crosstabColumns.map Column.label

/-- The charts with the title and the engine of the report filled in. -/
def completeCharts (r : Report) (charts : List Chart) (title : Option String) : List Chart :=
  Reporting.completeCharts charts (title.getD "") r.options.defaults.chartEngine

/-- The document of rows that were read off; the name stands in for a slug that is not given. -/
def response (r : Report) (rows : List Row) (slug : Option String) (charts : List Chart)
    (title : Option String) : Response :=
  ⟨slug.getD r.options.name, rows, r.columnsData, r.metadata, r.completeCharts charts title⟩

end Report
end Reporting
