import Reporting.Calendar.DateTime
import Reporting.Report.Chart
import Reporting.Report.Column

/-!
What a report is asked to be, before it is checked against a source.
-/

namespace Reporting
open Calendar

/-- What holds for reports that do not say otherwise. -/
structure ReportDefaults where
  chartEngine : String := defaultChartEngine
  start : Option Date := none
  finish : Option Date := none
  showEmpty : Bool := false
  computeRemainder : Bool := true
  limit : Option Nat := none
deriving DecidableEq

/-- The name of reports that are not given one. -/
def defaultReportName : String := "ReportGenerator"

/-- What a report is asked to be. -/
structure ReportOptions where
  /-- the entity whose records are reported -/
  entity : String
  registry : Registry
  name : String := defaultReportName
  defaults : ReportDefaults := {}
  /-- which records the report is about -/
  baseFilters : FilterSet := []
  filters : FilterSet := []
  start : Option DateTime := none
  finish : Option DateTime := none
  /-- the field that dates the records -/
  dateField : Option String := none
  /-- a row for each cell at the path -/
  groupBy : Option String := none
  /-- a row for each filter set, in place of the above -/
  groupSets : List FilterSet := []
  /-- the label of the column that numbers the filter sets -/
  groupLabel : Option String := none
  columns : List ColumnEntry := []
  pattern : Option Pattern := none
  timeSeriesColumns : List ColumnEntry := []
  /-- the windows of a custom time series -/
  customWindows : List Window := []
  crosstabField : Option String := none
  crosstabColumns : List ColumnEntry := []
  crosstabIds : List Value := []
  /-- a bucket for each filter set, in place of the values -/
  crosstabSets : List FilterSet := []
  computeRemainder : Bool := true
  /-- list also the rows of a relation that no record belongs to -/
  showEmpty : Bool := false
  /-- negate what is computed -/
  swapSign : Bool := false
  plusSide : Option FilterSet := none
  minusSide : Option FilterSet := none
  /-- the number of rows at most -/
  limit : Option Nat := none
  /-- applied to every finished row -/
  formatRow : Row → Row := id
  attributes : Keyed Attribute := Keyed.empty

namespace ReportOptions

/-- Takes over the defaults; a limit that is set stays. -/
def withDefaults (o : ReportOptions) (d : ReportDefaults) : ReportOptions :=
  { o with
    defaults := d
    showEmpty := d.showEmpty
    computeRemainder := d.computeRemainder
    limit := o.limit <|> d.limit }

/-- Adds the records whose cell at the path is among the first values, and subtracts those whose cell is
among the second ones; an empty list leaves its side as it is. -/
def withDocumentTypes (o : ReportOptions) (path : String) (plus minus : List Value) : ReportOptions :=
  { o with
    plusSide := if plus.isEmpty then o.plusSide else some [.of path (.within plus)]
    minusSide := if minus.isEmpty then o.minusSide else some [.of path (.within minus)] }

end ReportOptions
end Reporting
