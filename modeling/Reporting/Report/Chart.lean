import Reporting.Text.Quoted
import Reporting.Tree.Basic

/-!
Charts of reports: which columns a chart shows, and how. What is left open is filled in from the report.
-/

namespace Reporting

/-- The engine that draws charts unless another one is named. -/
def defaultChartEngine : String := "highcharts"

/-- What is known of a chart. -/
structure Chart where
  id : Option String
  /-- the type of chart, such as a bar or a pie -/
  kind : String
  title : Option String
  engine : Option String
  /-- the columns that are drawn -/
  dataSource : List String
  /-- the columns that name what is drawn -/
  titleSource : List String
  plotTotal : Bool
deriving DecidableEq, Repr

namespace Chart

/-- A chart of a data file: a `type`, and the rest if given. -/
def ofTree? (d : Dialect) (t : Tree) : Option Chart := do
  let t ← t.record? d
    ["id", "type", "title", "engine_name", "data_source", "title_source", "plot_total"]
  let id ← t.optional? "id" Tree.string?
  let kind ← t.required? "type" Tree.string?
  let title ← t.optional? "title" Tree.string?
  let engine ← t.optional? "engine_name" Tree.string?
  let dataSource ← t.defaulted? "data_source" [] (Tree.listOf? Tree.string?)
  let titleSource ← t.defaulted? "title_source" [] (Tree.listOf? Tree.string?)
  let plotTotal ← t.defaulted? "plot_total" false Tree.bool?
  some ⟨id, kind, title, engine, dataSource, titleSource, plotTotal⟩

/-- The chart with its type and position for a name, and the title and the engine of the report, where
these are open. An empty title is open. -/
def complete (c : Chart) (position : Nat) (title engine : String) : Chart :=
  { c with
    id := some (c.id.getD (c.kind ++ "-" ++ toString position))
    title := some (match c.title with | some "" => title | some own => own | none => title)
    engine := some (c.engine.getD engine) }

end Chart

/-- The charts of a report, completed. -/
def completeCharts (charts : List Chart) (title engine : String) : List Chart :=
  charts.zipIdx.map fun (c, position) => c.complete position title engine

end Reporting
