import Reporting.Decimal.Reader
import Reporting.Report.Options
import Reporting.Text.Lower

/-!
Settings: defaults of reports, where the data is, and what is logged. They come from a file; the
environment may override them.
-/

namespace Reporting

/-- The kinds of stores that reports read from. -/
inductive SourceKind where
  /-- a database in one file -/
  | sqlite
  /-- a folder with a file for each entity -/
  | csv
deriving DecidableEq, Repr

def SourceKind.name : SourceKind → String
  | sqlite => "sqlite"
  | csv => "csv"

def SourceKind.ofName? : String → Option SourceKind
  | "sqlite" => some sqlite
  | "csv" => some csv
  | _ => none

/-- Where the data is. -/
structure SourceSettings where
  kind : SourceKind
  path : String
  /-- the file with the schema -/
  schema : Option String
  /-- what separates the cells of a text file -/
  delimiter : Char
deriving DecidableEq, Repr

/-- What is logged, and how. -/
structure LogSettings where
  level : String
  format : String
deriving DecidableEq, Repr

structure Settings where
  report : ReportDefaults
  source : SourceSettings
  logging : LogSettings
deriving DecidableEq

/-- The settings of reports in a file. Dates are strings. -/
def ReportDefaults.ofTree? (d : Dialect) (t : Tree) : Option ReportDefaults := do
  let t ← t.record? d ["charts_engine", "default_start_date", "default_end_date", "show_empty_records",
    "crosstab_compute_remainder", "limit_records"]
  let date (t : Tree) : Option Calendar.Date := t.string?.bind Calendar.readIsoDate?
  let chartEngine ← t.defaulted? "charts_engine" defaultChartEngine Tree.string?
  let start ← t.optional? "default_start_date" date
  let finish ← t.optional? "default_end_date" date
  let showEmpty ← t.defaulted? "show_empty_records" false Tree.bool?
  let computeRemainder ← t.defaulted? "crosstab_compute_remainder" true Tree.bool?
  let limit ← t.optional? "limit_records" Tree.count?
  some ⟨chartEngine, start, finish, showEmpty, computeRemainder, limit⟩

namespace SourceSettings

/-- The settings without a file; the path depends on who asks. -/
def defaults (path : String) : SourceSettings :=
  ⟨.sqlite, path, none, ','⟩

/-- A string of one character. -/
def char? (t : Tree) : Option Char :=
  match t.string?.map String.toList with
  | some [c] => some c
  | _ => none

/-- A list has to go on at least to the schema. -/
def endsEarly : Tree → Bool
  | .list items => items.length < 3
  | _ => false

def ofTree? (d : Dialect) (path : String) (t : Tree) : Option SourceSettings := do
  if endsEarly t then none
  let t ← t.record? d ["kind", "path", "schema", "delimiter"]
  let kind ← t.defaulted? "kind" .sqlite fun t => (t.choice? d).bind SourceKind.ofName?
  let path ← t.defaulted? "path" path Tree.string?
  let schema ← t.optional? "schema" Tree.string?
  let delimiter ← t.defaulted? "delimiter" ',' char?
  some ⟨kind, path, schema, delimiter⟩

end SourceSettings

namespace LogSettings

def defaults : LogSettings :=
  ⟨"info", "pretty"⟩

def ofTree? (d : Dialect) (t : Tree) : Option LogSettings := do
  let t ← t.record? d ["level", "format"]
  let level ← t.defaulted? "level" "info" Tree.string?
  let format ← t.defaulted? "format" "pretty" Tree.string?
  some ⟨level, format⟩

end LogSettings

namespace Settings

/-- The settings without a file. -/
def defaults (path : String) : Settings :=
  ⟨{}, .defaults path, .defaults⟩

/-- The settings of a file; the path is that of the database where the file has none. -/
def ofTree? (d : Dialect) (path : String) (t : Tree) : Option Settings := do
  let t ← t.record? d ["report", "source", "logging"]
  let report ← t.defaulted? "report" {} (ReportDefaults.ofTree? d)
  let source ← t.defaulted? "source" (.defaults path) (SourceSettings.ofTree? d path)
  let logging ← t.defaulted? "logging" .defaults (LogSettings.ofTree? d)
  some ⟨report, source, logging⟩

/-- A count written in digits, perhaps after a plus sign, that fits into 64 bits. -/
def readCount? (s : String) : Option Nat :=
  match Decimal.readInteger? s.toList with
  | some i => if s.toList.head? ≠ some '-' ∧ i < UInt64.size then some i.toNat else none
  | none => none

/-- The names under which the environment may set something. -/
def environmentNames : List String :=
  ["TALLY_SOURCE_KIND", "TALLY_SOURCE_PATH", "TALLY_SCHEMA", "TALLY_CHARTS_ENGINE", "TALLY_LIMIT_RECORDS",
    "TALLY_LOG_LEVEL", "TALLY_LOG_FORMAT"]

/-- The settings with what the environment sets. A kind or a limit that cannot be read is passed over. -/
def withEnvironment (s : Settings) (setting? : String → Option String) : Settings :=
  { report :=
      { s.report with
        chartEngine := (setting? "TALLY_CHARTS_ENGINE").getD s.report.chartEngine
        limit := (setting? "TALLY_LIMIT_RECORDS").bind readCount? <|> s.report.limit }
    source :=
      { s.source with
        kind := ((setting? "TALLY_SOURCE_KIND").bind fun name => SourceKind.ofName? (Text.lower name)).getD
          s.source.kind
        path := (setting? "TALLY_SOURCE_PATH").getD s.source.path
        schema := setting? "TALLY_SCHEMA" <|> s.source.schema }
    logging :=
      { level := (setting? "TALLY_LOG_LEVEL").getD s.logging.level
        format := (setting? "TALLY_LOG_FORMAT").getD s.logging.format } }

/-- A file with all settings and their defaults. -/
def template : String :=
  String.intercalate "\n" (
    ["# Tally Configuration",
      "#",
      "# Environment variables override these settings:"]
    ++ environmentNames.map ("# - " ++ ·) ++
    ["",
      "[report]",
      "# Chart engine named in chart settings that set none",
      "charts_engine = \"highcharts\"",
      "",
      "# Date range of reports that set none",
      "# default_start_date = \"2024-01-01\"",
      "# default_end_date = \"2025-01-01\"",
      "",
      "# List groups without matching records",
      "show_empty_records = false",
      "",
      "# Add a remainder bucket to cross-tabs with explicit ids",
      "crosstab_compute_remainder = true",
      "",
      "[source]",
      "# \"sqlite\" (database file) or \"csv\" (directory of <entity>.csv files)",
      "kind = \"sqlite\"",
      "path = \"~/.local/share/tally/tally.db\"",
      "",
      "# Entities and fields of the source",
      "# schema = \"~/.config/tally/schema.toml\"",
      "",
      "# CSV field delimiter",
      "delimiter = \",\"",
      "",
      "[logging]",
      "# Log level: trace, debug, info, warn, error",
      "level = \"info\"",
      "",
      "# Log format: pretty, json",
      "format = \"pretty\"",
      ""])

end Settings
end Reporting
