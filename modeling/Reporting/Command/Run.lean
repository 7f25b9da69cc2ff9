import Reporting.Command.Arguments
import Reporting.Command.Listing
import Reporting.Command.Load
import Reporting.Command.Usage
import Reporting.Computation.Builtin
import Reporting.Report.Table

/-!
Carrying out commands. The answer of a command is the text that it prints; a command that fails prints
nothing. Settings are read before anything else, also where a command has no use for them.
-/

namespace Reporting

/-- What comes of a program. -/
inductive Outcome where
  | printed (text : String)
  | failed (cause : CommandError)
  /-- the arguments ask for nothing -/
  | misused (cause : UsageError)

namespace Outcome

/-- The number that tells other programs what came of it. -/
def code : Outcome → Nat
  | printed _ => 0
  | failed _ => 1
  | misused _ => 2

/-- What is printed as the answer. -/
def output : Outcome → String
  | printed text => text
  | _ => ""

end Outcome

section
variable {m : Type → Type} [Monad m]

/-- The report of a definition on a source, and its rows. -/
def ReportDefinition.report (d : ReportDefinition) (source : Source) (defaults : ReportDefaults)
    (now : Calendar.DateTime) : Except ReportError (Report × List Row) := do
  let report ← ((← d.options defaults).build source now Workspace.empty).1
  return (report, ← report.rows)

/-- A report in a format. -/
def Report.text (r : Report) (rows : List Row) (d : ReportDefinition) (slug : Option String) :
    OutputFormat → String
  | .json => (r.response rows slug d.charts (some d.chartTitle)).json.pretty ++ "\n"
  | .csv => delimitedText r.columnsData rows
  | .table => screenText r.columnsData rows

/-- Makes the report of the definition at a path. -/
def runReport (host : Host m) (settings : Settings) (format : OutputFormat) (path : String)
    (source? schema? slug : Option String) : Action m String := do
  let definition ← ofExcept ((ReportDefinition.ofEntry path (← host.entry path)).mapError .report)
  let schema ← Schema.load host schema? settings.source.schema definition
  let source ← Source.load host settings.source source? schema
  let (report, rows) ← ofExcept ((definition.report source settings.report host.now).mapError .report)
  return report.text rows definition slug format

/-- Writes a file with all settings, or shows it. -/
def writeTemplate (host : Host m) : Option String → Action m String
  | none => pure Settings.template
  | some path => do
    match ← ExceptT.lift (host.write path Settings.template) with
    | .ok () => return "Config written to " ++ Text.diagnosticQuoted path ++ "\n"
    | .error why => throw (.unwritable why)

/-- Carries out a command. -/
def Invocation.answer (host : Host m) (i : Invocation) : Action m String := do
  let settings ← Settings.load host i.settings
  match i.command with
  | .run definition source schema slug => runReport host settings i.format definition source schema slug
  | .fields => return Registry.withDefaults.text i.format
  | .windows pattern start finish => ofExcept (listWindows i.format pattern start finish)
  | .writeSettings output => writeTemplate host output

/-- Does what the arguments ask for. -/
def perform (host : Host m) (arguments : List String) : m Outcome :=
  match Request.ofArguments arguments with
  | .error cause => pure (.misused cause)
  | .ok .version => pure (.printed versionText)
  | .ok (.help command) => pure (.printed (helpText command))
  | .ok (.invoke invocation) => do
    match ← (invocation.answer host).run with
    | .ok text => return .printed text
    | .error cause => return .failed cause

end
end Reporting
