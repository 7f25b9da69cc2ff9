import Reporting.Report.Error
import Reporting.Text.Quoted

/-!
What can go wrong while a command is carried out.
-/

namespace Reporting

/-- The cause of a command's failure. -/
inductive CommandError where
  | settingsUnreadable (path why : String)
  | settingsMalformed (path : String)
  | report (cause : ReportError)
  | source (cause : SourceError)
  /-- the schema that the settings name -/
  | schemaFailed (path : String) (cause : SourceError)
  | noSchema
  | noDatabase (path : String)
  /-- a delimiter that takes more than one byte -/
  | wideDelimiter
  /-- windows of a pattern that has none of its own -/
  | customWindows
  | invalidStart (text : String)
  | invalidEnd (text : String)
  | unwritable (why : String)
deriving DecidableEq, Repr

/-- What is said of a text that is no well-formed document, or not the one wanted. -/
def malformed : String := "TOML parse error"

/-- The sentence shown for a cause. -/
def CommandError.message : CommandError → String
  | settingsUnreadable path why => "Failed to read config file " ++ Text.diagnosticQuoted path ++ ": " ++ why
  | settingsMalformed path =>
    "Failed to parse config file " ++ Text.diagnosticQuoted path ++ ": " ++ malformed
  | report cause => cause.message
  | source cause => cause.message
  | schemaFailed path _ => "failed to load schema " ++ path
  | noSchema => "no schema: declare [[entities]] in the definition or set source.schema"
  | noDatabase path => "database not found: " ++ Text.diagnosticQuoted path
  | wideDelimiter => "CSV delimiter must be a single byte"
  | customWindows => "custom windows come from a report definition"
  | invalidStart text => "invalid start date " ++ text
  | invalidEnd text => "invalid end date " ++ text
  | unwritable why => why

end Reporting
