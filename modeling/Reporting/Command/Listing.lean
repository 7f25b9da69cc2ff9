import Reporting.Command.Basic
import Reporting.Command.Error
import Reporting.Computation.Registry
import Reporting.Json.Basic
import Reporting.Text.Aligned
import Reporting.Window

/-!
Lists that commands print: the computation fields of a registry, and the windows of a time series.
-/

namespace Reporting

/-- Cells in columns of the given widths, and the last cell as it is. -/
def alignedLine (widths : List Nat) (cells : List String) : String :=
  " ".intercalate (widths.zipWith Text.padRight cells ++ cells.drop widths.length)

/-- The computation fields of a registry. -/
def Registry.text (r : Registry) : OutputFormat → String
  | .json => (Json.strings r.names).pretty ++ "\n"
  | _ =>
    let line := alignedLine [28, 28, 8]
    Text.lines (line ["Name", "Verbose name", "Type", "Summable"] :: Text.dashes 74 ::
      r.fields.values.map fun c => line [c.name, c.label, c.columnType, if c.isSummable then "yes" else "no"])

/-- A window as an object. -/
def Window.json (w : Window) : Json :=
  .object [("start", .string w.start.exactText), ("end", .string w.finish.exactText)]

/-- The windows of a pattern. -/
def windowsText (pattern : Pattern) (windows : List Window) : OutputFormat → String
  | .json => (Json.array (windows.map Window.json)).pretty ++ "\n"
  | _ =>
    let line := alignedLine [12, 20, 20]
    Text.lines (line ["Suffix", "Start", "End", "Label"] :: Text.dashes 80 ::
      windows.zipIdx.map fun (w, i) =>
        line [w.columnSuffix, w.start.minuteText, w.finish.minuteText, pattern.windowLabel "Total" w i])

/-- Lists the windows of a time series. -/
def listWindows (format : OutputFormat) (pattern start finish : String) : Except CommandError String := do
  let found ← (Pattern.ofName pattern).mapError .report
  if found = .custom then .error .customWindows
  else do
    let first ← (Calendar.readDateTime? start).elim (.error (.invalidStart start)) .ok
    let last ← (Calendar.readDateTime? finish).elim (.error (.invalidEnd finish)) .ok
    let windows ← (found.windows first last []).mapError .report
    return windowsText found windows format

end Reporting
