import Std.Time.Zoned
import Reporting.Command.Run

/-!
The program: commands on the files, the environment and the clock of the system.
-/

namespace Reporting

/-- What an error of the system says of the place at which it arose. -/
def Entry.ofError : IO.Error → Entry
  | .noFileOrDirectory _ _ _ => .missing Entry.noFile
  | .inappropriateType _ _ details =>
    if details.toLower = "not a directory" then .missing Entry.notFolder else .folder
  | .permissionDenied _ _ _ => .barred "Permission denied (os error 13)"
  | e => .barred (toString e)

/-- What stands at a path of the system. -/
def systemLook (path : String) : IO Entry := do
  try return .file (← IO.FS.readBinFile path).toList
  catch e => return Entry.ofError e

/-- Writes a file of the system. -/
def systemWrite (path text : String) : IO (Except String Unit) := do
  try
    IO.FS.writeFile path text
    return .ok ()
  catch e =>
    match (Entry.ofError e).bytes with
    | .error why => return .error why
    | .ok _ => return .error (toString e)

/-- The names of the environment that matter. -/
def environmentNames : List String :=
  ["HOME", "XDG_CONFIG_HOME", "XDG_DATA_HOME"] ++ Settings.environmentNames

/-- What the clock of the system shows. -/
def systemTime : IO Calendar.DateTime := do
  let t ← Std.Time.PlainDateTime.now
  let time? := Calendar.Time.ofClock? t.hour.val.toNat t.minute.val.toNat t.second.val.toNat t.nanosecond.val.toNat
  match Calendar.Date.ofNumbers? t.year.toInt t.month.val.toNat t.day.val.toNat, time? with
  | some date, some time => return ⟨date, time⟩
  | _, _ => throw (IO.userError "the clock shows no time of the calendar")

/-- The system as a host. -/
def systemHost : IO (Host IO) := do
  let held ← environmentNames.mapM fun name => do return (name, ← IO.getEnv name)
  let setting? (name : String) : Option String := (held.lookup name).join
  return {
    look := systemLook
    write := systemWrite
    setting? := setting?
    settingsFolder := userFolder setting? "XDG_CONFIG_HOME" ".config"
    databasePath :=
      (userFolder setting? "XDG_DATA_HOME" ".local/share").elim "./tally.db" fun folder =>
        joinPath folder "tally/tally.db"
    now := ← systemTime }

end Reporting

/-- Does what the arguments ask for, and says on the error stream why that fails. -/
def main (arguments : List String) : IO UInt32 := do
  let outcome ← Reporting.perform (← Reporting.systemHost) arguments
  IO.print outcome.output
  match outcome with
  | .printed _ => pure ()
  | .failed cause => IO.eprintln ("Error: " ++ cause.message)
  | .misused cause => IO.eprintln ("error: " ++ cause.message)
  return outcome.code.toUInt32
