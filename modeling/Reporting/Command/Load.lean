import Reporting.Command.Error
import Reporting.Command.Host
import Reporting.Csv.Load
import Reporting.Report.Definition
import Reporting.Settings
import Reporting.Sql.Database
import Reporting.Sql.Image.Basic
import Reporting.Toml.Reader
import Reporting.Tree.Schema

/-!
What commands load from the host: settings, definitions, schemas and sources. Settings at a path that is
given must be readable; of the paths at which they are looked for, those without any are passed over.
-/

namespace Reporting

/-- Work on a host that answers, or fails. -/
abbrev Action (m : Type → Type) (α : Type) := ExceptT CommandError m α

/-- What stands at a path, as an action. -/
def Host.entry {m : Type → Type} [Monad m] (host : Host m) (path : String) : Action m Entry :=
  ExceptT.lift (host.look path)

/-! ## Settings -/

/-- The settings in an entry, with what the environment sets. -/
def Settings.ofEntry {m : Type → Type} (host : Host m) (path : String) (entry : Entry) :
    Except CommandError Settings :=
  match entry.text with
  | .error why => .error (.settingsUnreadable path why)
  | .ok text =>
    match (Toml.read? text).bind (Settings.ofTree? .toml host.databasePath) with
    | some settings => .ok (settings.withEnvironment host.setting?)
    | none => .error (.settingsMalformed path)

/-- The paths at which settings are looked for. -/
def Host.settingsPaths {m : Type → Type} (host : Host m) : List String :=
  (host.settingsFolder.map fun folder => joinPath folder "tally/config.toml").toList ++ ["./tally.toml"]

section
variable {m : Type → Type} [Monad m]

/-- The first settings that can be read, or those without a file. -/
def Settings.first (host : Host m) : List String → Action m Settings
  | [] => pure ((Settings.defaults host.databasePath).withEnvironment host.setting?)
  | path :: rest => do
    match Settings.ofEntry host path (← host.entry path) with
    | .ok settings => pure settings
    | .error _ => first host rest

/-- The settings at the path that is given, or else those that are found. -/
def Settings.load (host : Host m) : Option String → Action m Settings
  | some path => do ofExcept (Settings.ofEntry host path (← host.entry path))
  | none => Settings.first host host.settingsPaths

/-! ## Reports -/

/-- The definition in an entry. -/
def ReportDefinition.ofEntry (path : String) (entry : Entry) : Except ReportError ReportDefinition :=
  match entry.text with
  | .error why => .error (.definition ("failed to read " ++ Text.diagnosticQuoted path ++ ": " ++ why))
  | .ok text =>
    match (Toml.read? text).bind (ReportDefinition.ofTree? .toml) with
    | some definition => .ok definition
    | none => .error (.definition malformed)

/-- The schema in an entry. -/
def Schema.ofEntry (entry : Entry) : Except SourceError Schema :=
  match entry.text with
  | .error why => .error (.file why)
  | .ok text =>
    match (Toml.read? text).bind (Schema.ofTree? .toml) with
    | some schema => .ok schema
    | none => .error (.parse malformed)

/-- The schema of a report: at the path that is given, else in the definition, else at the path in the
settings. -/
def Schema.load (host : Host m) (given configured : Option String) (definition : ReportDefinition) :
    Action m Schema :=
  match given, definition.schema?, configured with
  | some path, _, _ => do ofExcept ((Schema.ofEntry (← host.entry path)).mapError .source)
  | none, some schema, _ => pure schema
  | none, none, some path => do ofExcept ((Schema.ofEntry (← host.entry path)).mapError (.schemaFailed path))
  | none, none, none => throw .noSchema

/-- The tables of a database at a path. An empty file is a database without tables. -/
def Sql.Store.ofEntry (path : String) : Entry → Except CommandError Sql.Store
  | .missing _ => .error (.noDatabase path)
  | .database store => .ok store
  | .file [] => .ok []
  | .file bytes =>
    match Sql.Image.store? ⟨bytes.toArray⟩ with
    | some store => .ok store
    | none => .error (.source (.database "file is not a database"))
  | _ => .error (.source (.database ("unable to open database file: " ++ path)))

/-- The tables of text files in a folder. -/
def Memory.load (host : Host m) (delimiter : Char) (folder : String) (schema : Schema) : Action m Memory := do
  if 255 < delimiter.toNat then throw .wideDelimiter
  else do
    let files ← schema.entities.names.mapM fun entity => do
      let name := Csv.fileName entity
      pure (name, (← host.entry (joinPath folder name)).bytes?)
    ofExcept ((Csv.loadAll delimiter.toNat.toUInt8 schema fun name => (files.lookup name).join).mapError .source)

/-- The source that the settings name, at a path of its own if one is given. -/
def Source.load (host : Host m) (settings : SourceSettings) (path? : Option String) (schema : Schema) :
    Action m Source := do
  let path := path?.getD settings.path
  match settings.kind with
  | .sqlite => return (Sql.Database.mk schema (← ofExcept (Sql.Store.ofEntry path (← host.entry path)))).source
  | .csv => return (← Memory.load host settings.delimiter path schema).source

end
end Reporting
