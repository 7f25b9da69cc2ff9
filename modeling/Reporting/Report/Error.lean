import Reporting.Source.Error

/-!
What can go wrong with a report: in the registry of computation fields, in how the report is put
together, or while it is made.
-/

namespace Reporting

/-- A failure of the registry of computation fields. -/
inductive RegistryError where
  | alreadyRegistered (name : String)
  | notRegistered (name : String)
  | notFound (name : String) (options : List String)
deriving DecidableEq, Repr

def RegistryError.message : RegistryError → String
  | alreadyRegistered name => "Field \"" ++ name ++ "\" is already registered"
  | notRegistered name => "Field \"" ++ name ++ "\" is not registered"
  | notFound name options =>
    "Field \"" ++ name ++ "\" is not found in the field registry. Options are "
      ++ String.intercalate "," options

/-- A report that is not well put together. -/
inductive ConfigurationError where
  | missingEntity
  | missingDateField
  | groupByNotFound (path entity : String)
  | fieldNotFound (column container entity : String)
  | crosstabFieldNotFound (path entity : String)
  /-- the names along the requirements, the last of which occurs before -/
  | dependencyCycle (names : List String)
  | misconfigured (what : String)
deriving DecidableEq, Repr

def ConfigurationError.message : ConfigurationError → String
  | missingEntity => "report entity must be set"
  | missingDateField => "date_field must be set when a time series is requested"
  | groupByNotFound path entity =>
    "Can not find group_by field: " ++ path ++ " in report entity " ++ entity
  | fieldNotFound column container entity =>
    "Field \"" ++ column ++ "\" not found either as an attribute to the report " ++ container
      ++ ", or a computation field, or a database column for the entity \"" ++ entity ++ "\""
  | crosstabFieldNotFound path entity =>
    "Can not find crosstab field: " ++ path ++ " in report entity " ++ entity
  | dependencyCycle names =>
    "Dependency cycle between computation fields: " ++ String.intercalate " -> " names
  | misconfigured what => "Misconfigured report: " ++ what

/-- A failure on the way to a report. -/
inductive ReportError where
  | configuration (cause : ConfigurationError)
  | registry (cause : RegistryError)
  | source (cause : SourceError)
  | unsupportedPattern (name : String)
  | alreadyPrepared (field : String)
  | notPrepared (field : String)
  | dependencyMissing (field dependency : String)
  | attributeFailed (name message : String)
  | definition (what : String)
deriving DecidableEq, Repr

def ReportError.message : ReportError → String
  | configuration cause => cause.message
  | registry cause => cause.message
  | source cause => cause.message
  | unsupportedPattern name => "\"" ++ name ++ "\" is not implemented for time_series_pattern"
  | alreadyPrepared field => "Computation field " ++ field ++ " is already prepared"
  | notPrepared field => "Computation field " ++ field ++ " is not prepared"
  | dependencyMissing field dependency =>
    "Computation field " ++ field ++ " has no prepared dependency " ++ dependency
  | attributeFailed name message => "Attribute " ++ name ++ " failed: " ++ message
  | definition what => "Definition error: " ++ what

end Reporting
