/-!
What can go wrong while a source is described, filled or asked.
-/

namespace Reporting

/-- The cause of a source's failure. -/
inductive SourceError where
  | entityNotFound (entity : String)
  | fieldNotFound (entity path : String)
  | notARelation (entity field : String)
  /-- a lookup, a cell or a description that cannot be read -/
  | parse (what : String)
  | database (what : String)
  | csv (what : String)
  | file (what : String)
deriving DecidableEq, Repr

/-- The sentence shown for a cause. -/
def SourceError.message : SourceError → String
  | entityNotFound entity => "Entity not found: " ++ entity
  | fieldNotFound entity path => "Field \"" ++ path ++ "\" not found on entity \"" ++ entity ++ "\""
  | notARelation entity field => "Field \"" ++ field ++ "\" on entity \"" ++ entity ++ "\" is not a relation"
  | parse what => "Parse error: " ++ what
  | database what => "SQLite error: " ++ what
  | csv what => "CSV error: " ++ what
  | file what => "IO error: " ++ what

end Reporting
