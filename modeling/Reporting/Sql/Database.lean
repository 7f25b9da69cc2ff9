import Reporting.Source.Basic
import Reporting.Sql.Compile
import Reporting.Sql.Evaluate

/-!
A database as a source: queries are compiled to statements, and what these yield is read back as the
kinds of the fields say.
-/

namespace Reporting.Sql

/-- A database, and the schema by which it is asked. -/
structure Database where
  schema : Schema
  store : Store

namespace Database

/-- A database without tables. -/
def empty (schema : Schema) : Database := ⟨schema, []⟩

/-- Creates the tables of the schema that are not there. -/
def createTables (db : Database) : Database × Option SourceError :=
  let (store, problem) := db.store.createAll db.schema.entities.values
  ({ db with store }, problem)

/-- Adds records to the table of an entity, all or none. -/
def insert (db : Database) (entity : String) (records : List Record) : Except SourceError Database := do
  let e ← db.schema.entity entity
  let store ← db.store.insertAll e records
  .ok { db with store }

/-- The values that a statement yields. -/
def query (db : Database) (compiled : Compiled) : Except SourceError (List (List Value)) :=
  (compiled.select.run db.store).map fun rows =>
    rows.map fun cells => compiled.kinds.zipWith decode cells

/-- Records of values under their names. -/
def named (names : List String) (rows : List (List Value)) : List Record :=
  rows.map fun values => Keyed.ofList (names.zip values)

def rows (db : Database) (entity : String) (filters : FilterSet) (fields : List String) :
    Except SourceError (List Record) := do
  let names ← fieldsOf db.schema entity fields
  let compiled ← compileRows db.schema entity filters names none
  (db.query compiled).map (named names)

def aggregate (db : Database) (entity : String) (filters : FilterSet) (a : Aggregation) :
    Except SourceError (Option Float) := do
  let compiled ← compileAggregate db.schema entity filters a
  let rows ← db.query compiled
  match rows with
  | [[value]] => .ok value.toFloat?
  | _ => .ok none

/-- Groups under the keys of their values; of groups with the same key the last stays. -/
def keyedGroups (rows : List (List Value)) : Groups :=
  let found := rows.filterMap fun row =>
    match row with
    | [group, value] => value.toFloat?.map fun x => (group.key, x)
    | _ => none
  found.foldl (fun groups (key, x) => groups.filter (fun e => e.1 != key) ++ [(key, x)]) []

def groupAggregate (db : Database) (entity : String) (filters : FilterSet) (path : String)
    (a : Aggregation) : Except SourceError Groups := do
  let compiled ← compileGroups db.schema entity filters path a
  (db.query compiled).map keyedGroups

def distinctValues (db : Database) (entity : String) (filters : FilterSet) (path : String) :
    Except SourceError (List Value) := do
  let compiled ← compileDistinct db.schema entity filters path
  (db.query compiled).map fun rows => rows.filterMap List.head?

def relatedRows (db : Database) (entity : String) (ids : Option (List Value)) (fields : List String) :
    Except SourceError (List Record) := do
  let compiled? ← compileRelated db.schema entity ids fields
  match compiled? with
  | none => .ok []
  | some (names, compiled) => (db.query compiled).map (named names)

/-- The database as a source. -/
def source (db : Database) : Source where
  schema := db.schema
  rows := db.rows
  aggregate := db.aggregate
  groupAggregate := db.groupAggregate
  distinctValues := db.distinctValues
  relatedRows := db.relatedRows

/-- The statement that a query is compiled to, if it gets that far and there is anything to ask. -/
def statement? (db : Database) : Query → Option Select
  | .rows entity filters fields =>
    match fieldsOf db.schema entity fields with
    | .ok names => (compileRows db.schema entity filters names none).toOption.map Compiled.select
    | .error _ => none
  | .aggregate entity filters a =>
    (compileAggregate db.schema entity filters a).toOption.map Compiled.select
  | .group entity filters path a =>
    (compileGroups db.schema entity filters path a).toOption.map Compiled.select
  | .distinct entity filters path =>
    (compileDistinct db.schema entity filters path).toOption.map Compiled.select
  | .related entity ids fields =>
    match compileRelated db.schema entity ids fields with
    | .ok (some (_, compiled)) => some compiled.select
    | _ => none

end Database
end Reporting.Sql
