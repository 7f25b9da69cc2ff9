import Reporting.Source.Basic
import Std.Data.TreeMap

/-!
Tables held in memory. Records are kept in the order in which they were inserted; an index of each table
finds the last record with a primary key, so that relations can be followed.
-/

namespace Reporting

/-- The records of an entity, and the position of the last record with each key. -/
structure Table where
  rows : Array Record
  positions : Std.TreeMap String Nat

namespace Table

def empty : Table := ⟨#[], {}⟩

/-- Adds a record at the end. A record whose primary key is not missing becomes the one found by it. -/
def insert (t : Table) (primaryKey : String) (record : Record) : Table :=
  let id := record.cell primaryKey
  ⟨t.rows.push record, if id.isNull then t.positions else t.positions.insert id.key t.rows.size⟩

/-- The last record with the primary key. -/
def find? (t : Table) (id : Value) : Option Record :=
  match t.positions[id.key]? with
  | some position => t.rows[position]?
  | none => none

end Table

/-- A source whose tables are in memory. -/
structure Memory where
  schema : Schema
  tables : Keyed Table

namespace Memory

def empty (schema : Schema) : Memory := ⟨schema, Keyed.empty⟩

/-- The table of an entity; one never filled is empty. -/
def tableOf (m : Memory) (entity : String) : Table :=
  (m.tables.get? entity).getD Table.empty

/-- Adds a record to the table of an entity of the schema. -/
def insert (m : Memory) (entity : String) (record : Record) : Except SourceError Memory :=
  match m.schema.entity entity with
  | .ok e => .ok { m with tables := m.tables.insert entity ((m.tableOf entity).insert e.primaryKey record) }
  | .error e => .error e

/-- Adds records one after another up to the first failure, which is told with what was reached. -/
def insertAll (m : Memory) (entity : String) : List Record → Memory × Option SourceError
  | [] => (m, none)
  | record :: rest =>
    match m.insert entity record with
    | .ok m => m.insertAll entity rest
    | .error e => (m, some e)

/-- The number of records of an entity. -/
def size (m : Memory) (entity : String) : Nat :=
  (m.tableOf entity).rows.size

def isEmpty (m : Memory) : Bool :=
  m.tables.values.all fun t => t.rows.isEmpty

/-- The row that a relation's cell names. -/
def related? (m : Memory) (relation : Field) (id : Value) : Option Record :=
  if id.isNull then none
  else
    match relation.target with
    | some target => (m.tableOf target).find? id
    | none => none

/-- The record reached from a record over the relations. -/
def follow? (m : Memory) (record : Record) : List Hop → Option Record
  | [] => some record
  | hop :: hops =>
    match m.related? hop.relation (record.cell hop.relation.name) with
    | some next => m.follow? next hops
    | none => none

/-- The cell at the end of a path; missing where a relation leads nowhere. -/
def cellAt (m : Memory) (record : Record) (path : ResolvedPath) : Value :=
  match m.follow? record path.hops with
  | some last => last.cell path.field.name
  | none => .null

/-- The records of an entity of the schema. -/
def records (m : Memory) (entity : String) : Except SourceError (List Record) :=
  match m.schema.entity entity with
  | .ok _ => .ok (m.tableOf entity).rows.toList
  | .error e => .error e

/-- The predicates with the places that their paths lead to. -/
def resolveFilters (m : Memory) (entity : String) (filters : FilterSet) :
    Except SourceError (List (ResolvedPath × Predicate)) :=
  filters.mapM fun p => (m.schema.resolve entity p.path).map fun path => (path, p)

/-- The record passes every predicate. -/
def passes (m : Memory) (tests : List (ResolvedPath × Predicate)) (record : Record) : Bool :=
  tests.all fun (path, p) => p.accepts (m.cellAt record path)

/-- The records that pass the filters, in the order of the table. -/
def matching (m : Memory) (entity : String) (filters : FilterSet) : Except SourceError (List Record) := do
  let records ← m.records entity
  let tests ← m.resolveFilters entity filters
  .ok (records.filter (m.passes tests))

/-- The names and places of the paths; with no path, those of all own fields. -/
def resolveFields (m : Memory) (entity : String) (fields : List String) :
    Except SourceError (List (String × ResolvedPath)) := do
  let names ← if fields.isEmpty then (m.schema.entity entity).map Entity.fieldNames else .ok fields
  names.mapM fun name => (m.schema.resolve entity name).map fun path => (name, path)

/-- The cells of a record at the places, under the names of the paths. -/
def project (m : Memory) (record : Record) (fields : List (String × ResolvedPath)) : Record :=
  Keyed.ofList (fields.map fun (name, path) => (name, m.cellAt record path))

def rows (m : Memory) (entity : String) (filters : FilterSet) (fields : List String) :
    Except SourceError (List Record) := do
  let fields ← m.resolveFields entity fields
  let records ← m.matching entity filters
  .ok (records.map fun record => m.project record fields)

def aggregate (m : Memory) (entity : String) (filters : FilterSet) (aggregation : Aggregation) :
    Except SourceError (Option Float) := do
  let target ← m.schema.resolve entity aggregation.field
  let records ← m.matching entity filters
  .ok (aggregation.method.compute? (records.map fun record => m.cellAt record target))

/-- Puts a cell in front of the others of its group; a new group comes last. -/
def addToGroup (key : String) (cell : Value) : List (String × List Value) → List (String × List Value)
  | [] => [(key, [cell])]
  | (other, cells) :: rest =>
    if other = key then (other, cell :: cells) :: rest else (other, cells) :: addToGroup key cell rest

/-- The cells by the key of their group, groups and cells in order of appearance. -/
def groupCells (keyed : List (String × Value)) : List (String × List Value) :=
  (keyed.foldl (fun groups (key, cell) => addToGroup key cell groups) []).map fun (key, cells) =>
    (key, cells.reverse)

def groupAggregate (m : Memory) (entity : String) (filters : FilterSet) (path : String)
    (aggregation : Aggregation) : Except SourceError Groups := do
  let group ← m.schema.resolve entity path
  let target ← m.schema.resolve entity aggregation.field
  let records ← m.matching entity filters
  let groups := groupCells (records.map fun record => ((m.cellAt record group).key, m.cellAt record target))
  .ok (groups.filterMap fun (key, cells) => (aggregation.method.compute? cells).map fun x => (key, x))

/-- Leaves out the cells whose key came before; `seen` are the keys so far. -/
def dedupByKey (seen : List String) : List Value → List Value
  | [] => []
  | v :: rest => if v.key ∈ seen then dedupByKey seen rest else v :: dedupByKey (v.key :: seen) rest

def distinctValues (m : Memory) (entity : String) (filters : FilterSet) (path : String) :
    Except SourceError (List Value) := do
  let path ← m.schema.resolve entity path
  let records ← m.matching entity filters
  .ok (dedupByKey [] (records.map fun record => m.cellAt record path))

/-- The record goes in front of the first of the records at the end whose primary keys are all larger,
so that those with keys that do not compare stay in order. The records before are given last first. -/
def insertById (primaryKey : String) (record : Record) : List Record → List Record
  | [] => [record]
  | last :: before =>
    if (record.cell primaryKey).order? (last.cell primaryKey) = some .lt then
      last :: insertById primaryKey record before
    else record :: last :: before

/-- Sorts by primary key, each record in turn against those before it. Of many records whose keys do not all compare this is
one of the orders that a sort may make; `relatedRowsBy` leaves the sort open. -/
def sortById (primaryKey : String) (records : List Record) : List Record :=
  (records.foldl (fun sorted record => insertById primaryKey record sorted) []).reverse

/-- The record is among those asked for. -/
def wants (primaryKey : String) (ids : Option (List Value)) (record : Record) : Bool :=
  match ids with
  | none => true
  | some ids =>
    match record.get? primaryKey with
    | some id => ids.any fun wanted => wanted.key == id.key
    | none => false

/-- What is read of a related record; the primary key is always part of it. -/
def projectRelated (m : Memory) (primaryKey : String) (places : List (String × ResolvedPath)) (record : Record) : Record :=
  let projected := m.project record places
  if projected.contains primaryKey then projected else projected.insert primaryKey (record.cell primaryKey)

/-- The related rows, put in order by a sort, which may come to something else than a list. -/
def relatedRowsBy {f : Type → Type} [Monad f] (sort : String → List Record → f (List Record)) (m : Memory)
    (entity : String) (ids : Option (List Value)) (fields : List String) : Except SourceError (f (List Record)) := do
  let e ← m.schema.entity entity
  let places ← m.resolveFields entity fields
  .ok (List.map (m.projectRelated e.primaryKey places) <$>
    sort e.primaryKey ((m.tableOf entity).rows.toList.filter (wants e.primaryKey ids)))

def relatedRows (m : Memory) (entity : String) (ids : Option (List Value)) (fields : List String) :
    Except SourceError (List Record) :=
  m.relatedRowsBy (f := Id) sortById entity ids fields

/-- The tables as a source. -/
def source (m : Memory) : Source where
  schema := m.schema
  rows := m.rows
  aggregate := m.aggregate
  groupAggregate := m.groupAggregate
  distinctValues := m.distinctValues
  relatedRows := m.relatedRows

end Memory
end Reporting
