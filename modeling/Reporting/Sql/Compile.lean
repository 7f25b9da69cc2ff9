import Reporting.Filter
import Reporting.Schema
import Reporting.Sql.Statement

/-!
Queries as statements. Each relation on a path is a join, and paths that begin with the same relations
share their joins.
-/

namespace Reporting.Sql

/-- The joins of a statement so far, and the table that each sequence of relations leads to. -/
structure Joins where
  joins : List Join
  tables : List (List String × Nat)

def Joins.none : Joins := ⟨[], []⟩

/-- A statement under construction for an entity of a schema. -/
abbrev Building := StateT Joins (Except SourceError)

/-- Joins the tables on the way, unless they are joined already; the result is the last of them. -/
def joinHops (schema : Schema) (root : String) : List Hop → List String → Nat → Building Nat
  | [], _, table => pure table
  | hop :: hops, before, table => do
    let walked := before ++ [hop.relation.name]
    let state ← get
    match state.tables.lookup walked with
    | some next => joinHops schema root hops walked next
    | none =>
      match hop.relation.target with
      | none => throw (.notARelation root hop.relation.name)
      | some target =>
        let entity ← liftM (schema.entity target)
        let next := state.joins.length + 1
        set (Joins.mk (state.joins ++ [⟨target, ⟨table, hop.relation.name⟩, entity.primaryKey⟩])
          (state.tables ++ [(walked, next)]))
        joinHops schema root hops walked next

/-- The column at the end of a path from the entity, and its kind. -/
def columnAt (schema : Schema) (entity : Entity) (path : String) : Building (Column × FieldKind) := do
  let resolved ← liftM (schema.resolve entity.name path)
  let table ← joinHops schema entity.name resolved.hops [] 0
  pure (⟨table, resolved.field.name⟩, resolved.field.kind)

/-- The test of a column for a condition. Lists of operands that are empty hold of nothing. -/
def testOf (column : Column) (kind : FieldKind) : Condition → Test
  | .exact .null => .isNull column
  | .exact operand => .compares column .equal (encode kind operand)
  | .gt operand => .compares column .greater (encode kind operand)
  | .gte operand => .compares column .atLeast (encode kind operand)
  | .lt operand => .compares column .less (encode kind operand)
  | .lte operand => .compares column .atMost (encode kind operand)
  | .within [] => .never
  | .within operands => .isAmong column (operands.map (encode kind))
  | .isNull true => .isNull column
  | .isNull false => .isNotNull column

/-- The test of a column for a predicate; missing cells pass the opposite of a comparison. -/
def predicateTest (column : Column) (kind : FieldKind) (condition : Condition) (negated : Bool) : Test :=
  let test := testOf column kind condition
  if !negated then test
  else if condition.isNullTest then .negation test
  else .either (.isNull column) (.negation test)

/-- The test for a predicate on an entity. -/
def compilePredicate (schema : Schema) (entity : Entity) (p : Predicate) : Building Test := do
  let (column, kind) ← columnAt schema entity p.path
  pure (predicateTest column kind p.condition p.negated)

/-- A statement and the kinds of the cells it yields. -/
structure Compiled where
  select : Select
  kinds : List FieldKind

/-- Builds a statement: first the output, then the tests. -/
def compile (schema : Schema) (entity : String) (filters : FilterSet)
    (output : Entity → Building (Output × List FieldKind)) : Except SourceError Compiled := do
  let e ← schema.entity entity
  let work : Building (Output × List FieldKind × List Test) := do
    let (output, kinds) ← output e
    let tests ← filters.mapM (compilePredicate schema e)
    pure (output, kinds, tests)
  let ((output, kinds, tests), state) ← work.run Joins.none
  .ok ⟨⟨e.name, state.joins, tests, output⟩, kinds⟩

/-- The columns at the paths. -/
def columnsAt (schema : Schema) (entity : Entity) (paths : List String) :
    Building (List (Column × FieldKind)) :=
  paths.mapM (columnAt schema entity)

/-- The paths asked for, or the names of all own fields. -/
def fieldsOf (schema : Schema) (entity : String) (fields : List String) : Except SourceError (List String) :=
  if fields.isEmpty then (schema.entity entity).map Entity.fieldNames else .ok fields

/-- Reads the cells at the paths from the rows that pass. -/
def compileRows (schema : Schema) (entity : String) (filters : FilterSet) (paths : List String)
    (order : Option Column) : Except SourceError Compiled :=
  compile schema entity filters fun e => do
    let columns ← columnsAt schema e paths
    pure (.rows (columns.map Prod.fst) order, columns.map Prod.snd)

/-- Aggregates over the rows that pass. -/
def compileAggregate (schema : Schema) (entity : String) (filters : FilterSet) (a : Aggregation) :
    Except SourceError Compiled :=
  compile schema entity filters fun e => do
    let (column, _) ← columnAt schema e a.field
    pure (.aggregate a.method column, [.decimal])

/-- Aggregates over the rows that pass, for each cell at the path. -/
def compileGroups (schema : Schema) (entity : String) (filters : FilterSet) (path : String)
    (a : Aggregation) : Except SourceError Compiled :=
  compile schema entity filters fun e => do
    let (group, kind) ← columnAt schema e path
    let (column, _) ← columnAt schema e a.field
    pure (.groups group a.method column, [kind, .decimal])

/-- Reads the different cells at the path from the rows that pass. -/
def compileDistinct (schema : Schema) (entity : String) (filters : FilterSet) (path : String) :
    Except SourceError Compiled :=
  compile schema entity filters fun e => do
    let (column, kind) ← columnAt schema e path
    pure (.distinct column, [kind])

/-- The names under which related rows are read: the primary key is always among them. -/
def relatedNames (schema : Schema) (entity : String) (fields : List String) :
    Except SourceError (String × List String) := do
  let e ← schema.entity entity
  let names ← fieldsOf schema entity fields
  .ok (e.primaryKey, if e.primaryKey ∈ names then names else e.primaryKey :: names)

/-- Reads the rows with the primary keys; with an empty list of keys there is nothing to read. -/
def compileRelated (schema : Schema) (entity : String) (ids : Option (List Value)) (fields : List String) :
    Except SourceError (Option (List String × Compiled)) := do
  let (primaryKey, names) ← relatedNames schema entity fields
  let filters : FilterSet :=
    match ids with
    | some ids => [.of primaryKey (.within ids)]
    | none => []
  if ids = some [] then .ok none
  else
    let compiled ← compileRows schema entity filters names (some ⟨0, primaryKey⟩)
    .ok (some (names, compiled))

end Reporting.Sql
