import Reporting.Schema
import Reporting.Sql.Cell
import Reporting.Sql.Piece

/-!
The tables of a database. A table keeps its rows in the order of row numbers. An integer primary key is
the row number; otherwise rows are numbered as they come. What tables there are is itself a table, which
cannot be written.
-/

namespace Reporting.Sql

/-- A column of a table. -/
structure StoredColumn where
  name : String
  affinity : Affinity
deriving DecidableEq, Repr

/-- A row and its number. -/
structure StoredRow where
  number : Int
  cells : List Cell

/-- A table of a database. -/
structure StoredTable where
  name : String
  columns : List StoredColumn
  /-- the place of the primary key among the columns -/
  key : Option Nat
  /-- the text that creates the table -/
  declared : String
  rows : Array StoredRow

/-- The tables of a database in the order of their creation. -/
abbrev Store := List StoredTable

/-- Names of tables and columns are the same up to the case of unaccented letters. -/
def sameName (a b : String) : Bool :=
  a.toList.map Char.toLower == b.toList.map Char.toLower

/-- The name is one for the number of a row, where no column has it. -/
def namesNumber (name : String) : Bool :=
  ["rowid", "oid", "_rowid_"].any (sameName name)

namespace StoredTable

/-- The place of the column of the name. -/
def columnIndex? (t : StoredTable) (name : String) : Option Nat :=
  t.columns.findIdx? fun c => sameName c.name name

/-- The table has something of the name. -/
def has (t : StoredTable) (name : String) : Bool :=
  (t.columnIndex? name).isSome || namesNumber name

/-- The affinity of what has the name; the numbers of rows are integers. -/
def affinity (t : StoredTable) (name : String) : Affinity :=
  match t.columns.find? fun c => sameName c.name name with
  | some c => c.affinity
  | none => .integer

/-- The cell of a row that has the name. -/
def cell (t : StoredTable) (row : StoredRow) (name : String) : Cell :=
  match t.columnIndex? name with
  | some i => row.cells[i]?.getD .null
  | none => .integer (Int64.ofInt row.number)

/-- The column that is the row number: a primary key of integers. -/
def numberIndex? (t : StoredTable) : Option Nat :=
  t.key.filter fun i => (t.columns[i]?).any fun c => c.affinity == .integer

/-- The number for a row to come after all others. -/
def nextNumber (t : StoredTable) : Int :=
  match t.rows.back? with
  | some row => row.number + 1
  | none => 1

/-- The failure when a second row has the same cell in the column at the place, or the same number. -/
def duplicate (t : StoredTable) (place : Option Nat) : SourceError :=
  let name := match place.bind (t.columns[·]?) with | some c => c.name | none => "rowid"
  .database ("UNIQUE constraint failed: " ++ t.name ++ "." ++ name)

/-- The row in its place among those with ascending numbers. -/
def placeRow (rows : Array StoredRow) (row : StoredRow) : Array StoredRow :=
  match rows.back? with
  | some last =>
    if last.number < row.number then rows.push row
    else
      (rows.toList.takeWhile (fun r => r.number < row.number) ++
        row :: rows.toList.dropWhile (fun r => r.number < row.number)).toArray
  | none => #[row]

/-- The number of a new row: the given one, which no other row has, or the next. -/
def number (t : StoredTable) : Cell → Except SourceError Int
  | .null => .ok t.nextNumber
  | .integer i =>
    if t.rows.any fun r => r.number == i.toInt then .error (t.duplicate t.numberIndex?) else .ok i.toInt
  | _ => .error (.database "datatype mismatch")

/-- Another row has the same cell as its primary key. -/
def holdsKey (t : StoredTable) (cells : List Cell) : Bool :=
  match t.key with
  | none => false
  | some place =>
    let key := cells[place]?.getD .null
    t.numberIndex?.isNone && !key.isNull
      && t.rows.any fun r => (r.cells[place]?.getD .null).order key == .eq

/-- Adds a row with the given number, whose cells are already as their columns keep them. -/
def insert (t : StoredTable) (given : Cell) (cells : List Cell) : Except SourceError StoredTable := do
  let number ← t.number given
  if t.holdsKey cells then .error (t.duplicate t.key)
  let cells := match t.numberIndex? with
    | some place => cells.set place (.integer (Int64.ofInt number))
    | none => cells
  return { t with rows := placeRow t.rows ⟨number, cells⟩ }

end StoredTable

namespace Store

/-- The names of the table of tables, and those of the one for tables that do not last. -/
def catalogNames : List String := ["sqlite_master", "sqlite_schema"]
def temporaryNames : List String := ["sqlite_temp_master", "sqlite_temp_schema"]

/-- The rows of the table of tables for a table whose first page is the given one, and the page after. A
primary key that is not the row number has an index, on a page of its own. -/
def catalogRows (page : Nat) (t : StoredTable) : List (List Cell) × Nat :=
  let row (kind name : String) (page : Nat) (declared : Cell) : List Cell :=
    [.text kind, .text name, .text t.name, .integer (Int64.ofNat page), declared]
  let own := row "table" t.name page (.text t.declared)
  if t.key.isSome && t.numberIndex?.isNone then
    ([own, row "index" ("sqlite_autoindex_" ++ t.name ++ "_1") (page + 1) .null], page + 2)
  else ([own], page + 1)

/-- A table of tables with the rows. -/
def catalogOf (name : String) (rows : List (List Cell)) : StoredTable where
  name := name
  columns := [⟨"type", .text⟩, ⟨"name", .text⟩, ⟨"tbl_name", .text⟩, ⟨"rootpage", .integer⟩, ⟨"sql", .text⟩]
  key := none
  declared := ""
  rows := (rows.mapIdx fun i cells => ⟨i + 1, cells⟩).toArray

/-- The table of tables. -/
def catalog (store : Store) : StoredTable :=
  let (rows, _) := store.foldl (fun (rows, page) t =>
    let (more, page) := catalogRows page t
    (rows ++ more, page)) ([], 2)
  catalogOf "sqlite_master" rows

/-- A table of tables of the name. -/
def catalog? (store : Store) (name : String) : Option StoredTable :=
  if catalogNames.any (sameName name) then some store.catalog
  else if temporaryNames.any (sameName name) then some (catalogOf "sqlite_temp_master" [])
  else none

/-- The table of the name. -/
def table? (store : Store) (name : String) : Option StoredTable :=
  store.catalog? name <|> store.find? fun t => sameName t.name name

/-- Puts the table in place of the one of its name. -/
def replace (store : Store) (t : StoredTable) : Store :=
  store.map fun other => if other.name = t.name then t else other

/-! ## Creating tables -/

/-- How many columns a table may have. -/
def maxColumns : Nat := 2000

/-- Names with this beginning are for the database itself. -/
def isReserved (name : String) : Bool :=
  sameName (String.ofList (name.toList.take 7)) "sqlite_"

/-- What is wrong with a column of a table, after those before it. -/
def columnFault? (table : String) (before : List String) (name : String) : Option Fault :=
  if maxColumns ≤ before.length then some (.whole ("too many columns on " ++ table))
  else if before.any (sameName name) then some (.whole ("duplicate column name: " ++ name))
  else none

/-- The columns of an entity's table. Faults in them matter only if the table is new. -/
def columnParts (isNew : Bool) (e : Entity) : List String → List Field → List Part
  | _, [] => []
  | before, f :: rest =>
    let type := (Affinity.ofKind f.kind).sqlType ++ (if f.name = e.primaryKey then " PRIMARY KEY" else "")
    ⟨[.fixed (if before.isEmpty then "" else ", "), .name f.name, .fixed (" " ++ type)],
      if isNew then columnFault? e.name before f.name else none⟩
      :: columnParts isNew e (before ++ [f.name]) rest

/-- What a table needs besides its name. -/
def nameFault? (e : Entity) : Option Fault :=
  if isReserved e.name then some (.whole ("object name reserved for internal use: " ++ e.name))
  else if e.fields.isEmpty then some (.next "near \")\": syntax error")
  else none

/-- The text that creates the table of an entity, unless it is there. -/
def createParts (isNew : Bool) (e : Entity) : List Part :=
  ⟨[.fixed "CREATE TABLE IF NOT EXISTS ", .name e.name, .fixed " ("], nameFault? e⟩
    :: columnParts isNew e [] e.fields ++ [⟨[.fixed ")"], none⟩]

/-- The text of a new table by which it is kept. -/
def declaredText (e : Entity) : String :=
  "CREATE TABLE " ++ Piece.textOf ((Part.all (createParts true e)).drop 1)

/-- The table of an entity, without rows. -/
def tableOf (e : Entity) : StoredTable where
  name := e.name
  columns := e.fields.map fun f => ⟨f.name, Affinity.ofKind f.kind⟩
  key := e.fields.findIdx? fun f => f.name == e.primaryKey
  declared := declaredText e
  rows := #[]

/-- Creates the table of an entity, unless there is one of its name. -/
def create (store : Store) (e : Entity) : Except SourceError Store := do
  let isNew := (store.table? e.name).isNone
  Part.read (createParts isNew e)
  return if isNew then store ++ [tableOf e] else store

/-- Creates tables up to the first failure, which is told with what was reached. -/
def createAll (store : Store) : List Entity → Store × Option SourceError
  | [] => (store, none)
  | e :: rest =>
    match store.create e with
    | .ok store => store.createAll rest
    | .error problem => (store, some problem)

/-! ## Adding rows -/

/-- The text that adds a row for an entity. -/
def insertParts (e : Entity) : List Part :=
  [⟨[.fixed "INSERT INTO ", .name e.name, .fixed " ("],
      if e.fields.isEmpty then some (.next "near \")\": syntax error") else none⟩,
    ⟨Piece.commas (e.fields.map fun f => .name f.name) ++ [.fixed ") VALUES ("]
      ++ Piece.commas (e.fields.map fun _ => .operand) ++ [.fixed ")"], none⟩]

/-- The cell of a record for a field. -/
def fieldCell (record : Record) (affinity : Affinity) (f : Field) : Cell :=
  (encode f.kind (record.cell f.name)).store affinity

/-- The cell that a column keeps of a record, which may name its fields in another case. -/
def cellOf (e : Entity) (record : Record) (column : StoredColumn) : Cell :=
  match e.fields.find? fun f => sameName f.name column.name with
  | some f => fieldCell record column.affinity f
  | none => .null

/-- The last field that gives the number of a row. -/
def numberField? (t : StoredTable) (e : Entity) : Option Field :=
  e.fields.reverse.find? fun f =>
    match t.columnIndex? f.name with
    | some i => t.numberIndex? = some i
    | none => namesNumber f.name

/-- Adds a record of an entity to a table. -/
def insertRecord (e : Entity) (t : StoredTable) (record : Record) : Except SourceError StoredTable :=
  let given := match numberField? t e with
    | some f => fieldCell record .integer f
    | none => .null
  t.insert given (t.columns.map (cellOf e record))

/-- The table to which records of an entity are added. -/
def target (store : Store) (e : Entity) : Except SourceError StoredTable := do
  Part.read (insertParts e)
  match store.catalog? e.name, store.table? e.name with
  | some t, _ => .error (.database ("table " ++ t.name ++ " may not be modified"))
  | none, none => .error (.database ("no such table: " ++ e.name))
  | none, some t =>
    match e.fieldNames.find? fun name => !t.has name with
    | some name => .error (.database ("table " ++ e.name ++ " has no column named " ++ name))
    | none => .ok t

/-- Adds records to the table of an entity, all or none. -/
def insertAll (store : Store) (e : Entity) (records : List Record) : Except SourceError Store := do
  let t ← store.target e
  (records.foldlM (insertRecord e) t).map store.replace

end Store
end Reporting.Sql
