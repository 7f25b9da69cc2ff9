import Reporting.Sql.Image.Declaration
import Reporting.Sql.Image.Pages

/-!
The file of a database, read as its tables. The first page has a head with the size of the pages, and the
tree of a table with a row for each table: its name, the page of its tree and its declaration.
-/

namespace Reporting.Sql.Image

/-- The bytes with which the file of a database begins. -/
def signature : List UInt8 :=
  Text.encode "SQLite format 3\x00"

/-- The pages of a file, if it is one of a database and its texts are of single bytes. -/
def pages? (bytes : ByteArray) : Option Pages :=
  let whole : Pages := ⟨bytes, 0, 0⟩
  if whole.slice 0 16 ≠ signature ∨ whole.naturalAt 56 4 > 1 then none
  else
    let size := match whole.naturalAt 16 2 with
      | 1 => 65536
      | size => size
    if size < 512 then none else some ⟨bytes, size, size - whole.naturalAt 20 1⟩

/-- The cells of a row as the columns of the table keep them. A key that is the row's number is not in the
record, and a cell that is missing at the end is null. -/
def rowCells (key : Option String) (number : Int) : List DeclaredColumn → List Cell → List Cell
  | [], _ => []
  | c :: columns, cells =>
    let held := cells.headD .null
    let cell :=
      if key = some c.name ∧ c.type.toUpper = "INTEGER" ∧ held.isNull then .integer (Int64.ofInt number)
      else match Affinity.ofType c.type with
        | .real => held.store .real
        | _ => held
    cell :: rowCells key number columns cells.tail

/-- A table of the name with the rows of the tree at a page. -/
def table? (p : Pages) (name : String) (root : Nat) (text : String) : Option StoredTable := do
  let rows ← p.rows? maxDepth root
  let (columns, key) := declaration text
  some {
    name
    columns := columns.map fun c => ⟨c.name, Affinity.ofType c.type⟩
    key := key.bind fun key => columns.findIdx? fun c => sameName c.name key
    declared := text
    rows := (rows.map fun (number, cells) => ⟨number, rowCells key number columns cells⟩).toArray }

/-- The tables in the file of a database. Those that are kept in another way are passed over. -/
def store? (bytes : ByteArray) : Option Store := do
  let p ← pages? bytes
  let listed ← p.rows? maxDepth 1
  some (listed.filterMap fun (_, cells) =>
    match cells with
    | [.text "table", .text name, _, .integer root, .text text] => table? p name root.toInt.toNat text
    | _ => none)

end Reporting.Sql.Image
