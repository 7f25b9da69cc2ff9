import Reporting.Value

/-!
Rows of reports: cells in the order in which they were first put in.
-/

namespace Reporting

/-- Named cells in the order of their first insertion. -/
structure Row where
  cells : List (String × Value)
deriving DecidableEq, Inhabited

namespace Row

def empty : Row := ⟨[]⟩

/-- The cells of a record in the order of their names. -/
def ofRecord (record : Record) : Row := ⟨record.entries⟩

/-- Replaces the cell of the name where it stands, or adds it at the end. -/
def putCell (name : String) (value : Value) : List (String × Value) → List (String × Value)
  | [] => [(name, value)]
  | (other, held) :: rest =>
    if other = name then (other, value) :: rest else (other, held) :: putCell name value rest

/-- Puts a cell under a name; a name that is there keeps its place. -/
def insert (row : Row) (name : String) (value : Value) : Row :=
  ⟨putCell name value row.cells⟩

/-- The cell under a name. -/
def get? (row : Row) (name : String) : Option Value :=
  row.cells.lookup name

def contains (row : Row) (name : String) : Bool :=
  (row.get? name).isSome

def size (row : Row) : Nat :=
  row.cells.length

def isEmpty (row : Row) : Bool :=
  row.cells.isEmpty

/-- The names in order. -/
def columns (row : Row) : List String :=
  row.cells.map Prod.fst

/-- The row as a JSON object with its cells in order. -/
def json (row : Row) : Json :=
  .object (row.cells.map fun (name, v) => (name, v.json))

end Row
end Reporting
