import Reporting.Csv.Cell
import Reporting.Csv.Reader
import Reporting.Memory
import Reporting.Text.Utf8

/-!
Loading tables from delimited text. The first record names the fields. A record with a cell that cannot
be read is left out and reported with its line.
-/

namespace Reporting.Csv

/-- What came of loading a text. -/
structure LoadResult where
  loaded : Nat
  failed : Nat
  errors : List String
deriving DecidableEq, Repr

def LoadResult.none : LoadResult := ⟨0, 0, []⟩

/-- The cells as text, or the place of the first and how much of it can be read. -/
def decodeCells (index : Nat) : List (List UInt8) → Except (Nat × Nat) (List String)
  | [] => .ok []
  | cell :: rest =>
    match Text.decode cell with
    | .ok cs => (decodeCells (index + 1) rest).map (String.ofList cs :: ·)
    | .error good => .error (index, good)

/-- The report of a record that is no text. -/
def notText (start : Position) (cell good : Nat) : String :=
  "CSV parse error: record " ++ toString start.record ++ " (line " ++ toString start.line ++ ", field: "
    ++ toString cell ++ ", byte: " ++ toString start.byte ++ "): invalid utf-8: invalid UTF-8 in field "
    ++ toString cell ++ " near byte index " ++ toString good

/-- The cells of a record as text, or the report that they are none. -/
def RawRecord.text (r : RawRecord) : Except String (List String) :=
  (decodeCells 0 r.cells).mapError fun (cell, good) => notText r.start cell good

/-- The places of the cells that belong to fields, with these; names that no field answers to are passed
over. -/
def columnsOf (e : Entity) (header : List String) : List (Nat × Field) :=
  header.zipIdx.filterMap fun (name, place) => (e.field? (Text.trim name)).map fun f => (place, f)

/-- A record of the entity: what is read into the cells named, and missing cells for the other fields. -/
def coerceRow (e : Entity) (columns : List (Nat × Field)) (cells : List String) :
    Except SourceError Record :=
  let blank : Record := Keyed.ofList (e.fields.map fun f => (f.name, .null))
  columns.foldlM (fun record (place, f) =>
    (parseCell (cells[place]?.getD "") f.kind).map fun v => record.insert f.name v) blank

/-- Takes in the records one after another. The first of them is on the given line. -/
def loadRecords (e : Entity) (columns : List (Nat × Field)) (line : Nat) (m : Memory) (result : LoadResult) :
    List (Except String (List String)) → Except SourceError (Memory × LoadResult)
  | [] => .ok (m, result)
  | record :: rest =>
    let failing (what : String) : LoadResult :=
      { result with
        failed := result.failed + 1
        errors := result.errors ++ ["Line " ++ toString line ++ ": " ++ what] }
    match record with
    | .error what => loadRecords e columns (line + 1) m (failing what) rest
    | .ok cells =>
      match coerceRow e columns cells with
      | .error problem => loadRecords e columns (line + 1) m (failing problem.message) rest
      | .ok row =>
        match m.insert e.name row with
        | .ok m => loadRecords e columns (line + 1) m { result with loaded := result.loaded + 1 } rest
        | .error problem => .error problem

/-- Loads a text into the table of an entity. -/
def loadText (delimiter : UInt8) (m : Memory) (e : Entity) (bytes : List UInt8) :
    Except SourceError (Memory × LoadResult) :=
  match records delimiter bytes with
  | [] => .ok (m, .none)
  | header :: rest =>
    match header.text with
    | .error what => .error (.csv what)
    | .ok names => loadRecords e (columnsOf e names) 2 m .none (rest.map RawRecord.text)

/-- Loads what a file holds into the table of an entity. -/
def loadEntity (delimiter : UInt8) (m : Memory) (entity : String) (file : Except String (List UInt8)) :
    Except SourceError (Memory × LoadResult) := do
  let e ← m.schema.entity entity
  match file with
  | .error why => .error (.csv why)
  | .ok bytes => loadText delimiter m e bytes

/-- The name of the file for an entity. -/
def fileName (entity : String) : String :=
  entity ++ ".csv"

/-- Loads the files that are there into a new source, for each entity the one of its name. -/
def loadAll (delimiter : UInt8) (schema : Schema) (file? : String → Option (Except String (List UInt8))) :
    Except SourceError Memory :=
  schema.entities.values.foldlM (fun m e =>
    match file? (fileName e.name) with
    | none => .ok m
    | some file => (loadEntity delimiter m e.name file).map Prod.fst) (Memory.empty schema)

end Reporting.Csv
