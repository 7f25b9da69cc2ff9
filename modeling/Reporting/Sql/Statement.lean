import Reporting.Aggregate
import Reporting.Sql.Cell
import Reporting.Sql.Piece

/-!
Statements that read from a database, and their text. Tables are named `t0`, `t1`, … in the order in
which a statement joins them; operands are not part of the text, a question mark stands for each.
-/

namespace Reporting.Sql

/-- How a column is compared with an operand. -/
inductive Comparison where
  | equal
  | greater
  | atLeast
  | less
  | atMost
deriving DecidableEq, Repr

def Comparison.text : Comparison → String
  | equal => "="
  | greater => ">"
  | atLeast => ">="
  | less => "<"
  | atMost => "<="

/-- Whether the comparison holds for cells in that order. -/
def Comparison.holds : Comparison → Ordering → Bool
  | equal, o => o == .eq
  | greater, o => o == .gt
  | atLeast, o => o != .lt
  | less, o => o == .lt
  | atMost, o => o != .gt

/-- A test of a row. -/
inductive Test where
  /-- holds of no row -/
  | never
  | isNull (column : Column)
  | isNotNull (column : Column)
  | compares (column : Column) (comparison : Comparison) (operand : Cell)
  | isAmong (column : Column) (operands : List Cell)
  | negation (test : Test)
  | either (first second : Test)
deriving DecidableEq

namespace Test
open Piece

def pieces : Test → List Piece
  | never => [fixed "0"]
  | isNull c => [column c, fixed " IS NULL"]
  | isNotNull c => [column c, fixed " IS NOT NULL"]
  | compares c comparison _ => [column c, fixed (" " ++ comparison.text ++ " "), operand]
  | isAmong c operands =>
    [column c, fixed " IN ("] ++ commas (operands.map fun _ => operand) ++ [fixed ")"]
  | negation t => fixed "NOT (" :: t.pieces ++ [fixed ")"]
  | either a b => fixed "(" :: a.pieces ++ fixed " OR " :: b.pieces ++ [fixed ")"]

def text (t : Test) : String :=
  textOf t.pieces

/-- How deep the expression of a test is nested. -/
def depth : Test → Nat
  | never => 1
  | isNull _ => 3
  | isNotNull _ => 3
  | compares _ _ _ => 3
  | isAmong _ _ => 3
  | negation t => t.depth + 1
  | either a b => max a.depth b.depth + 1

/-- The test asks only whether there is a cell. -/
def asksPresence : Test → Bool
  | isNull _ => true
  | isNotNull _ => true
  | _ => false

/-- The depths of the first test, of the first two together, and so on. Together with a test that never
holds, all are one such test. -/
def depthsTogether (joint : Nat) (fails : Bool) : List Test → List Nat
  | [] => []
  | t :: rest =>
    let fails := fails || t == never
    let joint := if fails then 1 else max joint t.depth + 1
    joint :: depthsTogether joint fails rest

/-- The depths of ever more of the tests joined together. -/
def depths : List Test → List Nat
  | [] => []
  | t :: rest => t.depth :: depthsTogether t.depth (t == never) rest

end Test

/-- How deep an expression may be nested. -/
def maxDepth : Nat := 1000

/-- What is said of an expression that is nested too deep. -/
def tooDeep : String :=
  "Expression tree is too large (maximum depth 1000)"

/-- A table joined to those before it: the rows whose key equals the column. -/
structure Join where
  table : String
  column : Column
  key : String
deriving DecidableEq, Repr

/-- What a statement yields. -/
inductive Output where
  /-- the cells of the columns for each row, in the order of row numbers or of a column -/
  | rows (columns : List Column) (order : Option Column)
  | aggregate (method : Method) (column : Column)
  /-- an aggregate for each cell of the first column -/
  | groups (group : Column) (method : Method) (column : Column)
  /-- the different cells in the order of the first row that has them -/
  | distinct (column : Column)
deriving DecidableEq

/-- The number of a row of the first table, by the name that it has unless a column takes it. -/
def rowNumber : Column := ⟨0, "rowid"⟩

namespace Output
open Piece

def aggregatePieces (method : Method) (c : Column) : List Piece :=
  [fixed (method.sqlName ++ "("), column c, fixed ")"]

def pieces : Output → List Piece
  | rows columns _ => commas (columns.map column)
  | aggregate method c => aggregatePieces method c
  | groups g method c => column g :: fixed ", " :: aggregatePieces method c
  | distinct c => [column c]

/-- The number of cells in each row that is yielded. -/
def width : Output → Nat
  | rows columns _ => columns.length
  | aggregate _ _ => 1
  | groups _ _ _ => 2
  | distinct _ => 1

def tailPieces : Output → List Piece
  | rows _ none => [fixed " ORDER BY t0.rowid"]
  | rows _ (some c) => [fixed " ORDER BY ", column c]
  | aggregate _ _ => []
  | groups g _ _ => [fixed " GROUP BY ", column g]
  | distinct c => [fixed " GROUP BY ", column c, fixed " ORDER BY MIN(t0.rowid)"]

end Output

/-- A statement: the rows of a table, each joined with the rows it names in others, that pass the tests. -/
structure Select where
  table : String
  joins : List Join
  tests : List Test
  output : Output
deriving DecidableEq

namespace Select
open Piece

/-- What is yielded; there must be something. -/
def outputPart (s : Select) : Part :=
  ⟨fixed "SELECT " :: s.output.pieces ++ [fixed " "],
    if s.output.width = 0 then some (.next "near \"FROM\": syntax error") else none⟩

/-- The pieces of a join; tables are numbered from one on. -/
def joinPieces (table : Nat) (join : Join) : List Piece :=
  [fixed " LEFT JOIN ", name join.table, fixed (" AS " ++ tableAlias table ++ " ON "), column join.column,
    fixed " = ", column ⟨table, join.key⟩]

/-- How many tables a text may name. -/
def maxNamed : Nat := 200

def joinPart (table : Nat) (join : Join) : Part :=
  ⟨joinPieces table join,
    if table < maxNamed then none else some (.whole "too many FROM clause terms, max: 200")⟩

def joinParts : Nat → List Join → List Part
  | _, [] => []
  | table, join :: rest => joinPart table join :: joinParts (table + 1) rest

/-- The tables. -/
def tableParts (s : Select) : List Part :=
  ⟨[fixed "FROM ", name s.table, fixed " AS t0"], none⟩ :: joinParts 1 s.joins

/-- The tests. -/
def testParts (s : Select) : List Part :=
  (s.tests.zip (Test.depths s.tests)).mapIdx fun i (t, depth) =>
    ⟨fixed (if i = 0 then " WHERE " else " AND ") :: t.pieces,
      if depth ≤ maxDepth then none else some (.whole tooDeep)⟩

def parts (s : Select) : List Part :=
  s.outputPart :: s.tableParts ++ s.testParts ++ [⟨s.output.tailPieces, none⟩]

def text (s : Select) : String :=
  textOf (Part.all s.parts)

/-- The columns that are yielded, with their places in the text. -/
def outputColumns (s : Select) : List (Nat × Column) :=
  placedColumns 0 s.outputPart.pieces

/-- Tests with the columns that they look at, the text of the first from the place on. -/
def placedTests : Nat → List (Test × Part) → List (Test × List (Nat × Column))
  | _, [] => []
  | place, (t, part) :: rest =>
    (t, placedColumns place part.pieces) :: placedTests (place + total part.pieces) rest

/-- The tests with the columns that they look at, and their places in the text. Together with a test that
never holds, none looks at any. -/
def testColumns (s : Select) : List (Test × List (Nat × Column)) :=
  if s.tests.contains .never then []
  else placedTests (total (Part.all (s.outputPart :: s.tableParts))) (s.tests.zip s.testParts)

/-- All columns that the statement makes use of. -/
def columns (s : Select) : List Column :=
  (placedColumns 0 (Part.all s.parts)).map Prod.snd

/-- How deep the tests are nested together with the conditions of the joins. -/
def depth (s : Select) : Nat :=
  s.joins.foldl (fun joint _ => if joint = 0 then 3 else max joint 3 + 1) ((Test.depths s.tests).getLast?.getD 0)

end Select
end Reporting.Sql
