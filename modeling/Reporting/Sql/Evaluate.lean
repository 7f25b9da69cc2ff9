import Reporting.Sql.Statement
import Reporting.Sql.Store

/-!
What a statement yields. Tests are three-valued: a comparison with a missing cell is neither true nor
false, and only rows for which every test is true are taken.
-/

namespace Reporting.Sql

/-- The truth of a test: undecided where it hangs on a missing cell. -/
abbrev Truth := Option Bool

namespace Truth

def not : Truth → Truth
  | some b => some (!b)
  | none => none

/-- True if one side is, false if both are. -/
def or : Truth → Truth → Truth
  | some true, _ => some true
  | _, some true => some true
  | some false, some false => some false
  | _, _ => none

end Truth

/-- A cell together with the affinity of its column. -/
structure Operand where
  cell : Cell
  affinity : Affinity

/-- Compares a cell of a column with an operand that has no affinity of its own. -/
def compareOperand (left : Operand) (comparison : Comparison) (right : Cell) : Truth :=
  if left.cell.isNull || right.isNull then none
  else
    some (comparison.holds
      ((left.cell.adapt left.affinity).order (right.adapt left.affinity)))

/-- Whether a cell of a column equals one of the operands. -/
def among (left : Operand) (operands : List Cell) : Truth :=
  operands.foldl (fun truth operand => truth.or (compareOperand left .equal operand)) (some false)

/-- Equality of cells of two columns: if only one of them is of numbers, the other is read as one. -/
def equalColumns (left right : Operand) : Bool :=
  if left.cell.isNull || right.cell.isNull then false
  else if left.affinity = .text ∧ right.affinity = .text then left.cell.order right.cell == .eq
  else left.cell.toNumber.order right.cell.toNumber == .eq

/-- The truth of a test, given the cells of the row. -/
def Test.eval (cellAt : Column → Operand) : Test → Truth
  | never => some false
  | isNull c => some (cellAt c).cell.isNull
  | isNotNull c => some (!(cellAt c).cell.isNull)
  | compares c comparison operand => compareOperand (cellAt c) comparison operand
  | isAmong c operands => among (cellAt c) operands
  | negation t => (t.eval cellAt).not
  | either a b => (a.eval cellAt).or (b.eval cellAt)

/-- Rows that belong together, one of each table of a statement; a join that finds none has no row. -/
abbrev Joined := List (StoredTable × Option StoredRow)

/-- The cell of the column. -/
def Joined.operand (joined : Joined) (c : Column) : Operand :=
  match joined[c.table]? with
  | some (table, row) => ⟨row.elim .null fun row => table.cell row c.name, table.affinity c.name⟩
  | none => ⟨.null, .text⟩

def Joined.cell (joined : Joined) (c : Column) : Cell :=
  (joined.operand c).cell

/-- A join, its table, and the places of the columns by which the rows come that have the same key. -/
structure BoundJoin where
  table : StoredTable
  join : Join
  order : List Nat

namespace BoundJoin

/-- The columns that are made use of are in an index by the key, unless the key has an index already or is
compared as another number than it is kept. So rows of one key come in the order of those columns. -/
def ofJoin (table : StoredTable) (join : Join) (used : List String) : BoundJoin :=
  let key := table.columnIndex? join.key
  let places := (List.range table.columns.length).filter fun i =>
    some i ≠ key && used.any fun name => table.columnIndex? name = some i
  ⟨table, join, if key.isNone || key = table.key || table.affinity join.key == .text then [] else places⟩

/-- Which of two rows of one key comes first. -/
def precedes : List Nat → StoredRow → StoredRow → Bool
  | [], _, _ => true
  | place :: rest, a, b =>
    match (a.cells[place]?.getD .null).order (b.cells[place]?.getD .null) with
    | .lt => true
    | .gt => false
    | .eq => precedes rest a b

/-- The rows of the table whose key equals the cell. -/
def found (b : BoundJoin) (left : Operand) : List StoredRow :=
  let affinity := b.table.affinity b.join.key
  (b.table.rows.toList.filter fun row => equalColumns left ⟨b.table.cell row b.join.key, affinity⟩).mergeSort
    (precedes b.order)

/-- A group of rows with every row of the table whose key equals the column, or with none. -/
def extend (b : BoundJoin) (joined : Joined) : List Joined :=
  match b.found (joined.operand b.join.column) with
  | [] => [joined ++ [(b.table, none)]]
  | rows => rows.map fun row => joined ++ [(b.table, some row)]

end BoundJoin

def joinAll : List BoundJoin → List Joined → List Joined
  | [], rows => rows
  | b :: rest, rows => joinAll rest (rows.flatMap b.extend)

/-- A sum of real numbers, and what its roundings have left out so far. -/
structure RoundedSum where
  sum : Float
  lost : Float

namespace RoundedSum

def add (s : RoundedSum) (x : Float) : RoundedSum :=
  let next := s.sum + x
  ⟨next, s.lost + (if x.abs < s.sum.abs then (s.sum - next) + x else (x - next) + s.sum)⟩

/-- An integer in two parts that are real numbers without a rounding. -/
def parts (i : Int) : Float × Float :=
  let low := if i.natAbs < Nat.pow 2 52 then 0 else i.tmod 16384
  (Float.ofInt (i - low), Float.ofInt low)

def ofInt (i : Int) : RoundedSum :=
  ⟨(parts i).1, (parts i).2⟩

def addInt (s : RoundedSum) (i : Int) : RoundedSum :=
  (s.add (parts i).1).add (parts i).2

/-- The sum with what was left out, unless that is no number. -/
def value (s : RoundedSum) : Float :=
  if s.lost.isNaN then s.sum else s.sum + s.lost

end RoundedSum

/-- A sum of cells: exact as long as all are integers and within their range. -/
inductive Total where
  | exact (sum : Int)
  /-- and whether integers have left their range with no real number after them -/
  | rounded (sum : RoundedSum) (overflow : Bool)

namespace Total

def zero : Total := exact 0

def add : Total → Cell → Total
  | exact sum, c =>
    match c.summand with
    | .integer i =>
      let next := sum + i.toInt
      if Decimal.fitsInt64 next then exact next else rounded ((RoundedSum.ofInt sum).addInt i.toInt) true
    | c => rounded ((RoundedSum.ofInt sum).add c.toFloat) false
  | rounded sum overflow, c =>
    match c.summand with
    | .integer i => rounded (sum.addInt i.toInt) overflow
    | c => rounded (sum.add c.toFloat) false

/-- The sum as a real number. -/
def toFloat : Total → Float
  | exact sum => Float.ofInt sum
  | rounded sum _ => sum.value

/-- The sum as a cell; no number is no cell. -/
def cell : Total → Except SourceError Cell
  | exact sum => .ok (.integer (Int64.ofInt sum))
  | rounded _ true => .error (.database "integer overflow")
  | rounded sum false => .ok (if sum.value.isNaN then .null else .real sum.value)

end Total

/-- The aggregate of the cells; missing ones are passed over. -/
def aggregateCells (method : Method) (cells : List Cell) : Except SourceError Cell :=
  let present := cells.filter fun c => !c.isNull
  match method with
  | .count => .ok (.integer (Int64.ofNat present.length))
  | .sum =>
    if present.isEmpty then .ok .null
    else (present.foldl Total.add Total.zero).cell
  | .avg =>
    if present.isEmpty then .ok .null
    else
      let mean := (present.foldl Total.add Total.zero).toFloat / Float.ofNat present.length
      .ok (if mean.isNaN then .null else .real mean)
  | .max => .ok (present.foldl (fun best c => if best.isNull || best.order c == .lt then c else best) .null)
  | .min => .ok (present.foldl (fun best c => if best.isNull || best.order c == .gt then c else best) .null)

/-- The rows in the order of the cells of a column, equal ones in the order they come. -/
def sortRows (column : Column) (rows : List Joined) : List Joined :=
  rows.mergeSort fun a b => (a.cell column).order (b.cell column) != .gt

/-- Puts neighbours with equal cells together. -/
def gather (column : Column) : List Joined → List (Cell × List Joined)
  | [] => []
  | row :: rest =>
    let key := row.cell column
    match gather column rest with
    | (other, rows) :: groups =>
      if key.order other == .eq then (key, row :: rows) :: groups else (key, [row]) :: (other, rows) :: groups
    | [] => [(key, [row])]

/-- The rows with equal cells together, in the order of the cells. -/
def groupRows (column : Column) (rows : List Joined) : List (Cell × List Joined) :=
  gather column (sortRows column rows)

/-- The least cell, missing ones passed over. -/
def least (cells : List Cell) : Cell :=
  cells.foldl (fun best c => if c.isNull then best else if best.isNull || best.order c == .gt then c else best) .null

/-- The different cells of a column in the order of the first row that has them. -/
def distinctCells (column : Column) (rows : List Joined) : List Cell :=
  let groups := (groupRows column rows).map fun (key, rows) =>
    (least (rows.map fun row => row.cell rowNumber), key)
  (groups.mergeSort fun a b => a.1.order b.1 != .gt).map Prod.snd

namespace Select

/-- The tables of the joins, or the first that is not there. -/
def joinedTables (store : Store) : List Join → Except SourceError (List (StoredTable × Join))
  | [] => .ok []
  | join :: rest =>
    match store.table? join.table with
    | none => .error (.database ("no such table: " ++ join.table))
    | some table => (joinedTables store rest).map ((table, join) :: ·)

/-- The first column that its table does not have. -/
def missing? {α : Type} (tables : List StoredTable) (columnOf : α → Column) (columns : List α) : Option α :=
  columns.find? fun a =>
    match tables[(columnOf a).table]? with
    | some table => !table.has (columnOf a).name
    | none => true

/-- The missing column that is told of tests, after one found before them. A test that asks only for the
presence of a cell does not end the search. -/
def missingInTests? (tables : List StoredTable) :
    Option (Nat × Column) → List (Test × List (Nat × Column)) → Option (Nat × Column)
  | found, [] => found
  | found, (t, columns) :: rest =>
    if found.isSome && !t.asksPresence then found
    else
      let missing := missing? tables Prod.snd columns <|> found
      let ends := match t with | .negation t => !t.asksPresence | t => !t.asksPresence
      if missing.isSome && ends then missing else missingInTests? tables missing rest

/-- How many tables can be joined. -/
def maxJoined : Nat := 64

/-- How many cells a row that is yielded may have. -/
def maxWidth : Nat := 2000

/-- What is said of a column that is not there. -/
def noSuchColumn (c : Column) : String :=
  "no such column: " ++ tableAlias c.table ++ "." ++ c.name

/-- What is wrong with a statement on tables that are there: first with the columns that are yielded, then
with those of the tests, then with those of the joins. -/
def tablesFailure? (s : Select) (tables : List StoredTable) : Option SourceError :=
  let keys := s.joins.zipIdx.flatMap fun (join, i) => [join.column, Column.mk (i + 1) join.key]
  if maxDepth < s.depth then some (.database tooDeep)
  else if maxWidth < s.output.width then some (.database "too many columns in result set")
  else
    match missing? tables Prod.snd s.outputColumns <|> missingInTests? tables none s.testColumns with
    | some (place, c) => some (failureAt (noSuchColumn c) s.text place)
    | none =>
      match missing? tables id keys with
      | some c => some (.database (noSuchColumn c))
      | none => if maxJoined < tables.length then some (.database "at most 64 tables in a join") else none

/-- Statements can be read, and name only tables and columns that are there. -/
def check (s : Select) (store : Store) : Except SourceError (StoredTable × List (StoredTable × Join)) := do
  Part.read s.parts
  match store.table? s.table with
  | none => .error (.database ("no such table: " ++ s.table))
  | some root =>
    let joins ← joinedTables store s.joins
    match s.tablesFailure? (root :: joins.map Prod.fst) with
    | some e => .error e
    | none => .ok (root, joins)

/-- The joins with the orders of their rows. -/
def boundJoins (s : Select) (joins : List (StoredTable × Join)) : List BoundJoin :=
  joins.mapIdx fun i (table, join) =>
    .ofJoin table join (s.columns.filterMap fun c => if c.table = i + 1 then some c.name else none)

/-- The joined rows that pass, in the order of the rows of the first table. -/
def matching (s : Select) (root : StoredTable) (joins : List (StoredTable × Join)) : List Joined :=
  (joinAll (s.boundJoins joins) (root.rows.toList.map fun row => [(root, some row)])).filter fun joined =>
    s.tests.all fun test => test.eval joined.operand == some true

/-- The rows that the statement yields. -/
def run (s : Select) (store : Store) : Except SourceError (List (List Cell)) := do
  let (root, joins) ← s.check store
  let rows := s.matching root joins
  match s.output with
  | .rows columns order =>
    .ok ((sortRows (order.getD rowNumber) rows).map fun joined => columns.map joined.cell)
  | .aggregate method c =>
    let cell ← aggregateCells method (rows.map fun joined => joined.cell c)
    .ok [[cell]]
  | .groups g method c =>
    (groupRows g rows).mapM fun (key, members) => do
      let cell ← aggregateCells method (members.map fun joined => joined.cell c)
      .ok [key, cell]
  | .distinct c => .ok ((distinctCells c rows).map fun cell => [cell])

end Select
end Reporting.Sql
