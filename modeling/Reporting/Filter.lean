import Reporting.Path
import Reporting.Source.Error
import Reporting.Value

/-!
Filters. A predicate tests the cell at a path; a filter set holds where all of its predicates do. A
predicate is written as a key and an operand, for instance `client__name__in` with a list of names.
-/

namespace Reporting

/-- The test of a single cell. -/
inductive Condition where
  | exact (operand : Value)
  | gt (operand : Value)
  | gte (operand : Value)
  | lt (operand : Value)
  | lte (operand : Value)
  | within (operands : List Value)
  | isNull (expected : Bool)
deriving DecidableEq

namespace Condition

/-- Whether the cell passes. A missing cell passes only the tests for missing cells. -/
def accepts (condition : Condition) (cell : Value) : Bool :=
  match condition with
  | exact .null => cell.isNull
  | exact operand => cell.looselyEquals operand
  | gt operand => cell.order? operand == some .gt
  | gte operand => cell.order? operand == some .gt || cell.order? operand == some .eq
  | lt operand => cell.order? operand == some .lt
  | lte operand => cell.order? operand == some .lt || cell.order? operand == some .eq
  | within operands => !cell.isNull && operands.any fun operand => cell.looselyEquals operand
  | isNull expected => cell.isNull == expected

/-- The name by which a key asks for the test. -/
def lookupName : Condition → String
  | exact _ => "exact"
  | gt _ => "gt"
  | gte _ => "gte"
  | lt _ => "lt"
  | lte _ => "lte"
  | within _ => "in"
  | isNull _ => "isnull"

/-- What the test compares cells with. -/
def operands : Condition → List Value
  | exact operand => [operand]
  | gt operand => [operand]
  | gte operand => [operand]
  | lt operand => [operand]
  | lte operand => [operand]
  | within operands => operands
  | isNull expected => [.bool expected]

/-- The test only asks whether the cell is there. -/
def isNullTest : Condition → Bool
  | isNull _ => true
  | exact .null => true
  | _ => false

end Condition

/-- What stands beside a key: a value or a list of values. -/
inductive Operand where
  | one (value : Value)
  | many (values : List Value)
deriving DecidableEq

/-- The operand as diagnostics show it. -/
def Operand.diagnostic : Operand → String
  | one value => "One(" ++ value.diagnostic ++ ")"
  | many values => "Many([" ++ String.intercalate ", " (values.map Value.diagnostic) ++ "])"

/-- A test of the cell at a path. -/
structure Predicate where
  path : String
  condition : Condition
  negated : Bool
deriving DecidableEq

namespace Predicate

/-- The plain test. -/
def of (path : String) (condition : Condition) : Predicate := ⟨path, condition, false⟩

/-- The opposite test. A missing cell passes the opposite of a comparison. -/
def negate (p : Predicate) : Predicate := { p with negated := !p.negated }

/-- Whether the cell at the path passes. -/
def accepts (p : Predicate) (cell : Value) : Bool :=
  p.condition.accepts cell != p.negated

/-- The tests that a key can end in. -/
inductive Lookup where
  | exact
  | gt
  | gte
  | lt
  | lte
  | within
  | isNull
deriving DecidableEq

/-- The test with the name. -/
def Lookup.ofName? : String → Option Lookup
  | "exact" => some exact
  | "gt" => some gt
  | "gte" => some gte
  | "lt" => some lt
  | "lte" => some lte
  | "in" => some within
  | "isnull" => some isNull
  | _ => none

/-- The path and the test that a key asks for; without the name of a test at its end, the whole key is
a path to be matched exactly. -/
def splitKey (key : String) : String × Lookup :=
  match Path.splitLast? key with
  | some (path, name) =>
    match Lookup.ofName? name with
    | some lookup => (path, lookup)
    | none => (key, .exact)
  | none => (key, .exact)

/-- The condition for a test and its operand. Only `in` takes a list, and `isnull` takes a truth value. -/
def condition? (key : String) : Lookup → Operand → Except SourceError Condition
  | .within, .many values => .ok (.within values)
  | .within, .one value => .ok (.within [value])
  | .isNull, .one (.bool b) => .ok (.isNull b)
  | .isNull, operand =>
    .error (.parse ("Lookup \"" ++ key ++ "\" expects a boolean, got " ++ operand.diagnostic))
  | _, .many _ => .error (.parse ("Lookup \"" ++ key ++ "\" expects a single value"))
  | .gt, .one value => .ok (.gt value)
  | .gte, .one value => .ok (.gte value)
  | .lt, .one value => .ok (.lt value)
  | .lte, .one value => .ok (.lte value)
  | .exact, .one value => .ok (.exact value)

/-- The predicate that a key with an operand stands for. -/
def ofLookup (key : String) (operand : Operand) : Except SourceError Predicate :=
  let (path, lookup) := splitKey key
  (condition? key lookup operand).map (of path)

/-- The values that the predicate allows at the path, where it names them all. -/
def pinned? (p : Predicate) (path : String) : Option (List Value) :=
  if p.path = path ∧ !p.negated then
    match p.condition with
    | .exact .null => none
    | .exact value => some [value]
    | .within values => some values
    | _ => none
  else none

end Predicate

/-- Predicates that have to hold together. -/
abbrev FilterSet := List Predicate

namespace FilterSet

/-- The predicates that keys with operands stand for; the first that fails is reported. -/
def ofLookups (lookups : List (String × Operand)) : Except SourceError FilterSet :=
  lookups.mapM fun (key, operand) => Predicate.ofLookup key operand

/-- The values that the first predicate to do so allows at the path. -/
def pinned? (filters : FilterSet) (path : String) : Option (List Value) :=
  filters.findSome? fun p => p.pinned? path

end FilterSet
end Reporting
