import Reporting.Aggregate
import Reporting.Filter
import Reporting.Report.Error
import Reporting.Row

/-!
Computation fields: what is aggregated for a column, what else that takes, and how the cell comes from
the aggregates.
-/

namespace Reporting

/-- The dates that an aggregate covers. -/
inductive DateScope where
  /-- those of the report or the window -/
  | window
  /-- everything before their start, as for an opening balance -/
  | before
deriving DecidableEq, Repr

/-- What a cell is computed from. -/
structure Inputs where
  debit : Float
  credit : Float
  /-- the cells of the fields directly required -/
  dependencies : List (String × Value)
  hasDateField : Bool

namespace Inputs

def net (i : Inputs) : Float :=
  i.debit - i.credit

/-- The cell of a required field. -/
def dependency (i : Inputs) (field name : String) : Except ReportError Value :=
  match i.dependencies.lookup name with
  | some v => .ok v
  | none => .error (.dependencyMissing field name)

end Inputs

/-- How the cell comes from the aggregates. -/
inductive Resolver where
  /-- debit less credit -/
  | net
  | debit
  | credit
  /-- debit less credit, or zero in a report without dates -/
  | openingBalance
  /-- debit less credit on top of another field -/
  | closingBalance (opening : String)
  /-- another field as a percentage of debit less credit -/
  | percentage (part : String)
  /-- a rule of the field's own, which also sees the cells of the row so far -/
  | custom (rule : Inputs → Row → Except ReportError Value)

mutual

/-- A field that is computed. -/
structure Computation where
  name : String
  verboseName : Option String
  /-- the path of the cells that are aggregated -/
  field : String
  method : Method
  requirements : List Requirement
  columnType : String
  isSummable : Bool
  /-- aggregate over everything, also in a report that is grouped -/
  preventGroupBy : Bool
  /-- what is added, in place of what the report says -/
  plusSide : Option FilterSet
  /-- what is subtracted, in place of what the report says -/
  minusSide : Option FilterSet
  baseFilters : Option FilterSet
  dateScope : DateScope
  resolver : Resolver

/-- A field that another one takes. -/
inductive Requirement where
  /-- to be looked up in a registry -/
  | named (name : String)
  | direct (computation : Computation)

end

namespace Computation

/-- The sum of `value`, without requirements. -/
def new (name : String) : Computation where
  name := name
  verboseName := none
  field := "value"
  method := .sum
  requirements := []
  columnType := "number"
  isSummable := true
  preventGroupBy := false
  plusSide := none
  minusSide := none
  baseFilters := none
  dateScope := .window
  resolver := .net

/-- The name shown for the field. -/
def label (c : Computation) : String :=
  c.verboseName.getD c.name

end Computation

/-- The name of the field that is required. -/
def Requirement.name : Requirement → String
  | named name => name
  | direct computation => computation.name

/-- The cell of the field. A percentage of nothing is missing. -/
def Computation.resolve (c : Computation) (i : Inputs) (row : Row := .empty) : Except ReportError Value :=
  match c.resolver with
  | .net => .ok (.float i.net)
  | .debit => .ok (.float i.debit)
  | .credit => .ok (.float i.credit)
  | .openingBalance => .ok (.float (if i.hasDateField then i.net else 0))
  | .closingBalance opening =>
    match i.dependency c.name opening with
    | .ok v => .ok (.float (i.net + v.toFloat))
    | .error e => .error e
  | .percentage part =>
    match i.dependency c.name part with
    | .ok v => if i.net == 0 then .ok .null else .ok (.float (v.toFloat / i.net * 100))
    | .error e => .error e
  | .custom rule => rule i row

end Reporting
