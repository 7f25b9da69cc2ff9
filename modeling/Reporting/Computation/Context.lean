import Reporting.Computation.Basic
import Reporting.Computation.Grouping
import Reporting.Window

/-!
Contexts: what the aggregates of a field are taken over. All fields of one window and one bucket share
a context.
-/

namespace Reporting

/-- The records that fields are computed over, and their groups. -/
structure Context where
  entity : String
  /-- which records the report is about -/
  baseFilters : FilterSet
  dateField : Option String
  window : Option Window
  /-- the filters of the report, and of the bucket if there is one -/
  filters : FilterSet
  grouping : Grouping
  plusSide : Option FilterSet
  minusSide : Option FilterSet
deriving DecidableEq

/-- The records within a window, by the cells at a path. -/
def Window.filters (w : Window) (path : String) : FilterSet :=
  [.of path (.gte (.dateTime w.start)), .of path (.lt (.dateTime w.finish))]

/-- The records before a window. -/
def Window.filtersBefore (w : Window) (path : String) : FilterSet :=
  [.of path (.lt (.dateTime w.start))]

namespace Context

/-- The restriction to dates; none without a date field or a window. -/
def dateFilters (context : Context) (scope : DateScope) : FilterSet :=
  match context.dateField, context.window with
  | some path, some window =>
    match scope with
    | .window => window.filters path
    | .before => window.filtersBefore path
  | _, _ => []

/-- The records that a field is about, on either side. -/
def filtersOf (context : Context) (c : Computation) : FilterSet :=
  context.baseFilters ++ c.baseFilters.getD [] ++ context.dateFilters c.dateScope ++ context.filters

/-- What a field adds; its own plus side comes before that of the report. -/
def debitFilters (context : Context) (c : Computation) : FilterSet :=
  context.filtersOf c ++ (c.plusSide <|> context.plusSide).getD []

/-- What a field subtracts, if it does. -/
def creditFilters? (context : Context) (c : Computation) : Option FilterSet :=
  (c.minusSide <|> context.minusSide).map (context.filtersOf c ++ ·)

/-- The groups that a field is split into. -/
def groupingOf (context : Context) (c : Computation) : Grouping :=
  if c.preventGroupBy then .none else context.grouping

end Context
end Reporting
