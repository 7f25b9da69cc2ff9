import Reporting.Source.Basic

/-!
Groups of records: how the records of a report are split, which group a row belongs to, and the
aggregates of all groups together.
-/

namespace Reporting

/-- How the records are split into groups. -/
inductive Grouping where
  /-- one group of all records -/
  | none
  /-- a group for each key of the cells at the path -/
  | byPath (path : String)
  /-- a group for each filter set; the groups may overlap -/
  | bySets (sets : List FilterSet)
deriving DecidableEq

/-- The group of a row. -/
inductive GroupKey where
  | all
  | key (text : String)
  /-- the group of the filter set at the position -/
  | index (position : Nat)
deriving DecidableEq

/-- The aggregates of all groups. -/
inductive Totals where
  | single (total : Option Float)
  | byKey (groups : Groups)
  | byPosition (totals : List (Option Float))

/-- The aggregate of a group, zero where there is none. A single total is that of every group. -/
def Totals.ofGroup (totals : Totals) (group : GroupKey) : Float :=
  match totals, group with
  | single total, _ => total.getD 0
  | byKey groups, .key text => (groups.lookup text).getD 0
  | byPosition totals, .index position => totals[position]?.join.getD 0
  | _, _ => 0

/-- What a field holds once it is prepared. -/
structure Aggregates where
  /-- of what is added -/
  debit : Totals
  /-- of what is subtracted, if anything is -/
  credit : Option Totals

namespace Aggregates

def debitOf (a : Aggregates) (group : GroupKey) : Float :=
  a.debit.ofGroup group

def creditOf (a : Aggregates) (group : GroupKey) : Float :=
  match a.credit with
  | some totals => totals.ofGroup group
  | none => 0

end Aggregates
end Reporting
