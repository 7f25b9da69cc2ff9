import Reporting.Computation.Registry

/-!
The fields that every registry has to begin with: movements and balances of values and of quantities.
-/

namespace Reporting.Builtin

def debit : Computation :=
  { Computation.new "__debit__" with verboseName := some "Debit", resolver := .debit }

def credit : Computation :=
  { Computation.new "__credit__" with verboseName := some "Credit", resolver := .credit }

/-- The movement: what is added less what is subtracted. -/
def total : Computation :=
  { Computation.new "__total__" with
    verboseName := some "Sum of value"
    requirements := [.named "__debit__", .named "__credit__"] }

/-- The movement before the dates of the report. -/
def openingBalance : Computation :=
  { Computation.new "__fb__" with
    verboseName := some "opening balance"
    dateScope := .before
    resolver := .openingBalance }

/-- The opening balance and the movement. -/
def balance : Computation :=
  { Computation.new "__balance__" with
    verboseName := some "Closing Total"
    requirements := [.named "__fb__"]
    resolver := .closingBalance "__fb__" }

/-- The balance of a group as a percentage of all groups together. -/
def percentToTotalBalance : Computation :=
  { Computation.new "__percent_to_total_balance__" with
    verboseName := some "%"
    requirements := [.named "__balance__"]
    preventGroupBy := true
    resolver := .percentage "__balance__" }

/-- The same for quantities, which do not add up over different things. -/
def ofQuantity (name label : String) : Computation :=
  { Computation.new name with verboseName := some label, field := "quantity", isSummable := false }

def debitQuantity : Computation :=
  { ofQuantity "__debit_quantity__" "Debit QTY" with resolver := .debit }

def creditQuantity : Computation :=
  { ofQuantity "__credit_quantity__" "Credit QTY" with resolver := .credit }

def totalQuantity : Computation :=
  ofQuantity "__total_quantity__" "Total QTY"

def openingQuantity : Computation :=
  { ofQuantity "__fb_quantity__" "Opening QTY" with dateScope := .before, resolver := .openingBalance }

def balanceQuantity : Computation :=
  { ofQuantity "__balance_quantity__" "Closing QTY" with
    requirements := [.named "__fb_quantity__"]
    resolver := .closingBalance "__fb_quantity__" }

/-- All of them, required ones first. -/
def all : List Computation :=
  [debit, credit, total, openingBalance, balance, percentToTotalBalance, debitQuantity, creditQuantity,
    totalQuantity, openingQuantity, balanceQuantity]

end Reporting.Builtin

namespace Reporting

/-- The registry of the fields that are there to begin with. -/
def Registry.withDefaults : Registry :=
  Builtin.all.foldl Registry.put Registry.empty

end Reporting
