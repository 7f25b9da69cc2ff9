import Reporting.Computation.Context
import Reporting.Keyed

/-!
Sessions: work that asks a source and keeps what it learns. What was asked and what was learned before a
failure stays.
-/

namespace Reporting

/-- A field within a context, with the instances of what it requires. -/
structure Instance where
  /-- the place of its aggregates in the workspace -/
  slot : Nat
  computation : Computation
  context : Context
  dependencies : List Instance

/-- What a session has at hand. -/
structure Workspace where
  /-- the queries asked so far -/
  queries : Array Query
  /-- the instances that other fields of the context take, by name -/
  shared : Keyed Instance
  /-- the aggregates of the instances; nothing in the place of one that is not prepared -/
  held : Array (Option Aggregates)

/-- Work in a workspace. -/
abbrev Session (α : Type) := ExceptT ReportError (StateM Workspace) α

namespace Workspace

def empty : Workspace := ⟨#[], Keyed.empty, #[]⟩

/-- The aggregates of an instance. -/
def aggregates? (w : Workspace) (i : Instance) : Option Aggregates :=
  w.held[i.slot]?.join

/-- The instance has its aggregates. -/
def isPrepared (w : Workspace) (i : Instance) : Bool :=
  (w.aggregates? i).isSome

end Workspace

namespace Session

/-- Notes the query and takes the source's answer to it. -/
def ask {α : Type} (query : Query) (answer : Except SourceError α) : Session α :=
  fun w => (answer.mapError .source, { w with queries := w.queries.push query })

/-- Work that asks nothing. -/
def ofExcept {α : Type} (result : Except ReportError α) : Session α :=
  fun w => (result, w)

/-- The result of work in a new workspace, and the queries that it asked. -/
def record {α : Type} (work : Session α) : Except ReportError α × Array Query :=
  let (result, w) := work Workspace.empty
  (result, w.queries)

end Session

namespace Source

def askRows (s : Source) (entity : String) (filters : FilterSet) (fields : List String) :
    Session (List Record) :=
  Session.ask (.rows entity filters fields) (s.rows entity filters fields)

def askAggregate (s : Source) (entity : String) (filters : FilterSet) (aggregation : Aggregation) :
    Session (Option Float) :=
  Session.ask (.aggregate entity filters aggregation) (s.aggregate entity filters aggregation)

def askGroups (s : Source) (entity : String) (filters : FilterSet) (path : String)
    (aggregation : Aggregation) : Session Groups :=
  Session.ask (.group entity filters path aggregation) (s.groupAggregate entity filters path aggregation)

def askDistinct (s : Source) (entity : String) (filters : FilterSet) (path : String) :
    Session (List Value) :=
  Session.ask (.distinct entity filters path) (s.distinctValues entity filters path)

def askRelated (s : Source) (entity : String) (ids : Option (List Value)) (fields : List String) :
    Session (List Record) :=
  Session.ask (.related entity ids fields) (s.relatedRows entity ids fields)

/-- The aggregates of all groups of the records that pass the filters. -/
def askTotals (s : Source) (entity : String) (filters : FilterSet) (grouping : Grouping)
    (aggregation : Aggregation) : Session Totals :=
  match grouping with
  | .none => do return .single (← s.askAggregate entity filters aggregation)
  | .byPath path => do return .byKey (← s.askGroups entity filters path aggregation)
  | .bySets sets => do
    return .byPosition (← sets.mapM fun set => s.askAggregate entity (filters ++ set) aggregation)

/-- The aggregates that a field takes in a context: those of what it adds, then those of what it
subtracts. -/
def askAggregates (s : Source) (context : Context) (c : Computation) : Session Aggregates := do
  let grouping := context.groupingOf c
  let aggregation : Aggregation := ⟨c.method, c.field⟩
  let debit ← s.askTotals context.entity (context.debitFilters c) grouping aggregation
  match context.creditFilters? c with
  | some filters =>
    let credit ← s.askTotals context.entity filters grouping aggregation
    return ⟨debit, some credit⟩
  | none => return ⟨debit, none⟩

end Source
end Reporting
