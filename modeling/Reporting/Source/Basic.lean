import Reporting.Aggregate
import Reporting.Filter
import Reporting.Schema

/-!
Sources: stores of records that can be filtered, aggregated and grouped. A source answers queries, and
gives the same answer whenever it is asked the same.
-/

namespace Reporting

/-- Aggregates by the key of their group. -/
abbrev Groups := List (String × Float)

/-- A store of records. Paths may lead over relations. -/
structure Source where
  schema : Schema
  /-- the records of an entity that pass the filters, with the cells at the paths, or all own fields when
  no path is given -/
  rows : String → FilterSet → List String → Except SourceError (List Record)
  /-- one aggregate over the records that pass -/
  aggregate : String → FilterSet → Aggregation → Except SourceError (Option Float)
  /-- an aggregate for each key of the cells at a path -/
  groupAggregate : String → FilterSet → String → Aggregation → Except SourceError Groups
  /-- the different cells at a path in order of first appearance -/
  distinctValues : String → FilterSet → String → Except SourceError (List Value)
  /-- the rows whose primary key is among the ones given, or all, in the order of primary keys -/
  relatedRows : String → Option (List Value) → List String → Except SourceError (List Record)

/-- A question put to a source. -/
inductive Query where
  | rows (entity : String) (filters : FilterSet) (fields : List String)
  | aggregate (entity : String) (filters : FilterSet) (aggregation : Aggregation)
  | group (entity : String) (filters : FilterSet) (path : String) (aggregation : Aggregation)
  | distinct (entity : String) (filters : FilterSet) (path : String)
  | related (entity : String) (ids : Option (List Value)) (fields : List String)
deriving DecidableEq

/-- What a source answers. -/
inductive Reply where
  | records (records : List Record)
  | total (total : Option Float)
  | groups (groups : Groups)
  | cells (cells : List Value)

/-- The answer of a source to a query. -/
def Source.reply (s : Source) : Query → Except SourceError Reply
  | .rows entity filters fields => (s.rows entity filters fields).map .records
  | .aggregate entity filters aggregation => (s.aggregate entity filters aggregation).map .total
  | .group entity filters path aggregation =>
    (s.groupAggregate entity filters path aggregation).map .groups
  | .distinct entity filters path => (s.distinctValues entity filters path).map .cells
  | .related entity ids fields => (s.relatedRows entity ids fields).map .records

end Reporting
