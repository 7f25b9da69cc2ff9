import Reporting.Filter

/-!
Cross-tabs: columns split by the values of a dimension, one copy for each bucket of records.
-/

namespace Reporting

/-- One of the parts into which a dimension splits the records. -/
inductive Bucket where
  /-- the records whose dimension equals the value -/
  | id (value : Value)
  /-- the records that pass the filter set at the position -/
  | custom (index : Nat)
  /-- the records whose dimension is none of the values -/
  | remainder
deriving DecidableEq

namespace Bucket

/-- The text by which the bucket is told from the others of its cross-tab. -/
def key : Bucket → String
  | id value => value.key
  | custom index => toString index
  | remainder => "----"

def isRemainder : Bucket → Bool
  | remainder => true
  | _ => false

/-- What is added to the names of columns for the bucket. -/
def columnSuffix (b : Bucket) : String :=
  "CT" ++ b.key

/-- The label of a column within the bucket. -/
def label (b : Bucket) (column dimension : String) : String :=
  match b with
  | remainder => "The remainder"
  | b => column ++ " " ++ dimension ++ " " ++ b.key

end Bucket

/-- A dimension and what it is split into. -/
structure Crosstab where
  /-- the path of the dimension -/
  field : String
  ids : List Value
  /-- if there are any, these take the place of the values -/
  customFilters : List FilterSet
  computeRemainder : Bool
deriving DecidableEq

namespace Crosstab

/-- The buckets in order; the remainder comes last, and only beside values. -/
def buckets (c : Crosstab) : List Bucket :=
  if c.customFilters.isEmpty then
    c.ids.map Bucket.id ++ (if c.computeRemainder then [.remainder] else [])
  else (List.range c.customFilters.length).map Bucket.custom

/-- What the records of a bucket pass. -/
def filterFor (c : Crosstab) : Bucket → FilterSet
  | .id value => [.of c.field (.exact value)]
  | .remainder => [(Predicate.of c.field (.within c.ids)).negate]
  | .custom index => c.customFilters[index]?.getD []

end Crosstab
end Reporting
