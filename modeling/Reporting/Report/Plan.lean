import Reporting.Computation.Instance
import Reporting.Report.Column

/-!
Plans: which instances are prepared for the columns of a report. The columns of one window and one bucket
have a context of their own. Within it, a column whose field another column requires is read from that
column's instance, and what several columns require is prepared once.
-/

namespace Reporting

/-- What tells the contexts of a report apart: the window and the key of the bucket. -/
structure ContextKey where
  window : Option Window
  bucket : Option String
deriving DecidableEq

/-- A column with the field it is computed by. -/
structure ComputedColumn where
  column : Column
  computation : Computation

/-- The column, if it is computed. -/
def Column.computed? (c : Column) : Option ComputedColumn :=
  c.computation?.map fun computation => ⟨c, computation⟩

namespace ComputedColumn

def name (c : ComputedColumn) : String :=
  c.column.name

def contextKey (c : ComputedColumn) : ContextKey :=
  ⟨c.column.window, c.column.bucket.map Bucket.key⟩

/-- The columns of each context, in the order in which the contexts first occur. -/
def byContext (columns : List ComputedColumn) : List (List ComputedColumn) :=
  (columns.map contextKey).eraseDups.map fun key => columns.filter fun c => c.contextKey = key

/-- The context of a column: that of the report, with the column's window and bucket. -/
def context (c : ComputedColumn) (base : Context) (crosstab : Option Crosstab) : Context :=
  { base with
    window := c.column.window <|> base.window
    filters :=
      match c.column.bucket, crosstab with
      | some bucket, some crosstab => base.filters ++ crosstab.filterFor bucket
      | _, _ => base.filters }

end ComputedColumn

/-- Columns by name that can be read from another column of their context, with that column. -/
abbrev Owners := Keyed String

namespace Owners

/-- Adds the columns whose fields are among those required by the owner, unless they have an owner. -/
def mark (owners : Owners) (owner : String) (required : List String) (members : List ComputedColumn) : Owners :=
  members.foldl
    (fun owners c =>
      if c.name ≠ owner ∧ c.column.baseName ∈ required ∧ !owners.contains c.name then
        owners.insert c.name owner
      else owners)
    owners

/-- The owners among the columns of a context, earlier columns first. -/
def ofMembers (r : Registry) (members : List ComputedColumn) : Except ReportError Owners :=
  members.foldlM
    (fun owners c =>
      match r.dependencies c.computation with
      | .ok required => .ok (mark owners c.name (required.map Computation.name) members)
      | .error e => .error e)
    Keyed.empty

/-- The last owner along the owners of owners; a round of owners ends where it is met again. -/
def last (owners : Owners) (seen : List String) (name : String) : String :=
  match _next : owners.get? name with
  | none => name
  | some next => if _again : name ∈ seen then name else owners.last (name :: seen) next
termination_by owners.namesOutside seen
decreasing_by
  exact Keyed.namesOutside_lt (List.subset_cons_self ..) (Keyed.mem_names_of_get? _next) _again
    (List.mem_cons_self ..)

end Owners

/-- The instances prepared for the columns of a report. -/
structure Plan where
  /-- by the name of the column -/
  prepared : Keyed Instance
  /-- the column from whose instance a column is read, by the name of the latter -/
  owners : Keyed String

namespace Plan

def empty : Plan := ⟨Keyed.empty, Keyed.empty⟩

/-- Prepares the instance of a column that has no owner. -/
def prepareColumn (r : Registry) (s : Source) (context : Context) (owners : Owners) (plan : Plan)
    (c : ComputedColumn) : Session Plan := do
  if owners.contains c.name then return plan
  let i ← Instance.shareOr (← get) c.computation.name (Instance.new r context c.computation)
  if !(← get).isPrepared i then i.prepare s
  return { plan with prepared := plan.prepared.insert c.name i }

/-- Prepares the instances of the columns of one context. -/
def prepareContext (r : Registry) (s : Source) (base : Context) (crosstab : Option Crosstab) (plan : Plan)
    (members : List ComputedColumn) : Session Plan := do
  match members with
  | [] => return plan
  | first :: _ =>
    let owners ← Session.ofExcept (Owners.ofMembers r members)
    modify fun w => { w with shared := Keyed.empty }
    let plan ← members.foldlM (prepareColumn r s (first.context base crosstab) owners) plan
    return { plan with
      owners := plan.owners.insertAll (owners.entries.map fun (name, owner) => (name, owners.last [] owner)) }

/-- Plans and prepares all columns that are computed. -/
def build (columns : List Column) (base : Context) (crosstab : Option Crosstab) (r : Registry) (s : Source) :
    Session Plan :=
  (ComputedColumn.byContext (columns.filterMap Column.computed?)).foldlM (prepareContext r s base crosstab)
    empty

/-- The number of columns with an instance of their own. -/
def preparedCount (plan : Plan) : Nat :=
  plan.prepared.size

/-- The cell of a column and a group, in a row with the cells so far. -/
def cell (plan : Plan) (w : Workspace) (c : Column) (group : GroupKey) (row : Row := .empty) :
    Except ReportError Value :=
  match plan.owners.get? c.name with
  | some owner =>
    match plan.prepared.get? owner with
    | some i => i.dependencyCell w group c.baseName row
    | none => .error (.notPrepared owner)
  | none =>
    match plan.prepared.get? c.name with
    | some i => i.cell w group row
    | none => .error (.notPrepared c.name)

end Plan
end Reporting
