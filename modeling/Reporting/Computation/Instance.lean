import Reporting.Computation.Dependencies
import Reporting.Computation.Session

/-!
Instances of fields. An instance is built with the instances of what it requires, is prepared once by
asking the source for its aggregates, and then gives the cell of any group without asking again. Fields
of one context share the instances of what they require, so that none is prepared twice.
-/

namespace Reporting
namespace Instance

def name (i : Instance) : String :=
  i.computation.name

/-- A new instance that is not prepared. -/
def allocate (context : Context) (c : Computation) (dependencies : List Instance) : Session Instance :=
  fun w => (.ok ⟨w.held.size, c, context, dependencies⟩, { w with held := w.held.push none })

/-- The shared instance of the name in the workspace; else the new one, which is shared from then on. -/
def shareOr (w : Workspace) (name : String) (new : Session Instance) : Session Instance :=
  match w.shared.get? name with
  | some i => return i
  | none => do
    let i ← new
    modify fun w => { w with shared := w.shared.insert name i }
    return i

/-- The instances that requirements mean: shared ones where there are any, else new ones, which are
shared from then on. The stack holds the names on the way to the requirements. -/
def ofRequirements (r : Registry) (context : Context) (stack : List String) :
    List Requirement → Session (List Instance)
  | [] => return []
  | q :: rest =>
    match _means : r.resolve q with
    | .error e => throw (.registry e)
    | .ok c => do
      let w ← get
      let first ← shareOr w c.name (
        if _known : c.name ∈ stack then throw (dependencyCycle (stack ++ [c.name]))
        else
          match r.resolveAll c.requirements with
          | .error e => throw (.registry e)
          | .ok _ => do
            let below ← ofRequirements r context (stack ++ [c.name]) c.requirements
            allocate context c below)
      let others ← ofRequirements r context stack rest
      return first :: others
termination_by requirements => (r.fields.namesOutside stack, sizeOf requirements)
decreasing_by
  · exact Registry.step_decreases _means _known rest
  · exact Prod.Lex.right _ (by simp only [List.cons.sizeOf_spec]; omega)

/-- A new instance of a field. -/
def new (r : Registry) (context : Context) (c : Computation) : Session Instance :=
  match r.resolveAll c.requirements with
  | .error e => throw (.registry e)
  | .ok _ => do
    let dependencies ← ofRequirements r context [c.name] c.requirements
    allocate context c dependencies

/-- Puts the aggregates into their place. -/
def hold (slot : Nat) (a : Aggregates) (w : Workspace) : Workspace :=
  { w with held := w.held.setIfInBounds slot (some a) }

/-- A new instance of a field that shares nothing with the others of the workspace. -/
def newAlone (r : Registry) (context : Context) (c : Computation) : Session Instance := fun w =>
  let (result, later) := new r context c { w with shared := Keyed.empty }
  (result, { later with shared := w.shared })

mutual

/-- Asks for the aggregates of an instance, after those of what it requires. An instance is prepared only
once; a failure leaves it as it is, but not what was prepared before. -/
def prepare (s : Source) : Instance → Session Unit
  | ⟨slot, c, context, dependencies⟩ => do
    if (← get).isPrepared ⟨slot, c, context, dependencies⟩ then throw (.alreadyPrepared c.name)
    prepareMissing s dependencies
    let a ← s.askAggregates context c
    modify (hold slot a)

/-- Prepares the instances that are not prepared yet. -/
def prepareMissing (s : Source) : List Instance → Session Unit
  | [] => return ()
  | i :: rest => do
    if !(← get).isPrepared i then i.prepare s
    prepareMissing s rest

end

mutual

/-- The cell of a group in a row with the cells so far. The workspace's aggregates have to be there for the
instance and all that it requires. -/
def cell (w : Workspace) (group : GroupKey) (i : Instance) (row : Row := .empty) : Except ReportError Value :=
  match i with
  | ⟨slot, c, context, dependencies⟩ =>
    match w.aggregates? ⟨slot, c, context, dependencies⟩ with
    | none => .error (.notPrepared c.name)
    | some a =>
      match cells w group row dependencies with
      | .error e => .error e
      | .ok cells => c.resolve ⟨a.debitOf group, a.creditOf group, cells, context.dateField.isSome⟩ row

/-- The cells of instances under their names. -/
def cells (w : Workspace) (group : GroupKey) (row : Row) :
    List Instance → Except ReportError (List (String × Value))
  | [] => .ok []
  | i :: rest =>
    match i.cell w group row with
    | .error e => .error e
    | .ok v =>
      match cells w group row rest with
      | .error e => .error e
      | .ok others => .ok ((i.name, v) :: others)

end

mutual

/-- What the instance requires, directly or not, under the name; the search goes depth first. -/
def dependency? (name : String) : Instance → Option Instance
  | ⟨_, _, _, dependencies⟩ => dependencyAmong? name dependencies

def dependencyAmong? (name : String) : List Instance → Option Instance
  | [] => none
  | i :: rest =>
    if i.name = name then some i
    else
      match i.dependency? name with
      | some found => some found
      | none => dependencyAmong? name rest

end

/-- The cell of something that the instance requires. -/
def dependencyCell (w : Workspace) (group : GroupKey) (i : Instance) (name : String) (row : Row := .empty) :
    Except ReportError Value :=
  match i.dependency? name with
  | some found => found.cell w group row
  | none => .error (.dependencyMissing i.name name)

end Instance
end Reporting
