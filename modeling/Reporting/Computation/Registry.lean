import Reporting.Computation.Basic

/-!
Registries: computation fields by name, so that columns and requirements can name them.
-/

namespace Reporting

/-- Computation fields, each under its own name. -/
structure Registry where
  fields : Keyed Computation
  own : ∀ entry ∈ fields.entries, entry.1 = entry.2.name

namespace Registry

def empty : Registry :=
  ⟨Keyed.empty, by intro entry h; cases h⟩

/-- Puts a field under its name, in place of one that is there. -/
def put (r : Registry) (c : Computation) : Registry where
  fields := r.fields.insert c.name c
  own := by
    intro entry h
    rcases Keyed.mem_place h with rfl | h
    · rfl
    · exact r.own entry h

def contains (r : Registry) (name : String) : Bool :=
  r.fields.contains name

/-- The names of all fields in ascending order. -/
def names (r : Registry) : List String :=
  r.fields.names

/-- Adds a field; one of its name is only replaced on request. -/
def register (r : Registry) (c : Computation) (replace : Bool) : Except RegistryError Registry :=
  if !replace && r.contains c.name then .error (.alreadyRegistered c.name) else .ok (r.put c)

/-- Takes a field out; it is given back with what is left. -/
def unregister (r : Registry) (name : String) : Except RegistryError (Computation × Registry) :=
  match r.fields.get? name with
  | some c => .ok (c, ⟨r.fields.erase name, fun entry h => r.own entry (List.mem_filter.1 h).1⟩)
  | none => .error (.notRegistered name)

/-- The field of the name; the failure lists all names. -/
def get (r : Registry) (name : String) : Except RegistryError Computation :=
  match r.fields.get? name with
  | some c => .ok c
  | none => .error (.notFound name r.names)

/-- The field that a requirement means. -/
def resolve (r : Registry) : Requirement → Except RegistryError Computation
  | .named name => r.get name
  | .direct c => .ok c

/-- The fields that requirements mean; the first that is not there is reported. -/
def resolveAll (r : Registry) (requirements : List Requirement) : Except RegistryError (List Computation) :=
  requirements.mapM r.resolve

/-- A field found under a name has that name. -/
theorem name_of_get {r : Registry} {name : String} {c : Computation} (h : r.get name = .ok c) :
    c.name = name ∧ name ∈ r.names := by
  unfold get at h
  split at h
  · rename_i found
    cases h
    exact ⟨(r.own _ (Keyed.mem_of_get? found)).symm, Keyed.mem_names_of_get? found⟩
  · cases h

end Registry

/-- A field that aggregates the cells at a path. Without a name it is named for what it does, and then the
name must be new. -/
def Computation.create (r : Registry) (method : Method) (field : String) (name verboseName : Option String)
    (isSummable : Bool) : Except RegistryError Computation := do
  let name ←
    match name with
    | some name => .ok name
    | none =>
      let made := Path.append method.name field
      if r.contains made then .error (.alreadyRegistered made) else .ok made
  .ok { Computation.new name with
    verboseName := some (verboseName.getD (method.label ++ " " ++ field))
    method
    field
    isSummable }

end Reporting
