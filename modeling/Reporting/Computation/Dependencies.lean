import Reporting.Computation.Registry

/-!
The fields that a field requires, directly or through others. A requirement that leads back to a field on
the way to it is a cycle; the walk ends because each step either uses up a name of the registry or goes
into a part of the field it comes from.
-/

namespace Reporting

/-- The failure of a field that requires itself, with the names that lead there. -/
def dependencyCycle (names : List String) : ReportError :=
  .configuration (.dependencyCycle names)

namespace Registry

/-- A step from a requirement to those of its field, which is not on the way, comes closer to the end. -/
theorem step_decreases {r : Registry} {stack : List String} {q : Requirement} {c : Computation}
    (means : r.resolve q = .ok c) (off : c.name ∉ stack) (rest : List Requirement) :
    Prod.Lex (· < ·) (· < ·) (r.fields.namesOutside (stack ++ [c.name]), sizeOf c.requirements)
      (r.fields.namesOutside stack, sizeOf (q :: rest)) := by
  have grown : stack ⊆ stack ++ [c.name] := List.subset_append_left ..
  cases q with
  | named name =>
    have found := name_of_get means
    exact Prod.Lex.left _ _ (Keyed.namesOutside_lt grown (found.1 ▸ found.2) off (by simp))
  | direct given =>
    cases means
    rcases Nat.lt_or_eq_of_le (r.fields.namesOutside_le grown) with less | same
    · exact Prod.Lex.left _ _ less
    · rw [same]
      refine Prod.Lex.right _ ?_
      cases c
      simp only [List.cons.sizeOf_spec, Requirement.direct.sizeOf_spec, Computation.mk.sizeOf_spec]
      omega

/-- The fields that requirements lead to, each before what it requires itself. The stack holds the names
on the way to them. -/
def dependenciesOf (r : Registry) (stack : List String) :
    List Requirement → Except ReportError (List Computation)
  | [] => .ok []
  | q :: rest =>
    match _means : r.resolve q with
    | .error e => .error (.registry e)
    | .ok c =>
      if _known : c.name ∈ stack then .error (dependencyCycle (stack ++ [c.name]))
      else
        match r.resolveAll c.requirements with
        | .error e => .error (.registry e)
        | .ok _ =>
          match r.dependenciesOf (stack ++ [c.name]) c.requirements with
          | .error e => .error e
          | .ok below =>
            match r.dependenciesOf stack rest with
            | .error e => .error e
            | .ok others => .ok (c :: below ++ others)
termination_by requirements => (r.fields.namesOutside stack, sizeOf requirements)
decreasing_by
  · exact step_decreases _means _known rest
  · exact Prod.Lex.right _ (by simp only [List.cons.sizeOf_spec]; omega)

/-- Everything that a field requires, depth first. All of a field's own requirements have to be there
before any of them is followed. -/
def dependencies (r : Registry) (c : Computation) : Except ReportError (List Computation) :=
  match r.resolveAll c.requirements with
  | .error e => .error (.registry e)
  | .ok _ => r.dependenciesOf [c.name] c.requirements

end Registry
end Reporting
