import Reporting.Proofs.Computation.Sharing

/-!
What a cell is worth. The source's aggregates alone give a cell for every tree of fields
(`FieldTree.value`); an instance that holds the source's aggregates, as does all that it requires, gives the
same cell (`Instance.Settled.cell_eq`).
-/

namespace Reporting
namespace FieldTree

mutual

/-- The cell of a group, by the aggregates that the source has for the fields of the tree. -/
def value (s : Source) (context : Context) (group : GroupKey) (row : Row) : FieldTree → Except ReportError Value
  | node c below =>
    match s.aggregates context c with
    | .error e => .error (.source e)
    | .ok a =>
      match values s context group row below with
      | .error e => .error e
      | .ok cells => c.resolve ⟨a.debitOf group, a.creditOf group, cells, context.dateField.isSome⟩ row

/-- The cells of trees under the names of their roots. -/
def values (s : Source) (context : Context) (group : GroupKey) (row : Row) :
    List FieldTree → Except ReportError (List (String × Value))
  | [] => .ok []
  | t :: rest =>
    match t.value s context group row with
    | .error e => .error e
    | .ok v =>
      match values s context group row rest with
      | .error e => .error e
      | .ok others => .ok ((t.root.name, v) :: others)

end

theorem value_eq_error_of_values {s : Source} {context : Context} {group : GroupKey} {row : Row}
    {ts : List FieldTree} {e : ReportError} (failed : values s context group row ts = .error e) :
    ∃ t ∈ ts, t.value s context group row = .error e := by
  induction ts with
  | nil => cases failed
  | cons t rest ih =>
    rw [values] at failed
    split at failed
    · rename_i first
      cases failed
      exact ⟨t, List.mem_cons_self .., first⟩
    · split at failed
      · rename_i others
        cases failed
        obtain ⟨u, member, failed⟩ := ih others
        exact ⟨u, List.mem_cons_of_mem t member, failed⟩
      · cases failed

/-- A cell that fails though the source does not was refused by the rule of a field in the tree. -/
theorem refused_of_value_eq_error {s : Source} {context : Context} {group : GroupKey} {row : Row}
    {e : ReportError} (t : FieldTree) (answered : ∀ d ∈ t.fields, ∃ a, s.aggregates context d = .ok a)
    (failed : t.value s context group row = .error e) : ∃ d ∈ t.fields, ∃ i : Inputs, d.resolve i row = .error e := by
  match t with
  | .node c below =>
    rw [fields] at answered ⊢
    obtain ⟨a, found⟩ := answered c (List.mem_cons_self ..)
    rw [value, found] at failed
    cases cells : values s context group row below with
    | ok cells' =>
      simp only [cells] at failed
      exact ⟨c, List.mem_cons_self .., _, failed⟩
    | error e' =>
      simp only [cells] at failed
      cases failed
      obtain ⟨t, inside, failed⟩ := value_eq_error_of_values cells
      have answeredBelow : ∀ d ∈ t.fields, ∃ a, s.aggregates context d = .ok a :=
        fun d member => answered d (List.mem_cons_of_mem c (mem_fieldsOf.2 ⟨t, inside, member⟩))
      obtain ⟨d, member, refused⟩ := refused_of_value_eq_error t answeredBelow failed
      exact ⟨d, List.mem_cons_of_mem c (mem_fieldsOf.2 ⟨t, inside, member⟩), refused⟩
termination_by sizeOf t
decreasing_by
  have smaller := List.sizeOf_lt_of_mem inside
  simp only [node.sizeOf_spec]
  omega

end FieldTree

/-- The instance is of the context and holds the source's aggregates, and so does all that it requires. -/
inductive Instance.Settled (s : Source) (w : Workspace) (context : Context) : Instance → Prop
  | mk {slot : Nat} {c : Computation} {dependencies : List Instance} {a : Aggregates}
      (answered : s.aggregates context c = .ok a) (held : w.held[slot]?.join = some a)
      (each : ∀ d ∈ dependencies, d.Settled s w context) : Settled s w context ⟨slot, c, context, dependencies⟩

namespace Instance.Settled
variable {s : Source} {w w' : Workspace} {context : Context} {i : Instance}

theorem mono (h : i.Settled s w context)
    (kept : ∀ {k : Nat} {a}, w.held[k]?.join = some a → w'.held[k]?.join = some a) : i.Settled s w' context := by
  induction h with
  | mk answered held _ ih => exact .mk answered (kept held) ih

theorem isPrepared (h : i.Settled s w context) : w.isPrepared i := by
  cases h with
  | mk answered held each =>
    unfold Workspace.isPrepared Workspace.aggregates?
    rw [held]
    rfl

theorem answered (h : i.Settled s w context) : ∀ d ∈ i.tree.fields, ∃ a, s.aggregates context d = .ok a := by
  induction h with
  | mk answered held each ih =>
    intro d member
    rw [tree, FieldTree.fields, trees_eq_map, List.mem_cons, FieldTree.mem_fieldsOf] at member
    rcases member with rfl | ⟨t, inside, member⟩
    · exact ⟨_, answered⟩
    · obtain ⟨j, required, rfl⟩ := List.mem_map.1 inside
      exact ih j required d member

private theorem cells_eq {group : GroupKey} {row : Row} {is : List Instance}
    (each : ∀ i ∈ is, i.cell w group row = i.tree.value s context group row) :
    cells w group row is = FieldTree.values s context group row (is.map tree) := by
  induction is with
  | nil => rfl
  | cons i rest ih =>
    have first := each i (List.mem_cons_self ..)
    have others := ih fun j member => each j (List.mem_cons_of_mem i member)
    rw [List.map_cons, cells, FieldTree.values, first, others, root_tree]
    rfl

/-- The cell of a settled instance is what the source's aggregates alone give for its tree. -/
theorem cell_eq (h : i.Settled s w context) (group : GroupKey) (row : Row) :
    i.cell w group row = i.tree.value s context group row := by
  induction h with
  | @mk slot c dependencies a answered held each ih =>
    have atHand : w.aggregates? ⟨slot, c, context, dependencies⟩ = some a := held
    cases below : FieldTree.values s context group row (dependencies.map tree) with
    | error e => simp only [cell, atHand, cells_eq ih, tree, trees_eq_map, FieldTree.value, answered, below]
    | ok cells => simp only [cell, atHand, cells_eq ih, tree, trees_eq_map, FieldTree.value, answered, below]

end Instance.Settled

/-! ## What an instance requires, by name -/

namespace Instance

mutual

/-- The instance and all that it requires, each before what it requires itself. -/
def parts : Instance → List Instance
  | ⟨slot, c, context, dependencies⟩ => ⟨slot, c, context, dependencies⟩ :: partsOf dependencies

def partsOf : List Instance → List Instance
  | [] => []
  | i :: rest => i.parts ++ partsOf rest

end

theorem parts_eq (i : Instance) : i.parts = i :: partsOf i.dependencies := by
  cases i with
  | mk slot c context dependencies => rw [parts]

theorem mem_partsOf {is : List Instance} {j : Instance} : j ∈ partsOf is ↔ ∃ i ∈ is, j ∈ i.parts := by
  induction is with
  | nil => simp [partsOf]
  | cons i rest ih => simp [partsOf, ih]

mutual

theorem map_parts (i : Instance) : i.parts.map computation = i.tree.fields := by
  match i with
  | ⟨slot, c, context, dependencies⟩ =>
    rw [parts, tree, FieldTree.fields, List.map_cons, map_partsOf dependencies]

theorem map_partsOf (is : List Instance) : (partsOf is).map computation = FieldTree.fieldsOf (trees is) := by
  match is with
  | [] => rfl
  | i :: rest => rw [partsOf, trees, FieldTree.fieldsOf, List.map_append, map_parts i, map_partsOf rest]

end

mutual

/-- The search goes through what the instance requires in order. -/
theorem dependency?_eq (name : String) (i : Instance) :
    i.dependency? name = (partsOf i.dependencies).find? fun j => j.name = name := by
  match i with
  | ⟨slot, c, context, dependencies⟩ => rw [dependency?, dependencyAmong?_eq name dependencies]

theorem dependencyAmong?_eq (name : String) (is : List Instance) :
    dependencyAmong? name is = (partsOf is).find? fun j => j.name = name := by
  match is with
  | [] => rfl
  | i :: rest =>
    rw [dependencyAmong?, partsOf, List.find?_append, parts_eq, List.find?_cons]
    by_cases same : i.name = name
    · simp [same]
    · rw [dependency?_eq name i, dependencyAmong?_eq name rest]
      simp only [same, if_false, decide_false]
      cases (partsOf i.dependencies).find? fun j => j.name = name <;> rfl

end

theorem sizeOf_lt_of_mem_dependencies {i d : Instance} (inside : d ∈ i.dependencies) : sizeOf d < sizeOf i := by
  have smaller := List.sizeOf_lt_of_mem inside
  cases i
  simp only [mk.sizeOf_spec] at smaller ⊢
  omega

/-- What holds of an instance, and of what is required by each of which it holds, does of all parts. -/
theorem of_mem_parts {P : Instance → Prop} (closed : ∀ i, P i → ∀ d ∈ i.dependencies, P d) (i : Instance) (holds : P i)
    {j : Instance} (part : j ∈ i.parts) : P j := by
  rw [parts_eq, List.mem_cons, mem_partsOf] at part
  rcases part with rfl | ⟨d, inside, part⟩
  · exact holds
  · exact of_mem_parts closed d (closed i holds d inside) part
termination_by sizeOf i
decreasing_by exact sizeOf_lt_of_mem_dependencies inside

theorem Settled.of_mem_parts {s : Source} {w : Workspace} {context : Context} {i j : Instance}
    (h : i.Settled s w context) (member : j ∈ i.parts) : j.Settled s w context := by
  refine Instance.of_mem_parts (P := fun i => i.Settled s w context) ?_ i h member
  rintro _ (⟨_, _, each⟩) d inside
  exact each d inside

theorem unfolds_of_mem_parts {r : Registry} {stack : List String} {i j : Instance} (h : i.tree.Unfolds r stack)
    (member : j ∈ i.parts) : j.tree.Unfolds r stack := by
  refine of_mem_parts (P := fun i => i.tree.Unfolds r stack) (fun i unfolds d inside => ?_) i h member
  rw [tree_eq] at unfolds
  cases unfolds with
  | node fresh means each => exact (each d.tree (List.mem_map_of_mem inside)).mono (List.subset_append_left ..)

/-- What a field requires is found by its name among the parts of the field's instance. -/
theorem dependency?_of_depends {r : Registry} {i : Instance} {stack : List String} {d : Computation}
    (unfolds : i.tree.Unfolds r stack) (covers : r.Covers i.computation) (depends : r.Depends i.computation d) :
    ∃ j, i.dependency? d.name = some j ∧ j.computation = d ∧ j ∈ i.parts := by
  have below : d ∈ (partsOf i.dependencies).map computation := by
    rw [map_partsOf, trees_eq_map]
    rw [tree_eq] at unfolds
    exact unfolds.mem_below_iff.2 depends
  obtain ⟨k, inside, rfl⟩ := List.mem_map.1 below
  obtain ⟨j, found⟩ : ∃ j, (partsOf i.dependencies).find? (fun j => j.name = k.computation.name) = some j := by
    refine Option.isSome_iff_exists.1 (List.find?_isSome.2 ⟨k, inside, ?_⟩)
    simp [name]
  have named : j.name = k.computation.name := by simpa using List.find?_some found
  have member := List.mem_of_find?_eq_some found
  have part : j ∈ i.parts := by
    rw [parts_eq]
    exact List.mem_cons_of_mem i member
  refine ⟨j, by rw [dependency?_eq, found], ?_, part⟩
  have reached : r.Reaches i.computation j.computation := by
    rw [← root_tree i, ← unfolds.mem_fields_iff, ← map_parts]
    exact List.mem_map_of_mem part
  exact Registry.eq_of_name_eq (covers _ reached) (covers _ depends.to_reflTransGen) named

end Instance
end Reporting
