import Reporting.Proofs.Computation.Requery
import Reporting.Proofs.Report.Providers

/-!
Asking again for one row. A plan over groups gives a column the cells that a plan without groups gives it when
the filters are extended by what picks the group (`Plan.requeried`).
-/

namespace Reporting

/-- The context without groups, with a restriction after its filters. -/
def Context.narrow (context : Context) (restriction : FilterSet) : Context :=
  { context with grouping := .none, filters := context.filters ++ restriction }

theorem ComputedColumn.context_narrows (c : ComputedColumn) (base : Context) (crosstab : Option Crosstab)
    (restriction : FilterSet) :
    (c.context base crosstab).Narrows (c.context (base.narrow restriction) crosstab) restriction where
  entity := rfl
  baseFilters := rfl
  dateField := rfl
  window := rfl
  filters := by
    unfold context Context.narrow
    split
    · rename_i bucket crosstab _
      have moved : (crosstab.filterFor bucket ++ restriction).Perm (restriction ++ crosstab.filterFor bucket) :=
        List.perm_append_comm
      simp only [List.append_assoc]
      exact moved.append_left base.filters
    · exact .refl _
  ungrouped := rfl
  plusSide := rfl
  minusSide := rfl

/-- The contexts of a report's columns have the groups of the report. -/
theorem ComputedColumn.picks (c : ComputedColumn) {m : Memory} {base : Context} {group : GroupKey}
    {restriction : FilterSet} (h : m.Picks base.entity base.grouping group restriction) (crosstab : Option Crosstab) :
    m.Picks (c.context base crosstab).entity (c.context base crosstab).grouping group restriction :=
  h

namespace Plan
variable {m : Memory} {r : Registry} {base : Context} {crosstab : Option Crosstab} {columns : List Column}
  {plan : Plan} {w w' : Workspace} {group : GroupKey} {restriction : FilterSet}

/-- The plan without groups and with what picks the group is built, too, and gives the column its cells. -/
theorem requeried (families : ComputedColumn.Families r (Column.computed columns))
    (apart : ComputedColumn.Apart (Column.computed columns))
    (built : build columns base crosstab r m.source w = (.ok plan, w'))
    (picks : m.Picks base.entity base.grouping group restriction) {c : ComputedColumn}
    (member : c ∈ Column.computed columns) (splits : ∀ d, r.Reaches c.computation d → d.preventGroupBy = false)
    (start : Workspace) :
    ∃ plain after, build columns (base.narrow restriction) crosstab r m.source start = (.ok plain, after) ∧
      ∀ other row, plain.cell after c.column other row = plan.cell w' c.column group row := by
  have provided := fun {d} => provides_of_build (c := d) families apart built
  obtain ⟨i, found, settled, same, unfolds⟩ := provided member
  have fields : ∀ d, d ∈ i.tree.fields ↔ r.Reaches c.computation d := by
    intro d
    rw [unfolds.mem_fields_iff, Instance.root_tree, same]
  obtain ⟨tests, tested⟩ : ∃ tests, m.resolveFilters base.entity restriction = .ok tests := by
    obtain ⟨a, answered⟩ := settled.answered c.computation ((fields _).2 .refl)
    have tested := Memory.resolved_of_aggregates (c.picks picks crosstab) (splits _ .refl) answered
    exact tested
  have listed : ∀ d ∈ Column.computed columns, ∃ ds, r.dependencies d.computation = .ok ds := by
    intro d member
    obtain ⟨j, _, _, same, unfolds⟩ := provided member
    rw [← same, ← Instance.root_tree]
    exact Registry.dependencies_of_unfolds unfolds
  -- A field that keeps all groups together is narrowed as a whole, and any other is narrowed to the group.
  have answers : ∀ d ∈ Column.computed columns, ∀ e, r.Reaches d.computation e → ∃ a,
      m.source.aggregates (d.contextKey.context (Column.computed columns) (base.narrow restriction) crosstab) e = .ok a := by
    intro d member e reaches
    obtain ⟨j, _, settled, same, unfolds⟩ := provided member
    rw [← same, ← Instance.root_tree, ← unfolds.mem_fields_iff] at reaches
    obtain ⟨a, answered⟩ := settled.answered e reaches
    rw [context_contextKey apart member]
    have narrows := d.context_narrows base crosstab restriction
    cases whole : e.preventGroupBy with
    | true => exact Memory.aggregates_narrowed narrows tested whole answered
    | false =>
      obtain ⟨b, answered', _⟩ := Memory.aggregates_picked narrows picks whole answered
      exact ⟨b, answered'⟩
  obtain ⟨plain, after, builtPlain⟩ := build_of_answers families listed answers start
  obtain ⟨j, foundPlain, settledPlain, samePlain, unfoldsPlain⟩ :=
    provides_of_build families apart builtPlain member
  refine ⟨plain, after, builtPlain, fun other row => ?_⟩
  -- Both providers unfold the same field of the same registry, so they only differ in what the source answered.
  have trees : j.tree = i.tree := by
    refine unfoldsPlain.eq_of_root_eq unfolds ?_
    rw [Instance.root_tree, Instance.root_tree, same, samePlain]
  rw [cell_of_provider? found, cell_of_provider? foundPlain, settled.cell_eq, settledPlain.cell_eq, trees]
  have dates : (c.context (base.narrow restriction) crosstab).dateField = (c.context base crosstab).dateField := rfl
  refine FieldTree.value_congr dates i.tree fun d inside => ?_
  obtain ⟨a, answered⟩ := settled.answered d inside
  obtain ⟨b, answered', sides⟩ := Memory.aggregates_picked (c.context_narrows base crosstab restriction) picks
    (splits d ((fields d).1 inside)) answered
  exact ⟨a, b, answered, answered', sides other⟩

/-- A column whose field requires nothing has the cells that the field makes of what the source has for it. -/
theorem cell_of_alone {s : Source} (families : ComputedColumn.Families r (Column.computed columns))
    (apart : ComputedColumn.Apart (Column.computed columns)) (built : build columns base crosstab r s w = (.ok plan, w'))
    {c : ComputedColumn} (member : c ∈ Column.computed columns) (alone : c.computation.requirements = []) :
    ∃ a, s.aggregates (c.context base crosstab) c.computation = .ok a ∧ ∀ group row, plan.cell w' c.column group row =
      c.computation.resolve ⟨a.debitOf group, a.creditOf group, [], base.dateField.isSome⟩ row := by
  obtain ⟨i, found, settled, same, unfolds⟩ := provides_of_build families apart built member
  have root : i.tree.root = c.computation := by rw [Instance.root_tree, same]
  have tree : i.tree = .node c.computation [] := by
    rw [unfolds.eq_node_of_alone (by rw [root, alone]), root]
  obtain ⟨a, answered⟩ := settled.answered c.computation (by simp [tree, FieldTree.fields])
  refine ⟨a, answered, fun group row => ?_⟩
  rw [cell_of_provider? found, settled.cell_eq, tree, FieldTree.value, answered, FieldTree.values]
  rfl

/-- For a group that none of the field's records belong to, it is the field's cell for nothing on either side. -/
theorem cell_of_blank (families : ComputedColumn.Families r (Column.computed columns))
    (apart : ComputedColumn.Apart (Column.computed columns))
    (built : build columns base crosstab r m.source w = (.ok plan, w'))
    (picks : m.Picks base.entity base.grouping group restriction) {c : ComputedColumn}
    (member : c ∈ Column.computed columns) (splits : c.computation.preventGroupBy = false)
    (alone : c.computation.requirements = [])
    (blank : m.matching base.entity ((c.context base crosstab).filtersOf c.computation ++ restriction) = .ok [])
    (row : Row) : plan.cell w' c.column group row = c.computation.resolve ⟨0, 0, [], base.dateField.isSome⟩ row := by
  obtain ⟨a, answered, cells⟩ := cell_of_alone families apart built member alone
  obtain ⟨debit, credit⟩ := Memory.aggregates_blank (c.picks picks crosstab) splits blank answered
  rw [cells, debit, credit]

end Plan
end Reporting
