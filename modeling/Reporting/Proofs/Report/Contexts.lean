import Reporting.Proofs.Computation.Builtin
import Reporting.Proofs.Parts
import Reporting.Proofs.Report.Planning

/-!
Planning of all contexts, one after another. A plan is built unless a column fails, and then it comes from
planning the contexts in turn (`ContextsPlanned`), each on top of those before it.
-/

namespace Reporting

namespace Column

/-- The columns that are computed, with their fields. -/
def computed (columns : List Column) : List ComputedColumn :=
  columns.filterMap Column.computed?

theorem mem_computed {columns : List Column} {c : ComputedColumn} :
    c ∈ computed columns ↔ c.column ∈ columns ∧ c.column.computation? = some c.computation := by
  obtain ⟨column, computation⟩ := c
  simp only [computed, List.mem_filterMap, computed?, Option.map_eq_some_iff]
  constructor
  · rintro ⟨d, member, f, found, same⟩
    cases same
    exact ⟨member, found⟩
  · rintro ⟨member, found⟩
    exact ⟨column, member, computation, found, rfl⟩

theorem source_of_computation? {c : Column} {computation : Computation} (h : c.computation? = some computation) :
    c.source = .computation computation := by
  unfold computation? at h
  split at h
  · rename_i found
    cases h
    exact found
  · cases h

end Column

namespace ContextKey

/-- The columns of the context, in order. -/
def members (key : ContextKey) (columns : List ComputedColumn) : List ComputedColumn :=
  columns.filter fun c => c.contextKey = key

/-- What the columns of the context are taken over: that of the first of them. -/
def context (key : ContextKey) (columns : List ComputedColumn) (base : Context) (crosstab : Option Crosstab) :
    Context :=
  match key.members columns with
  | [] => base
  | first :: _ => first.context base crosstab

/-- Windows and buckets leave the field that dates the records as it is. -/
theorem dateField_context (key : ContextKey) (columns : List ComputedColumn) (base : Context)
    (crosstab : Option Crosstab) : (key.context columns base crosstab).dateField = base.dateField := by
  unfold context
  split <;> rfl

theorem mem_members {key : ContextKey} {columns : List ComputedColumn} {c : ComputedColumn} :
    c ∈ key.members columns ↔ c ∈ columns ∧ c.contextKey = key := by
  simp [members]

/-- The contexts of the columns in the order in which they first occur. -/
def all (columns : List ComputedColumn) : List ContextKey :=
  (columns.map ComputedColumn.contextKey).eraseDups

theorem mem_all {key : ContextKey} {columns : List ComputedColumn} :
    key ∈ all columns ↔ ∃ c ∈ columns, c.contextKey = key := by
  simp [all]

theorem nodup_all (columns : List ComputedColumn) : (all columns).Nodup :=
  Parts.nodup_eraseDups _

end ContextKey

/-- Columns that are named for their fields, which come from the registry by name. -/
structure ComputedColumn.Families (r : Registry) (columns : List ComputedColumn) : Prop where
  regular : ∀ c ∈ columns, c.Regular
  covers : ∀ c ∈ columns, r.Covers c.computation

theorem ComputedColumn.Families.family {r : Registry} {columns : List ComputedColumn} (h : Families r columns)
    (key : ContextKey) : Family r key (key.members columns) where
  contextKey _ member := (ContextKey.mem_members.1 member).2
  regular c member := h.regular c (ContextKey.mem_members.1 member).1
  covers c member := h.covers c (ContextKey.mem_members.1 member).1

/-- The columns that the entries of a report mean, and their copies, are named for their fields. -/
theorem ComputedColumn.families_of_produced {r : Registry} {scope : ColumnScope} {columns : List Column}
    (produced : ∀ c ∈ columns, c.Produced scope)
    (covers : ∀ c ∈ Column.computed columns, r.Covers c.computation) : Families r (Column.computed columns) where
  regular c member := by
    obtain ⟨inside, found⟩ := Column.mem_computed.1 member
    exact (produced c.column inside).regular (Column.source_of_computation? found)
  covers := covers

namespace Plan

/-- The contexts were planned in turn, from the first plan and workspace to the last. -/
inductive ContextsPlanned (r : Registry) (s : Source) (base : Context) (crosstab : Option Crosstab)
    (columns : List ComputedColumn) : List ContextKey → Plan → Workspace → Plan → Workspace → Prop
  | nil (plan : Plan) (w : Workspace) : ContextsPlanned r s base crosstab columns [] plan w plan w
  | cons {key : ContextKey} {keys : List ContextKey} {old plan plan' : Plan} {start w w' : Workspace}
      {owners : Owners} {asked : List Computation}
      (here : ContextPlanned r s (key.context columns base crosstab) (key.members columns) old start owners asked plan w)
      (rest : ContextsPlanned r s base crosstab columns keys plan w plan' w') :
      ContextsPlanned r s base crosstab columns (key :: keys) old start plan' w'

variable {r : Registry} {s : Source} {base : Context} {crosstab : Option Crosstab} {columns : List ComputedColumn}

theorem contexts_planned (families : ComputedColumn.Families r columns) {keys : List ContextKey}
    (inside : keys ⊆ ContextKey.all columns) (old : Plan) (w : Workspace) :
    (∃ plan w', (keys.map fun key => key.members columns).foldlM (prepareContext r s base crosstab) old w = (.ok plan, w') ∧
        ContextsPlanned r s base crosstab columns keys old w plan w') ∨
      ∃ e w', (keys.map fun key => key.members columns).foldlM (prepareContext r s base crosstab) old w = (.error e, w') ∧
        ∃ c ∈ columns, c.computation.Fails r s (c.contextKey.context columns base crosstab) := by
  induction keys generalizing old w with
  | nil => exact Or.inl ⟨old, w, rfl, .nil old w⟩
  | cons key keys ih =>
    obtain ⟨c, member, same⟩ := ContextKey.mem_all.1 (inside (List.mem_cons_self ..))
    have among := ContextKey.mem_members.2 ⟨member, same⟩
    have family := families.family key
    rw [List.map_cons, List.foldlM_cons]
    cases shape : key.members columns with
    | nil =>
      rw [shape] at among
      cases among
    | cons first rest =>
      have context_eq : key.context columns base crosstab = first.context base crosstab := by
        rw [ContextKey.context, shape]
      rw [shape] at family
      rcases prepareContext_planned s base crosstab family old w with
        ⟨owners, asked, plan, between, ran, planned⟩ | ⟨e, w', ran, d, member, fails⟩
      · rw [← shape, ← context_eq] at planned
        rw [Session.bind_of_ok ran]
        rcases ih (List.subset_of_cons_subset inside) plan between with
          ⟨plan', w', ran, planned'⟩ | failed
        · exact Or.inl ⟨plan', w', ran, .cons planned planned'⟩
        · exact Or.inr failed
      · rw [← shape] at member
        obtain ⟨member, same⟩ := ContextKey.mem_members.1 member
        rw [← context_eq, ← same] at fails
        exact Or.inr ⟨e, w', Session.bind_of_error ran _, d, member, fails⟩

/-- A plan can be built, unless a requirement is missing or the source fails for a field. -/
theorem build_planned (s : Source) (base : Context) (crosstab : Option Crosstab) {columns : List Column}
    (families : ComputedColumn.Families r (Column.computed columns))
    (w : Workspace) :
    (∃ plan w', build columns base crosstab r s w = (.ok plan, w') ∧
        ContextsPlanned r s base crosstab (Column.computed columns) (ContextKey.all (Column.computed columns)) empty w
          plan w') ∨
      ∃ e w', build columns base crosstab r s w = (.error e, w') ∧ ∃ c ∈ Column.computed columns,
        c.computation.Fails r s (c.contextKey.context (Column.computed columns) base crosstab) :=
  contexts_planned families (List.Subset.refl _) empty w

theorem contextsPlanned_of_build {columns : List Column}
    (families : ComputedColumn.Families r (Column.computed columns)) {plan : Plan} {w w' : Workspace}
    (built : build columns base crosstab r s w = (.ok plan, w')) :
    ContextsPlanned r s base crosstab (Column.computed columns) (ContextKey.all (Column.computed columns)) empty w plan
      w' := by
  rcases build_planned s base crosstab families w with
    ⟨plan', after, ran, planned⟩ | ⟨e, after, ran, _⟩
  · rw [built] at ran
    cases ran
    exact planned
  · rw [built] at ran
    cases ran

/-- A plan is built when all requirements are there and the source does not fail. -/
theorem build_of_answers {columns : List Column} (families : ComputedColumn.Families r (Column.computed columns))
    (listed : ∀ c ∈ Column.computed columns, ∃ ds, r.dependencies c.computation = .ok ds)
    (answers : ∀ c ∈ Column.computed columns, ∀ d, r.Reaches c.computation d →
      ∃ a, s.aggregates (c.contextKey.context (Column.computed columns) base crosstab) d = .ok a) (w : Workspace) :
    ∃ plan w', build columns base crosstab r s w = (.ok plan, w') := by
  rcases build_planned s base crosstab families w with ⟨plan, w', built, _⟩ | ⟨_, _, _, c, member, fails⟩
  · exact ⟨plan, w', built⟩
  · rcases fails with unlisted | ⟨d, reaches, cause, failed⟩
    · obtain ⟨ds, found⟩ := listed c member
      exact absurd found (unlisted ds)
    · obtain ⟨a, answered⟩ := answers c member d reaches
      rw [failed] at answered
      cases answered

/-- Of fields that require nothing, the source only has to answer for those of the columns. -/
theorem build_of_alone {columns : List Column} (families : ComputedColumn.Families r (Column.computed columns))
    (alone : ∀ c ∈ Column.computed columns, c.computation.requirements = [])
    (answers : ∀ c ∈ Column.computed columns, ∃ a,
      s.aggregates (c.contextKey.context (Column.computed columns) base crosstab) c.computation = .ok a) (w : Workspace) :
    ∃ plan w', build columns base crosstab r s w = (.ok plan, w') := by
  refine build_of_answers families (fun c member => ?_) (fun c member d reaches => ?_) w
  · exact Registry.dependencies_of_unfolds (FieldTree.unfolds_of_alone (alone c member))
  · rw [Registry.eq_of_reaches_of_alone (alone c member) reaches]
    exact answers c member

end Plan

/-! ## The balances over a source with one answer -/

/-- A source that has the same total for everything. -/
def Source.constant (total : Float) : Source where
  schema := Schema.empty
  rows _ _ _ := .ok []
  aggregate _ _ _ := .ok (some total)
  groupAggregate _ _ _ _ := .ok []
  distinctValues _ _ _ := .ok []
  relatedRows _ _ _ := .ok []

theorem Source.constant_aggregates (total : Float) (context : Context) (ungrouped : context.grouping = .none)
    (c : Computation) : ∃ a, (Source.constant total).aggregates context c = .ok a := by
  have single : context.groupingOf c = .none := by
    unfold Context.groupingOf
    rw [ungrouped, ite_self]
  unfold aggregates
  simp only [single]
  cases context.creditFilters? c <;> exact ⟨_, rfl⟩

namespace Column

/-- All records of an entity, with values added and nothing subtracted. -/
def salesContext : Context := ⟨"sale", [], none, none, [], .none, none, none⟩

/-- The opening balance beside the balance, which requires it. -/
def balances : List Column := [ofComputation Builtin.openingBalance, ofComputation Builtin.balance]

def balancesScope : ColumnScope := ⟨Schema.empty, "sale", Registry.withDefaults, Keyed.empty, "sales", none⟩

theorem balances_produced : ∀ c ∈ balances, c.Produced balancesScope := by
  intro c member
  simp only [balances, List.mem_cons, List.not_mem_nil, or_false] at member
  rcases member with rfl | rfl
  · exact .of_get (Builtin.get (by simp [Builtin.all])) (by decide)
  · exact .of_get (Builtin.get (by simp [Builtin.all])) (by decide)

theorem computed_balances : computed balances =
    [⟨ofComputation Builtin.openingBalance, Builtin.openingBalance⟩, ⟨ofComputation Builtin.balance, Builtin.balance⟩] :=
  rfl

theorem balances_covers : ∀ c ∈ computed balances, Registry.withDefaults.Covers c.computation := by
  intro c member
  simp only [computed_balances, List.mem_cons, List.not_mem_nil, or_false] at member
  rcases member with rfl | rfl
  · exact Builtin.covers (by simp [Builtin.all])
  · exact Builtin.covers (by simp [Builtin.all])

theorem balances_built (total : Float) : ∃ plan w',
    Plan.build balances salesContext none Registry.withDefaults (Source.constant total) .empty = (.ok plan, w') := by
  refine Plan.build_of_answers (ComputedColumn.families_of_produced balances_produced balances_covers) ?_ ?_ _
  · intro c member
    simp only [computed_balances, List.mem_cons, List.not_mem_nil, or_false] at member
    rcases member with rfl | rfl
    · exact Registry.dependencies_of_unfolds (Builtin.unfolds_openingTree (List.not_mem_nil))
    · exact Registry.dependencies_of_unfolds (Builtin.unfolds_balanceTree (List.not_mem_nil) (List.not_mem_nil))
  · intro c member d _
    refine Source.constant_aggregates total _ ?_ d
    unfold ContextKey.context
    split <;> rfl

end Column
end Reporting
