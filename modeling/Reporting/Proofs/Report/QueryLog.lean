import Mathlib
import Reporting.Proofs.Report.Contexts

/-!
The queries of a plan. Every field that a context takes is asked for once in it, after what the field
requires, and nothing else is asked. The number of queries therefore only depends on which fields the
contexts take.
-/

namespace Reporting

/-- The number of queries for the aggregates of a field: one for each side, times the number of filter sets
if the field is split by them. -/
def Context.queryCount (context : Context) (c : Computation) : Nat :=
  let sides := if c.minusSide.isSome || context.minusSide.isSome then 2 else 1
  match context.grouping with
  | .bySets sets => if c.preventGroupBy then sides else sides * sets.length
  | _ => sides

theorem Grouping.length_queries (grouping : Grouping) (entity : String) (filters : FilterSet)
    (aggregation : Aggregation) :
    (grouping.queries entity filters aggregation).length =
      match grouping with
      | .bySets sets => sets.length
      | _ => 1 := by
  cases grouping <;> simp [queries]

theorem Context.length_queries (context : Context) (c : Computation) :
    (context.queries c).length = context.queryCount c := by
  have sides : ∀ (a b : Option FilterSet), (a <|> b).isSome = (a.isSome || b.isSome) := by
    intro a b
    cases a <;> simp
  unfold queries queryCount creditFilters?
  rw [List.length_append, Grouping.length_queries, ← sides]
  cases found : c.minusSide <|> context.minusSide with
  | none =>
    unfold groupingOf
    cases c.preventGroupBy <;> cases context.grouping <;> simp
  | some filters =>
    simp only [Option.map_some, Option.getD_some, Grouping.length_queries]
    unfold groupingOf
    cases c.preventGroupBy <;> cases context.grouping <;> simp [Nat.two_mul]

/-- A column of the context reaches the field. -/
def ContextKey.Takes (r : Registry) (columns : List Column) (key : ContextKey) (d : Computation) : Prop :=
  ∃ c ∈ Column.computed columns, c.contextKey = key ∧ r.Reaches c.computation d

namespace Plan
variable {r : Registry} {s : Source} {base : Context} {crosstab : Option Crosstab}

/-- The fields that were asked for in the contexts. -/
structure AskedFor (r : Registry) (columns : List ComputedColumn) (keys : List ContextKey)
    (queriesOf : ContextKey × Computation → List Query) (w w' : Workspace) (asked : List (ContextKey × Computation)) :
    Prop where
  log : w'.queries.toList = w.queries.toList ++ asked.flatMap queriesOf
  distinct : (asked.map fun p => (p.1, p.2.name)).Nodup
  mem_iff : ∀ key d, (key, d) ∈ asked ↔ key ∈ keys ∧ ∃ c ∈ columns, c.contextKey = key ∧ r.Reaches c.computation d
  earlier : ∀ before key d after, asked = before ++ (key, d) :: after → ∀ e, r.Depends d e → (key, e) ∈ before

theorem ContextPlanned.askedFor {columns : List ComputedColumn} (families : ComputedColumn.Families r columns)
    {key : ContextKey} {old plan : Plan} {start w : Workspace} {owners : Owners} {asked : List Computation}
    (h : ContextPlanned r s (key.context columns base crosstab) (key.members columns) old start owners asked plan w) :
    AskedFor r columns [key] (fun p => (p.1.context columns base crosstab).queries p.2) start w
      (asked.map fun d => (key, d)) where
  log := by
    rw [h.log, List.flatMap_map]
    simp
  distinct := by
    rw [List.map_map]
    refine h.distinct.map_on fun d hd e he same => ?_
    obtain ⟨c, member, reaches⟩ := (h.mem_asked_iff d).1 hd
    obtain ⟨c', member', reaches'⟩ := (h.mem_asked_iff e).1 he
    have family := families.family key
    exact Registry.eq_of_name_eq (family.covers c member d reaches) (family.covers c' member' e reaches')
      (congrArg Prod.snd same)
  mem_iff key' d := by
    rw [List.mem_map, List.mem_singleton]
    constructor
    · rintro ⟨e, member, same⟩
      cases same
      obtain ⟨c, inside, reaches⟩ := (h.mem_asked_iff d).1 member
      obtain ⟨inside, here⟩ := ContextKey.mem_members.1 inside
      exact ⟨rfl, c, inside, here, reaches⟩
    · rintro ⟨rfl, c, inside, here, reaches⟩
      exact ⟨d, (h.mem_asked_iff d).2 ⟨c, ContextKey.mem_members.2 ⟨inside, here⟩, reaches⟩, rfl⟩
  earlier before key' d after split e depends := by
    obtain ⟨first, rest, rfl, rfl, later⟩ := List.map_eq_append_iff.1 split
    obtain ⟨d', rest', rfl, same, _⟩ := List.map_eq_cons_iff.1 later
    cases same
    exact List.mem_map_of_mem (h.toOrdered.depends rfl depends)

theorem AskedFor.append {columns : List ComputedColumn} {key : ContextKey} {keys : List ContextKey}
    {queriesOf : ContextKey × Computation → List Query} {w between w' : Workspace}
    {asked more : List (ContextKey × Computation)} (fresh : key ∉ keys)
    (first : AskedFor r columns [key] queriesOf w between asked)
    (second : AskedFor r columns keys queriesOf between w' more) :
    AskedFor r columns (key :: keys) queriesOf w w' (asked ++ more) where
  log := by rw [second.log, first.log, List.flatMap_append, List.append_assoc]
  distinct := by
    rw [List.map_append, List.nodup_append]
    refine ⟨first.distinct, second.distinct, ?_⟩
    intro a inFirst b inSecond same
    subst same
    obtain ⟨⟨k, d⟩, member, rfl⟩ := List.mem_map.1 inFirst
    obtain ⟨⟨k', d'⟩, member', same⟩ := List.mem_map.1 inSecond
    cases congrArg Prod.fst same
    have here := ((first.mem_iff k d).1 member).1
    rw [List.mem_singleton.1 here] at member'
    exact fresh ((second.mem_iff key d').1 member').1
  mem_iff key' d := by
    rw [List.mem_append, first.mem_iff, second.mem_iff, List.mem_singleton, List.mem_cons]
    exact or_and_right.symm
  earlier before key' d after split e depends := by
    rcases List.append_eq_append_iff.1 split with ⟨prefix_, rfl, rest⟩ | ⟨suffix, rfl, rest⟩
    · exact List.mem_append_right _ (second.earlier prefix_ key' d after rest e depends)
    · rcases List.cons_eq_append_iff.1 rest with ⟨rfl, rest⟩ | ⟨tail, rfl, _⟩
      · have none_ := second.earlier [] key' d after rest.symm e depends
        cases none_
      · exact first.earlier before key' d tail rfl e depends

theorem ContextsPlanned.askedFor {columns : List ComputedColumn} (families : ComputedColumn.Families r columns)
    {keys : List ContextKey} {old plan : Plan} {w w' : Workspace}
    (h : ContextsPlanned r s base crosstab columns keys old w plan w') (distinct : keys.Nodup) :
    ∃ asked, AskedFor r columns keys (fun p => (p.1.context columns base crosstab).queries p.2) w w' asked := by
  induction h with
  | nil plan w => exact ⟨[], by simp, by simp, by simp, by simp⟩
  | cons here rest ih =>
    rw [List.nodup_cons] at distinct
    obtain ⟨more, askedMore⟩ := ih distinct.2
    exact ⟨_, (here.askedFor families).append distinct.1 askedMore⟩

/-- How often each field is asked for is up to the report alone. -/
theorem AskedFor.size_eq {columns : List ComputedColumn} {keys : List ContextKey} {w w' : Workspace}
    {asked : List (ContextKey × Computation)}
    (h : AskedFor r columns keys (fun p => (p.1.context columns base crosstab).queries p.2) w w' asked) :
    w'.queries.size = w.queries.size + (asked.map fun p => base.queryCount p.2).sum := by
  have each : ∀ p : ContextKey × Computation,
      ((p.1.context columns base crosstab).queries p.2).length = base.queryCount p.2 := by
    intro p
    rw [Context.length_queries]
    unfold ContextKey.context
    cases p.1.members columns <;> rfl
  have sizes := congrArg List.length h.log
  rw [List.length_append, List.length_flatMap] at sizes
  simp only [each] at sizes
  simpa using sizes

theorem askedFor_of_build {columns : List Column} {plan : Plan} {w w' : Workspace}
    (families : ComputedColumn.Families r (Column.computed columns))
    (built : build columns base crosstab r s w = (.ok plan, w')) :
    ∃ asked, AskedFor r (Column.computed columns) (ContextKey.all (Column.computed columns))
        (fun p => (p.1.context (Column.computed columns) base crosstab).queries p.2) w w' asked ∧
      ∀ key d, (key, d) ∈ asked ↔ ContextKey.Takes r columns key d := by
  have planned := contextsPlanned_of_build families built
  obtain ⟨asked, all⟩ := planned.askedFor families (ContextKey.nodup_all _)
  refine ⟨asked, all, fun key d => ?_⟩
  rw [all.mem_iff]
  constructor
  · rintro ⟨_, taken⟩
    exact taken
  · rintro ⟨c, member, here, reaches⟩
    exact ⟨ContextKey.mem_all.2 ⟨c, member, here⟩, c, member, here, reaches⟩

theorem covers_of_takes {columns columns₂ : List Column} (covers : ∀ c ∈ Column.computed columns, r.Covers c.computation)
    (same : ∀ key d, ContextKey.Takes r columns₂ key d ↔ ContextKey.Takes r columns key d) :
    ∀ c ∈ Column.computed columns₂, r.Covers c.computation := by
  intro c member
  obtain ⟨c', member', _, reaches⟩ := (same c.contextKey c.computation).1 ⟨c, member, rfl, .refl⟩
  exact (covers c' member').of_reaches reaches

/-- Every field that a context takes is asked for once in it, after all that the field requires, and nothing
else is asked: a query for each side, or one for each side and filter set. So the number of queries is that
of any other columns whose contexts take the same fields. -/
theorem each_field_asked_once {scope : ColumnScope} {columns : List Column} {plan : Plan} {w w' : Workspace}
    (produced : ∀ c ∈ columns, c.Produced scope) (covers : ∀ c ∈ Column.computed columns, r.Covers c.computation)
    (built : build columns base crosstab r s w = (.ok plan, w')) :
    (∃ asked : List (ContextKey × Computation),
      w'.queries.toList = w.queries.toList ++
        asked.flatMap (fun p => (p.1.context (Column.computed columns) base crosstab).queries p.2) ∧
      (asked.map fun p => (p.1, p.2.name)).Nodup ∧
      (∀ key d, (key, d) ∈ asked ↔ ContextKey.Takes r columns key d) ∧
      (∀ before key d after, asked = before ++ (key, d) :: after → ∀ e, r.Depends d e → (key, e) ∈ before) ∧
      w'.queries.size = w.queries.size + (asked.map fun p => base.queryCount p.2).sum) ∧
    ∀ (scope₂ : ColumnScope) (columns₂ : List Column) (crosstab₂ : Option Crosstab) (s₂ : Source) (plan₂ : Plan)
      (w₂ w₂' : Workspace), (∀ c ∈ columns₂, c.Produced scope₂) →
      (∀ key d, ContextKey.Takes r columns₂ key d ↔ ContextKey.Takes r columns key d) →
      build columns₂ base crosstab₂ r s₂ w₂ = (.ok plan₂, w₂') →
      w₂'.queries.size - w₂.queries.size = w'.queries.size - w.queries.size := by
  have families := ComputedColumn.families_of_produced produced covers
  obtain ⟨asked, all, taken⟩ := askedFor_of_build families built
  refine ⟨⟨asked, all.log, all.distinct, taken, all.earlier, all.size_eq⟩, ?_⟩
  intro scope₂ columns₂ crosstab₂ s₂ plan₂ w₂ w₂' produced₂ same built₂
  have families₂ := ComputedColumn.families_of_produced produced₂ (covers_of_takes covers same)
  obtain ⟨asked₂, all₂, taken₂⟩ := askedFor_of_build families₂ built₂
  have perm : asked₂.Perm asked := by
    refine (List.perm_ext_iff_of_nodup (all₂.distinct.of_map _) (all.distinct.of_map _)).2 fun ⟨key, d⟩ => ?_
    rw [taken₂, taken, same]
  have counts := (perm.map fun p => base.queryCount p.2).sum_nat
  rw [all.size_eq, all₂.size_eq, counts]
  omega

theorem balances_take (key : ContextKey) (d : Computation) :
    ContextKey.Takes Registry.withDefaults Column.balances key d ↔
      key = ⟨none, none⟩ ∧ (d = Builtin.openingBalance ∨ d = Builtin.balance) := by
  unfold ContextKey.Takes
  rw [Column.computed_balances]
  simp only [List.mem_cons, List.not_mem_nil, or_false]
  constructor
  · rintro ⟨c, rfl | rfl, rfl, reaches⟩
    · exact ⟨rfl, Or.inl ((Builtin.reaches_openingBalance_iff d).1 reaches)⟩
    · exact ⟨rfl, ((Builtin.reaches_balance_iff d).1 reaches).symm⟩
  · rintro ⟨rfl, required⟩
    exact ⟨_, Or.inr rfl, rfl, (Builtin.reaches_balance_iff d).2 required.symm⟩

/-- The opening balance and the balance take two queries together. -/
theorem balances_asked_once : ∃ plan w',
    build Column.balances Column.salesContext none Registry.withDefaults (Source.constant 1) .empty = (.ok plan, w') ∧
      w'.queries.size = 2 := by
  obtain ⟨plan, w', built⟩ := Column.balances_built 1
  obtain ⟨⟨asked, _, distinct, taken, _, size⟩, _⟩ :=
    each_field_asked_once Column.balances_produced Column.balances_covers built
  have differ : Builtin.openingBalance ≠ Builtin.balance := by
    intro same
    have names : "__fb__" = "__balance__" := congrArg Computation.name same
    exact absurd names (by decide)
  have perm : asked.Perm [(⟨none, none⟩, Builtin.openingBalance), (⟨none, none⟩, Builtin.balance)] := by
    refine (List.perm_ext_iff_of_nodup (distinct.of_map _) (by simp [differ])).2 fun ⟨key, d⟩ => ?_
    rw [taken, balances_take]
    simp [← and_or_left]
  have counts := (perm.map fun p => Column.salesContext.queryCount p.2).sum_nat
  refine ⟨plan, w', built, ?_⟩
  rw [size, counts]
  rfl

end Plan
end Reporting
