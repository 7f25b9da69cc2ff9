import Reporting.Proofs.Computation.Settling
import Reporting.Proofs.Memory

/-!
Asking again for one group. A restriction picks the records of a group of a table (`Picks`); what a field has
for the group is what it has without groups in the context with the restriction (`aggregates_picked`).
-/

namespace Reporting

/-- The restriction picks the records of the group: all of them, those with the group's key at the path, or
those that pass the filter set at the group's place. -/
inductive Memory.Picks (m : Memory) (entity : String) : Grouping → GroupKey → FilterSet → Prop
  | all (group : GroupKey) : Picks m entity .none group []
  | key {path text : String} {restriction : FilterSet} {place : ResolvedPath} {tests : List (ResolvedPath × Predicate)}
      (resolved : m.schema.resolve entity path = .ok place) (tested : m.resolveFilters entity restriction = .ok tests)
      (same : ∀ record ∈ (m.tableOf entity).rows.toList,
        m.passes tests record = decide ((m.cellAt record place).key = text)) :
      Picks m entity (.byPath path) (.key text) restriction
  | set {sets : List FilterSet} {i : Nat} {restriction : FilterSet} (found : sets[i]? = some restriction) :
      Picks m entity (.bySets sets) (.index i) restriction

/-- The second context is the first one without groups, and with the restriction among its filters. -/
structure Context.Narrows (context narrow : Context) (restriction : FilterSet) : Prop where
  entity : narrow.entity = context.entity
  baseFilters : narrow.baseFilters = context.baseFilters
  dateField : narrow.dateField = context.dateField
  window : narrow.window = context.window
  filters : (context.filters ++ restriction).Perm narrow.filters
  ungrouped : narrow.grouping = .none
  plusSide : narrow.plusSide = context.plusSide
  minusSide : narrow.minusSide = context.minusSide

namespace Memory
variable {m : Memory} {entity : String} {filters narrowed restriction : FilterSet} {aggregation : Aggregation}

theorem aggregate_of_matching {records : List Record} {target : ResolvedPath}
    (resolved : m.schema.resolve entity aggregation.field = .ok target)
    (matched : m.matching entity narrowed = .ok records) :
    m.source.totals entity narrowed .none aggregation =
      .ok (.single (aggregation.method.compute? (records.map fun record => m.cellAt record target))) := by
  have found := aggregate_eq_ok_iff.2 ⟨target, records, resolved, matched, rfl⟩
  show (m.aggregate entity narrowed aggregation).map Totals.single = _
  rw [found]
  rfl

/-- The total of a group is that of the records that the restriction picks. -/
theorem totals_picked {grouping : Grouping} {group : GroupKey} (picks : m.Picks entity grouping group restriction)
    (perm : (filters ++ restriction).Perm narrowed) {totals : Totals}
    (found : m.source.totals entity filters grouping aggregation = .ok totals) :
    ∃ single, m.source.totals entity narrowed .none aggregation = .ok single ∧
      ∀ other, single.ofGroup other = totals.ofGroup group := by
  cases picks with
  | all group =>
    obtain ⟨total, answered, rfl⟩ := Results.map_eq_ok_iff.1 found
    obtain ⟨target, records, resolved, matched, rfl⟩ := aggregate_eq_ok_iff.1 answered
    rw [List.append_nil] at perm
    exact ⟨_, aggregate_of_matching resolved (matching_of_perm perm matched), fun _ => rfl⟩
  | @key path text _ place tests resolvedPath tested same =>
    obtain ⟨groups, answered, rfl⟩ := Results.map_eq_ok_iff.1 found
    obtain ⟨place', target, records, resolvedPath', resolved, matched, lookup⟩ := groupAggregate_eq_ok answered
    rw [resolvedPath] at resolvedPath'
    cases resolvedPath'
    have fewer := matching_of_perm perm (matching_append matched tested)
    refine ⟨_, aggregate_of_matching resolved fewer, fun other => ?_⟩
    have kept : records.filter (m.passes tests) = records.filter fun record => (m.cellAt record place).key = text := by
      exact List.filter_congr fun record member => same record (mem_table_of_matching matched member)
    rw [kept]
    exact (lookup text).symm
  | @set sets i _ there =>
    obtain ⟨totals, answers, rfl⟩ := Results.map_eq_ok_iff.1 found
    obtain ⟨total, place, answered⟩ := Results.getElem?_of_mapM answers there
    obtain ⟨target, records, resolved, matched, rfl⟩ := aggregate_eq_ok_iff.1 answered
    refine ⟨_, aggregate_of_matching resolved (matching_of_perm perm matched), fun other => ?_⟩
    simp only [Totals.ofGroup, place, Option.join_some]

/-- The total of a group is zero where no record of the group passes some of the filters. -/
theorem totals_blank {grouping : Grouping} {group : GroupKey} (picks : m.Picks entity grouping group restriction)
    {side : FilterSet} (blank : m.matching entity (filters ++ restriction) = .ok []) {totals : Totals}
    (found : m.source.totals entity (filters ++ side) grouping aggregation = .ok totals) : totals.ofGroup group = 0 := by
  have moved : (filters ++ side ++ restriction).Perm (filters ++ restriction ++ side) := by
    rw [List.append_assoc, List.append_assoc]
    exact List.perm_append_comm.append_left filters
  obtain ⟨single, answered, same⟩ := totals_picked picks moved found
  obtain ⟨total, summed, rfl⟩ := Results.map_eq_ok_iff.1 answered
  obtain ⟨target, records, _, matched, rfl⟩ := aggregate_eq_ok_iff.1 summed
  rw [← same .all, matching_append_nil blank matched]
  exact compute?_nil _

/-- A restriction can be asked for where the total of its group could. -/
theorem Picks.resolved {grouping : Grouping} {group : GroupKey} (picks : m.Picks entity grouping group restriction)
    {totals : Totals} (found : m.source.totals entity filters grouping aggregation = .ok totals) :
    ∃ tests, m.resolveFilters entity restriction = .ok tests := by
  cases picks with
  | all group => exact ⟨[], rfl⟩
  | @key path text _ place tests resolvedPath tested same => exact ⟨tests, tested⟩
  | @set sets i _ there =>
    obtain ⟨totals, answers, rfl⟩ := Results.map_eq_ok_iff.1 found
    obtain ⟨total, _, answered⟩ := Results.getElem?_of_mapM answers there
    obtain ⟨_, records, _, matched, _⟩ := aggregate_eq_ok_iff.1 answered
    obtain ⟨_, tests, _, resolved, _⟩ := matching_eq_ok_iff.1 matched
    obtain ⟨_, others, _, resolvedMore, _⟩ := resolveFilters_append_eq_ok_iff.1 resolved
    exact ⟨others, resolvedMore⟩

/-- A total without groups is there with more filters, too. -/
theorem totals_narrowed (perm : (filters ++ restriction).Perm narrowed) {tests : List (ResolvedPath × Predicate)}
    (tested : m.resolveFilters entity restriction = .ok tests) {totals : Totals}
    (found : m.source.totals entity filters .none aggregation = .ok totals) :
    ∃ single, m.source.totals entity narrowed .none aggregation = .ok single := by
  obtain ⟨total, answered, rfl⟩ := Results.map_eq_ok_iff.1 found
  obtain ⟨target, records, resolved, matched, rfl⟩ := aggregate_eq_ok_iff.1 answered
  exact ⟨_, aggregate_of_matching resolved (matching_of_perm perm (matching_append matched tested))⟩

end Memory

namespace Context.Narrows
variable {context narrow : Context} {restriction : FilterSet}

theorem filtersOf_append (h : context.Narrows narrow restriction) (c : Computation) (side : FilterSet) :
    (context.filtersOf c ++ side ++ restriction).Perm (narrow.filtersOf c ++ side) := by
  have dates : narrow.dateFilters c.dateScope = context.dateFilters c.dateScope := by
    unfold dateFilters
    rw [h.dateField, h.window]
  unfold filtersOf
  rw [h.baseFilters, dates]
  generalize context.baseFilters ++ c.baseFilters.getD [] ++ context.dateFilters c.dateScope = before
  have moved : (side ++ restriction).Perm (restriction ++ side) := List.perm_append_comm
  have inside : ((context.filters ++ restriction) ++ side).Perm (narrow.filters ++ side) := h.filters.append_right side
  rw [List.append_assoc, List.append_assoc, List.append_assoc]
  refine .append_left before (.trans (.append_left context.filters moved) ?_)
  rw [← List.append_assoc]
  exact inside

theorem debitFilters (h : context.Narrows narrow restriction) (c : Computation) :
    (context.debitFilters c ++ restriction).Perm (narrow.debitFilters c) := by
  unfold Context.debitFilters
  rw [h.plusSide]
  exact h.filtersOf_append c _

theorem creditFilters? (h : context.Narrows narrow restriction) (c : Computation) :
    (context.creditFilters? c = none ∧ narrow.creditFilters? c = none) ∨
      ∃ filters narrowed, context.creditFilters? c = some filters ∧ narrow.creditFilters? c = some narrowed ∧
        (filters ++ restriction).Perm narrowed := by
  unfold Context.creditFilters?
  rw [h.minusSide]
  cases c.minusSide <|> context.minusSide with
  | none => exact Or.inl ⟨rfl, rfl⟩
  | some side => exact Or.inr ⟨_, _, rfl, rfl, h.filtersOf_append c side⟩

end Context.Narrows

namespace Memory
variable {m : Memory} {context narrow : Context} {restriction : FilterSet} {group : GroupKey} {c : Computation}
  {a : Aggregates}

theorem groupingOf_narrow (narrows : context.Narrows narrow restriction) (c : Computation) :
    narrow.groupingOf c = .none := by
  unfold Context.groupingOf
  rw [narrows.ungrouped, ite_self]

/-- What holds of the totals of each side in the two contexts holds of the aggregates. -/
theorem aggregates_narrow {P : Totals → Totals → Prop} (narrows : context.Narrows narrow restriction)
    (each : ∀ {filters narrowed : FilterSet} {totals}, (filters ++ restriction).Perm narrowed →
      m.source.totals context.entity filters (context.groupingOf c) ⟨c.method, c.field⟩ = .ok totals →
      ∃ single, m.source.totals context.entity narrowed .none ⟨c.method, c.field⟩ = .ok single ∧ P totals single)
    (found : m.source.aggregates context c = .ok a) :
    ∃ b, m.source.aggregates narrow c = .ok b ∧ P a.debit b.debit ∧
      (a.credit = none ∧ b.credit = none ∨ ∃ x y, a.credit = some x ∧ b.credit = some y ∧ P x y) := by
  have ungrouped := groupingOf_narrow narrows c
  unfold Source.aggregates at found ⊢
  rw [ungrouped, narrows.entity]
  rcases narrows.creditFilters? c with ⟨none_, none'⟩ | ⟨filters, narrowed, some_, some', perm⟩
  · rw [none_] at found
    obtain ⟨debit, answered, rfl⟩ := Results.map_eq_ok_iff.1 found
    obtain ⟨single, answered', same⟩ := each (narrows.debitFilters c) answered
    rw [none']
    refine ⟨⟨single, none⟩, ?_, same, Or.inl ⟨rfl, rfl⟩⟩
    simp only [answered', Except.map]
  · rw [some_] at found
    obtain ⟨debit, answered, found⟩ := Results.bind_eq_ok_iff.1 found
    obtain ⟨credit, answeredCredit, found⟩ := Results.bind_eq_ok_iff.1 found
    cases found
    obtain ⟨single, answered', same⟩ := each (narrows.debitFilters c) answered
    obtain ⟨singleCredit, answeredCredit', sameCredit⟩ := each perm answeredCredit
    rw [some']
    refine ⟨⟨single, some singleCredit⟩, ?_, same, Or.inr ⟨credit, singleCredit, rfl, rfl, sameCredit⟩⟩
    simp only [answered', answeredCredit']
    rfl

/-- What a field has for a group is what it has without groups where the restriction picks the group. -/
theorem aggregates_picked (narrows : context.Narrows narrow restriction)
    (picks : m.Picks context.entity context.grouping group restriction) (splits : c.preventGroupBy = false)
    (found : m.source.aggregates context c = .ok a) :
    ∃ b, m.source.aggregates narrow c = .ok b ∧
      ∀ other, b.debitOf other = a.debitOf group ∧ b.creditOf other = a.creditOf group := by
  have grouping : context.groupingOf c = context.grouping := by
    unfold Context.groupingOf
    rw [splits, if_neg Bool.false_ne_true]
  obtain ⟨b, answered, debit, credit⟩ := aggregates_narrow (P := fun T U => ∀ other, U.ofGroup other = T.ofGroup group)
    narrows (fun perm answered => totals_picked (grouping ▸ picks) perm answered) found
  refine ⟨b, answered, fun other => ⟨debit other, ?_⟩⟩
  unfold Aggregates.creditOf
  rcases credit with ⟨none_, none'⟩ | ⟨x, y, some_, some', same⟩
  · rw [none_, none']
  · rw [some_, some']
    exact same other

/-- A field has nothing on either side for a group that none of its records belong to. -/
theorem aggregates_blank (picks : m.Picks context.entity context.grouping group restriction)
    (splits : c.preventGroupBy = false)
    (blank : m.matching context.entity (context.filtersOf c ++ restriction) = .ok [])
    (found : m.source.aggregates context c = .ok a) : a.debitOf group = 0 ∧ a.creditOf group = 0 := by
  have grouping : context.groupingOf c = context.grouping := by
    unfold Context.groupingOf
    rw [splits, if_neg Bool.false_ne_true]
  unfold Source.aggregates Context.creditFilters? Context.debitFilters at found
  rw [grouping] at found
  cases minus : c.minusSide <|> context.minusSide with
  | none =>
    rw [minus] at found
    obtain ⟨debit, answered, rfl⟩ := Results.map_eq_ok_iff.1 found
    exact ⟨totals_blank picks blank answered, rfl⟩
  | some side =>
    rw [minus] at found
    obtain ⟨debit, answered, found⟩ := Results.bind_eq_ok_iff.1 found
    obtain ⟨credit, answeredCredit, found⟩ := Results.bind_eq_ok_iff.1 found
    cases found
    exact ⟨totals_blank picks blank answered, totals_blank picks blank answeredCredit⟩

/-- What a field has over all groups together is there with more filters, too. -/
theorem aggregates_narrowed (narrows : context.Narrows narrow restriction)
    {tests : List (ResolvedPath × Predicate)} (tested : m.resolveFilters context.entity restriction = .ok tests)
    (whole : c.preventGroupBy = true) (found : m.source.aggregates context c = .ok a) :
    ∃ b, m.source.aggregates narrow c = .ok b := by
  have grouping : context.groupingOf c = .none := by
    unfold Context.groupingOf
    rw [whole, if_pos rfl]
  obtain ⟨b, answered, _⟩ := aggregates_narrow (P := fun _ _ => True) narrows
    (fun perm answered => by
      rw [grouping] at answered
      obtain ⟨single, found⟩ := totals_narrowed perm tested answered
      exact ⟨single, found, trivial⟩) found
  exact ⟨b, answered⟩

theorem resolved_of_aggregates (picks : m.Picks context.entity context.grouping group restriction)
    (splits : c.preventGroupBy = false) (found : m.source.aggregates context c = .ok a) :
    ∃ tests, m.resolveFilters context.entity restriction = .ok tests := by
  have grouping : context.groupingOf c = context.grouping := by
    unfold Context.groupingOf
    rw [splits, if_neg Bool.false_ne_true]
  unfold Source.aggregates at found
  rw [grouping] at found
  cases credit : context.creditFilters? c with
  | none =>
    rw [credit] at found
    obtain ⟨debit, answered, rfl⟩ := Results.map_eq_ok_iff.1 found
    exact picks.resolved answered
  | some filters =>
    rw [credit] at found
    obtain ⟨debit, answered, _⟩ := Results.bind_eq_ok_iff.1 found
    exact picks.resolved answered

end Memory

namespace FieldTree
variable {s s' : Source} {context context' : Context} {group group' : GroupKey} {row : Row}

theorem values_congr {ts : List FieldTree}
    (each : ∀ t ∈ ts, t.value s' context' group' row = t.value s context group row) :
    values s' context' group' row ts = values s context group row ts := by
  induction ts with
  | nil => rfl
  | cons t rest ih =>
    rw [values, values, each t (List.mem_cons_self ..), ih fun u member => each u (List.mem_cons_of_mem t member)]

/-- Trees have the same cell where their fields have the same aggregates. -/
theorem value_congr (dates : context'.dateField = context.dateField) (t : FieldTree)
    (same : ∀ d ∈ t.fields, ∃ a b, s.aggregates context d = .ok a ∧ s'.aggregates context' d = .ok b ∧
      b.debitOf group' = a.debitOf group ∧ b.creditOf group' = a.creditOf group) :
    t.value s' context' group' row = t.value s context group row := by
  match t with
  | .node c below =>
    rw [fields] at same
    obtain ⟨a, b, found, found', debit, credit⟩ := same c (List.mem_cons_self ..)
    have cells : values s' context' group' row below = values s context group row below := by
      refine values_congr fun u inside => value_congr dates u fun d member => ?_
      exact same d (List.mem_cons_of_mem c (mem_fieldsOf.2 ⟨u, inside, member⟩))
    rw [value, value, found, found', cells]
    simp only [debit, credit, dates]
termination_by sizeOf t
decreasing_by
  have smaller := List.sizeOf_lt_of_mem inside
  simp only [node.sizeOf_spec]
  omega

end FieldTree
end Reporting
