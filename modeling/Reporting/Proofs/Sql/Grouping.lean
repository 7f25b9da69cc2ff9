import Reporting.Proofs.Sql.Compile
import Reporting.Proofs.Sql.KeyedGroups

/-!
What a database of typed tables answers about the values at a path: the aggregates by key (`Database.groupAggregate_eq_ok`)
and the different values (`Database.distinctValues_eq_ok`).
-/

namespace Reporting.Sql
variable {db : Database} {root : Entity} {walks : List (List String)}

/-! ## Typed tables -/

/-- The tables keep in each column values of the field's kind. -/
def Database.Typed (db : Database) : Prop :=
  ∀ name e table, db.schema.entity name = .ok e → db.store.table? name = some table →
    ∀ row ∈ table.rows.toList, ∀ f ∈ e.fields, ∃ v, f.kind.holds v ∧ table.cell row f.name = stored f.kind v

namespace View
variable {v : View}

/-- A walk leads to a row of the table of the entity at its end, or to none. -/
theorem Follows.entry (follows : v.Follows db root walks) {walk : List String} (member : walk ∈ [] :: walks) {last : Entity}
    (reached : db.schema.follow root walk = some last) : ∃ table, db.store.table? last.name = some table ∧
      (v walk = (table, none) ∨ ∃ row ∈ table.rows.toList, v walk = (table, some row)) := by
  rcases List.eq_nil_or_concat walk with rfl | ⟨before, name, rfl⟩
  · cases reached
    obtain ⟨table, found, row, inside, here⟩ := follows.start
    exact ⟨table, found, Or.inr ⟨row, inside, here⟩⟩
  · rw [List.concat_eq_append] at member reached ⊢
    have inside : before ++ [name] ∈ walks := by simpa using member
    obtain ⟨e, table, reached', found, linked⟩ := follows.step before name inside
    obtain rfl : last = e := Option.some.inj (reached.symm.trans reached')
    refine ⟨table, found, ?_⟩
    generalize v (before ++ [name]) = entry at linked
    cases linked with
    | row inside _ => exact Or.inr ⟨_, inside, rfl⟩
    | none _ => exact Or.inl rfl

/-- At the end of a path there is what a column of the field's kind keeps of a value. -/
theorem Follows.holds (named : db.schema.Named) (typed : db.Typed) (known : db.schema.entity root.name = .ok root)
    (follows : v.Follows db root walks) {path : String} {place : ResolvedPath}
    (resolved : db.schema.resolve root.name path = .ok place) (member : place.walk ∈ [] :: walks) :
    ∃ x, place.field.kind.holds x ∧ (v.operand place).cell = stored place.field.kind x := by
  obtain ⟨last, leads, field⟩ := Schema.leads_of_resolve known resolved
  have reached : db.schema.follow root place.walk = some last := leads.follow_eq
  obtain ⟨table, found, either⟩ := follows.entry member reached
  unfold operand operandOf
  rcases either with none_ | ⟨row, inside, here⟩
  · refine ⟨.null, ?_, ?_⟩
    · cases place.field.kind <;> rfl
    · rw [none_, stored_null]
      rfl
  · rw [here]
    exact typed last.name last table (Schema.entity_of_follow named known reached) found row inside place.field field

end View

theorem Selects.holdKind {filters : FilterSet} {rows : List Joined} (selects : Selects db root filters walks rows)
    (named : db.schema.Named) (typed : db.Typed) (known : db.schema.entity root.name = .ok root) {path : String}
    {place : ResolvedPath} (resolved : db.schema.resolve root.name path = .ok place) {c : Column} (at_ : c.At walks place) :
    HoldKind place.field.kind c rows := by
  intro row member
  obtain ⟨v, follows, _, rfl⟩ := (selects.mem_iff row).1 member
  unfold Joined.cell
  rw [at_.operand_eq]
  exact follows.holds named typed known resolved (List.mem_of_getElem? at_.table)

/-! ## Groups of a database -/

theorem Select.run_groups_eq_ok {s : Select} {g c : Column} {method : Method} (grouped : s.output = .groups g method c)
    {yielded : List (List Cell)} (ran : s.run db.store = .ok yielded) :
    ∃ rows, db.selected s = .ok rows ∧ (groupRows g rows).mapM (yieldGroup method c) = .ok yielded := by
  obtain ⟨⟨first, joins⟩, checked, passed⟩ := Results.bind_eq_ok_iff.1 ran
  refine ⟨s.matching first joins, Results.map_eq_ok_iff.2 ⟨_, checked, rfl⟩, ?_⟩
  dsimp only at passed
  rw [grouped] at passed
  exact passed

theorem Select.run_distinct_eq_ok {s : Select} {c : Column} (distinct : s.output = .distinct c) {yielded : List (List Cell)}
    (ran : s.run db.store = .ok yielded) :
    ∃ rows, db.selected s = .ok rows ∧ yielded = (distinctCells c rows).map fun cell => [cell] := by
  obtain ⟨⟨first, joins⟩, checked, passed⟩ := Results.bind_eq_ok_iff.1 ran
  refine ⟨s.matching first joins, Results.map_eq_ok_iff.2 ⟨_, checked, rfl⟩, ?_⟩
  dsimp only at passed
  rw [distinct] at passed
  cases passed
  rfl

/-- What a statement groups: the rows that the records of a table fan out to along walks, by a column, and the column that
is aggregated. -/
structure GroupBy where
  walks : List (List String)
  table : StoredTable
  fan : StoredRow → List Joined
  group : Column
  target : Column

def GroupBy.rows (g : GroupBy) : List Joined :=
  g.table.rows.toList.flatMap g.fan

/-- The groups are those of a statement by the path: of the rows that the records of the entity fan out to and that pass the
filters, along no more walks than its paths go. Under each key there is the aggregate of the rows that have a value with the
key, or else of those that have none if the key is theirs. -/
structure Grouped (db : Database) (root : Entity) (filters : FilterSet) (path : String) (place : ResolvedPath)
    (a : Aggregation) (g : GroupBy) (groups : Groups) : Prop where
  selected : ∃ compiled, compileGroups db.schema root.name filters path a = .ok compiled ∧
    compiled.select.output = .groups g.group a.method g.target ∧ db.selected compiled.select = .ok g.rows
  table : db.store.table? root.name = some g.table
  selects : Selects db root filters g.walks g.rows
  fans : FansOut db root filters g.walks g.table g.fan g.rows
  mem_walks_iff : ∀ walk, walk ∈ g.walks ↔ Visits db.schema root path walk ∨ Visits db.schema root a.field walk ∨
    ∃ p ∈ filters, Visits db.schema root p.path walk
  group_at : g.group.At g.walks place
  target_at : ∃ other, db.schema.resolve root.name a.field = .ok other ∧ g.target.At g.walks other
  holdKind : HoldKind place.field.kind g.group g.rows
  lookup : ∀ key, groups.lookup key =
    (totalOf a.method g.target (presentWith place.field.kind g.group g.rows key)).or
      (if key = Value.null.key then totalOf a.method g.target (missing place.field.kind g.group g.rows) else none)

theorem Database.groupAggregate_eq_ok (named : db.schema.Named) (typed : db.Typed) {entity path : String}
    (known : db.schema.entity entity = .ok root) {place : ResolvedPath} (resolved : db.schema.resolve entity path = .ok place)
    (discrete : place.field.kind.isDiscrete) {filters : FilterSet} {a : Aggregation} {groups : Groups}
    (answered : db.groupAggregate entity filters path a = .ok groups) :
    ∃ g, Grouped db root filters path place a g groups := by
  obtain rfl := named _ _ known
  obtain ⟨compiled, built, queried⟩ := Results.bind_eq_ok_iff.1 answered
  obtain ⟨found, read, rfl⟩ := Results.map_eq_ok_iff.1 queried
  obtain ⟨yielded, ran, rfl⟩ := Results.map_eq_ok_iff.1 read
  obtain ⟨root', out, kinds, between, tests, j, known', first, second, rfl⟩ := compile_eq_ok built
  obtain rfl : root = root' := Except.ok.inj (known.symm.trans known')
  obtain ⟨⟨group, kind⟩, middle, toGroup, further⟩ := run_bind_eq_ok_iff.1 first
  obtain ⟨⟨target, kind'⟩, after, toTarget, last⟩ := run_bind_eq_ok_iff.1 further
  cases last
  obtain ⟨rows, selected, grouped⟩ := Select.run_groups_eq_ok rfl ran
  obtain ⟨place', walks, resolved', rfl, numbers, atGroup, visits⟩ :=
    columnAt_eq_ok named known (Joins.numbers_none db.schema root) toGroup
  obtain rfl : place = place' := Except.ok.inj (resolved.symm.trans resolved')
  obtain ⟨other, more, resolvedOther, _, numbers', atTarget, visits'⟩ := columnAt_eq_ok named known numbers toTarget
  obtain ⟨further, visits'', selects⟩ := selects_of_compiled named known numbers' second selected
  have atGroup := (atGroup.mono more).mono further
  have holdKind := selects.holdKind named typed known resolved atGroup
  obtain ⟨table, fan, found, fans⟩ := selects.fans
  obtain rfl := fans.rows_eq
  exact ⟨⟨_, table, fan, group, target⟩, {
    selected := ⟨_, built, rfl, selected⟩
    table := found
    selects := selects
    fans := fans
    mem_walks_iff := fun walk => by
      rw [visits'', visits', visits, List.mem_nil_iff, false_or, or_assoc]
    group_at := atGroup
    target_at := ⟨other, resolvedOther, atTarget.mono further⟩
    holdKind := holdKind
    lookup := fun key => by
      rw [lookup_keyedGroups (ne_nil_of_mem_groupRows (holdKind.isPlain discrete)) grouped,
        holdKind.lookup_groupRows discrete]
      rfl }⟩

/-- What is read of rows with one cell each. -/
theorem filterMap_head?_decode (kind : FieldKind) (cells : List Cell) :
    ((cells.map fun cell => [cell]).map fun row => [kind].zipWith decode row).filterMap List.head? = cells.map (decode kind) := by
  rw [List.map_map, List.filterMap_map]
  exact congrFun (List.filterMap_eq_map (f := decode kind)) cells

/-- The different cells at a path, and rows that have them: those of the views that pass the filters, along no more walks
than needed. -/
theorem Database.distinctValues_eq_ok (named : db.schema.Named) (typed : db.Typed) {entity path : String}
    (known : db.schema.entity entity = .ok root) {place : ResolvedPath} (resolved : db.schema.resolve entity path = .ok place)
    (discrete : place.field.kind.isDiscrete) {filters : FilterSet} {values : List Value}
    (answered : db.distinctValues entity filters path = .ok values) :
    ∃ rows group walks, Selects db root filters walks rows ∧ group.At walks place ∧
      HoldKind place.field.kind group rows ∧
      (∀ walk, walk ∈ walks → Visits db.schema root path walk ∨ ∃ p ∈ filters, Visits db.schema root p.path walk) ∧
      values.Nodup ∧ ∀ x, x ∈ values ↔ ∃ row ∈ rows, row.value place.field.kind group = x := by
  obtain rfl := named _ _ known
  obtain ⟨compiled, built, queried⟩ := Results.bind_eq_ok_iff.1 answered
  obtain ⟨found, read, rfl⟩ := Results.map_eq_ok_iff.1 queried
  obtain ⟨yielded, ran, rfl⟩ := Results.map_eq_ok_iff.1 read
  obtain ⟨root', out, kinds, between, tests, j, known', first, second, rfl⟩ := compile_eq_ok built
  obtain rfl : root = root' := Except.ok.inj (known.symm.trans known')
  obtain ⟨⟨group, kind⟩, middle, toGroup, last⟩ := run_bind_eq_ok_iff.1 first
  cases last
  obtain ⟨rows, selected, rfl⟩ := Select.run_distinct_eq_ok rfl ran
  obtain ⟨place', walks, resolved', rfl, numbers, atGroup, visits⟩ :=
    columnAt_eq_ok named known (Joins.numbers_none db.schema root) toGroup
  obtain rfl : place = place' := Except.ok.inj (resolved.symm.trans resolved')
  obtain ⟨further, visits', selects⟩ := selects_of_compiled named known numbers second selected
  have atGroup := atGroup.mono further
  have holdKind := selects.holdKind named typed known resolved atGroup
  have cells := distinctCells_perm (holdKind.isPlain discrete)
  refine ⟨rows, group, _, selects, atGroup, holdKind, fun walk member => ?_, ?_, fun x => ?_⟩
  · rw [visits', visits] at member
    rcases member with (none_ | here) | there
    · cases none_
    · exact Or.inl here
    · exact Or.inr there
  · rw [filterMap_head?_decode, (cells.map _).nodup_iff]
    refine (nodup_keysOf group rows).map_on fun a ha b hb same => ?_
    obtain ⟨r, inside, rfl⟩ := mem_keysOf.1 ha
    obtain ⟨s, among, rfl⟩ := mem_keysOf.1 hb
    exact holdKind.cell_inj discrete inside among same
  · rw [filterMap_head?_decode, (cells.map _).mem_iff, List.mem_map]
    constructor
    · rintro ⟨cell, member, rfl⟩
      obtain ⟨row, inside, rfl⟩ := mem_keysOf.1 member
      exact ⟨row, inside, rfl⟩
    · rintro ⟨row, inside, rfl⟩
      exact ⟨_, mem_keysOf.2 ⟨row, inside, rfl⟩, rfl⟩

end Reporting.Sql
