import Reporting.Proofs.Sql.Grouping
import Reporting.Proofs.Sql.Reading

/-!
Values and groups of a database that mirrors tables in memory. At a path whose cells are told by their keys both find the
same values (`Mirrors.distinctValues_both`), and count the same records by them (`Mirrors.counts_both`).
-/

namespace Reporting.Sql

/-! ## Statements without filters -/

section Statements
variable {schema : Schema} {root : Entity} {path : String} {place : ResolvedPath}

theorem compileDistinct_of_error {entity : String} {e : SourceError} (failed : schema.resolve entity path = .error e)
    (named : schema.Named) : compileDistinct schema entity [] path = .error e := by
  cases known : schema.entity entity with
  | error e' =>
    rw [Schema.resolve_of_error known] at failed
    cases failed
    exact Results.bind_of_error known
  | ok root =>
    obtain rfl := named _ _ known
    refine (Results.bind_of_ok known).trans (Results.bind_of_error (run_bind_of_error (run_bind_of_error ?_)))
    exact columnAt_of_error failed Joins.none

theorem compileGroups_of_error {entity : String} {a : Aggregation} {e : SourceError}
    (failed : (schema.resolve entity path >>= fun _ => schema.resolve entity a.field) = .error e)
    (named : schema.Named) : compileGroups schema entity [] path a = .error e := by
  cases known : schema.entity entity with
  | error e' =>
    rw [Schema.resolve_of_error known] at failed
    cases failed
    exact Results.bind_of_error known
  | ok root =>
    obtain rfl := named _ _ known
    refine (Results.bind_of_ok known).trans (Results.bind_of_error (run_bind_of_error ?_))
    cases resolved : schema.resolve root.name path with
    | error e' =>
      rw [resolved] at failed
      cases failed
      exact run_bind_of_error (columnAt_of_error resolved Joins.none)
    | ok place =>
      rw [Results.bind_of_ok resolved] at failed
      obtain ⟨table, j, ran⟩ := columnAt_of_resolve known resolved Joins.none
      exact (Results.bind_of_ok ran).trans (run_bind_of_error (columnAt_of_error failed j))

/-- The statement for the different values at a path. -/
theorem compileDistinct_eq_ok (named : schema.Named) (known : schema.entity root.name = .ok root)
    (resolved : schema.resolve root.name path = .ok place) :
    ∃ c j walks, compileDistinct schema root.name [] path = .ok ⟨⟨root.name, j, [], .distinct c⟩, [place.field.kind]⟩ ∧
      Along schema root j walks ∧ c.At walks place := by
  obtain ⟨table, j, ran⟩ := columnAt_of_resolve known resolved Joins.none
  obtain ⟨place', walks, resolved', _, numbers, at_, _⟩ := columnAt_eq_ok named known (Joins.numbers_none schema root) ran
  obtain rfl : place = place' := Except.ok.inj (resolved.symm.trans resolved')
  refine ⟨_, j.joins, walks, Results.bind_eq_ok_iff.2 ⟨root, known, ?_⟩, numbers.along, at_⟩
  refine Results.bind_eq_ok_iff.2 ⟨⟨⟨_, _, []⟩, j⟩, ?_, rfl⟩
  exact run_bind_eq_ok_iff.2 ⟨⟨_, _⟩, j, run_bind_eq_ok_iff.2 ⟨_, j, ran, rfl⟩, rfl⟩

/-- The statement for groups by the values at a path. -/
theorem compileGroups_eq_ok (named : schema.Named) (known : schema.entity root.name = .ok root)
    (resolved : schema.resolve root.name path = .ok place) {a : Aggregation} {other : ResolvedPath}
    (resolvedOther : schema.resolve root.name a.field = .ok other) :
    ∃ g c j walks, compileGroups schema root.name [] path a =
        .ok ⟨⟨root.name, j, [], .groups g a.method c⟩, [place.field.kind, .decimal]⟩ ∧
      Along schema root j walks ∧ g.At walks place ∧ c.At walks other := by
  obtain ⟨table, between, first⟩ := columnAt_of_resolve known resolved Joins.none
  obtain ⟨place', walks, resolved', _, numbers, atGroup, _⟩ := columnAt_eq_ok named known (Joins.numbers_none schema root) first
  obtain rfl : place = place' := Except.ok.inj (resolved.symm.trans resolved')
  obtain ⟨table', j, second⟩ := columnAt_of_resolve known resolvedOther between
  obtain ⟨other', more, resolvedOther', _, numbers', atTarget, _⟩ := columnAt_eq_ok named known numbers second
  obtain rfl : other = other' := Except.ok.inj (resolvedOther.symm.trans resolvedOther')
  refine ⟨_, _, j.joins, _, Results.bind_eq_ok_iff.2 ⟨root, known, ?_⟩, numbers'.along, atGroup.mono more, atTarget⟩
  refine Results.bind_eq_ok_iff.2 ⟨⟨⟨_, _, []⟩, j⟩, ?_, rfl⟩
  refine run_bind_eq_ok_iff.2 ⟨⟨_, _⟩, j, run_bind_eq_ok_iff.2 ⟨_, between, first, ?_⟩, rfl⟩
  exact run_bind_eq_ok_iff.2 ⟨_, j, second, rfl⟩

end Statements

/-! ## Counts of cells -/

/-- The count of the cells of rows as it is read. -/
theorem totalOf_count {target : Column} {rows : List Joined} (some_ : rows ≠ []) (few : rows.length < 2 ^ 63) :
    totalOf .count target rows = some (Float.ofNat (rows.filter fun row => !(row.cell target).isNull).length) := by
  let present := (rows.map fun row => row.cell target).filter fun c => !c.isNull
  have length : present.length = (rows.filter fun row => !(row.cell target).isNull).length := by
    unfold present
    rw [List.filter_map, List.length_map]
    rfl
  have bound : present.length < 2 ^ 63 := by
    rw [length]
    exact Nat.lt_of_le_of_lt (List.length_filter_le _ _) few
  unfold totalOf
  rw [if_neg (by simpa using some_)]
  show (decode .decimal (.integer (Int64.ofNat present.length))).toFloat? = _
  show some (Float.ofInt (Int64.ofNat present.length).toInt) = _
  rw [Int64.toInt_ofNat_of_lt bound, length]
  rfl

/-- A count does not depend on the order. -/
theorem compute?_count_of_perm {cells same : List Value} (perm : cells.Perm same) :
    Method.count.compute? cells = Method.count.compute? same :=
  congrArg (some ∘ Float.ofNat) (perm.filter _).length_eq

theorem mapM_yieldGroup_count (target : Column) (groups : List (Cell × List Joined)) :
    ∃ yielded, groups.mapM (yieldGroup .count target) = .ok yielded := by
  induction groups with
  | nil => exact ⟨[], rfl⟩
  | cons group rest ih =>
    obtain ⟨others, later⟩ := ih
    exact ⟨_, Results.mapM_cons_eq_ok_iff.2 ⟨_, others, rfl, later, rfl⟩⟩

/-! ## Values and groups -/

/-- The same is found under every key. -/
def SameGroups (groups found : Groups) : Prop :=
  ∀ key, groups.lookup key = found.lookup key

namespace Mirrors
variable {db : Database} {m : Memory} {root : Entity} {walks : List (List String)} {entity path : String} {place : ResolvedPath}
  {record : Record} {c : Column}

/-- A statement without tests goes over all records. -/
theorem exists_matching (mirrors : Mirrors db m) (rootKnown : m.schema.entity root.name = .ok root) {s : Select}
    (proper : s.Proper m.schema root walks) (bare : s.tests = []) (within : s.Within) :
    ∃ (first : StoredTable) (joins : List (StoredTable × Join)) (records : List Record),
      s.check db.store = .ok (first, joins) ∧ records.Perm (m.tableOf root.name).rows.toList ∧
      s.matching first joins = records.map fun record => ([] :: walks).map (viewOf db m root record) := by
  obtain ⟨first, joins, checked⟩ := mirrors.check_eq_ok rootKnown proper within
  obtain ⟨records, perm, matching⟩ := mirrors.matching_eq rootKnown proper.table (mirrors.schema ▸ proper.along) checked
  refine ⟨first, joins, records, checked, perm, ?_⟩
  rw [matching, bare, List.filter_eq_self.2]
  exact fun _ _ => rfl

/-- What is read of the row of a record in a column is the record's cell. -/
theorem value_viewOf (mirrors : Mirrors db m) (rootKnown : m.schema.entity root.name = .ok root)
    (member : record ∈ (m.tableOf root.name).rows.toList) (resolved : m.schema.resolve root.name path = .ok place)
    (at_ : c.At walks place) :
    Joined.value place.field.kind c (([] :: walks).map (viewOf db m root record)) = m.cellAt record place := by
  unfold Joined.value
  rw [mirrors.cell_viewOf rootKnown member resolved at_,
    decode_stored_of_keeps (mirrors.keeps_cellAt rootKnown member resolved)]

section Told
variable {records : List Record}

theorem isPlain_of_told (mirrors : Mirrors db m) (rootKnown : m.schema.entity root.name = .ok root)
    (inside : ∀ record ∈ records, record ∈ (m.tableOf root.name).rows.toList) (resolved : m.schema.resolve root.name path = .ok place)
    (at_ : c.At walks place) (told : place.field.kind.isTold) :
    ∀ row ∈ records.map fun record => ([] :: walks).map (viewOf db m root record), (Joined.cell row c).isPlain := by
  intro row member
  obtain ⟨record, among, rfl⟩ := List.mem_map.1 member
  have among := inside record among
  rw [mirrors.cell_viewOf rootKnown among resolved at_]
  refine isPlain_stored_of_keeps ?_ (mirrors.keeps_cellAt rootKnown among resolved)
  intro decimal
  rw [decimal] at told
  cases told

/-- Rows whose values have the same key have the same cell. -/
theorem cell_eq_of_told (mirrors : Mirrors db m) (rootKnown : m.schema.entity root.name = .ok root)
    (inside : ∀ record ∈ records, record ∈ (m.tableOf root.name).rows.toList) (resolved : m.schema.resolve root.name path = .ok place)
    (at_ : c.At walks place) (told : place.field.kind.isTold) :
    ∀ a ∈ records.map fun record => ([] :: walks).map (viewOf db m root record),
      ∀ b ∈ records.map fun record => ([] :: walks).map (viewOf db m root record),
        (Joined.value place.field.kind c a).key = (Joined.value place.field.kind c b).key → Joined.cell a c = Joined.cell b c := by
  intro a memberA b memberB same
  obtain ⟨r, insideR, rfl⟩ := List.mem_map.1 memberA
  obtain ⟨s, insideS, rfl⟩ := List.mem_map.1 memberB
  have insideR := inside r insideR
  have insideS := inside s insideS
  rw [mirrors.value_viewOf rootKnown insideR resolved at_, mirrors.value_viewOf rootKnown insideS resolved at_] at same
  have keptR := mirrors.keeps_cellAt rootKnown insideR resolved
  have keptS := mirrors.keeps_cellAt rootKnown insideS resolved
  rw [mirrors.cell_viewOf rootKnown insideR resolved at_, mirrors.cell_viewOf rootKnown insideS resolved at_,
    (Value.key_inj_of_keeps told keptR keptS).1 same]

end Told

/-- Both find the same different values. -/
theorem exists_distinctValues (mirrors : Mirrors db m) (rootKnown : m.schema.entity root.name = .ok root)
    (resolved : m.schema.resolve root.name path = .ok place) (told : place.field.kind.isTold)
    (within : db.Within (.distinct root.name [] path)) :
    ∃ values found, m.distinctValues root.name [] path = .ok values ∧ db.distinctValues root.name [] path = .ok found ∧
      values.Perm found := by
  obtain ⟨c, j, walks, compiles, along, at_⟩ := compileDistinct_eq_ok mirrors.relational.named rootKnown resolved
  have proper : (Select.mk root.name j [] (.distinct c)).Proper m.schema root walks :=
    ⟨rfl, along, List.forall_mem_singleton.2 (at_.reads rootKnown resolved), by simp, by simp, by simp [Output.width]⟩
  have limits : (Select.mk root.name j [] (.distinct c)).Within :=
    within _ (congrArg (fun r => r.toOption.map Compiled.select) (mirrors.schema ▸ compiles))
  obtain ⟨first, joins, records, checked, perm, matching⟩ := mirrors.exists_matching rootKnown proper rfl limits
  let rows : List Joined := records.map fun record => ([] :: walks).map (viewOf db m root record)
  have plain : ∀ row ∈ rows, (Joined.cell row c).isPlain := mirrors.isPlain_of_told rootKnown (fun _ => perm.mem_iff.1) resolved at_ told
  have database : db.distinctValues root.name [] path = .ok ((distinctCells c rows).map (decode place.field.kind)) := by
    have ran : (Select.mk root.name j [] (.distinct c)).run db.store = .ok ((distinctCells c rows).map fun cell => [cell]) := by
      unfold Select.run
      rw [Results.bind_of_ok checked]
      dsimp only
      rw [matching]
    unfold Database.distinctValues Database.query
    rw [mirrors.schema, Results.bind_of_ok compiles, ran]
    exact congrArg Except.ok (filterMap_head?_decode _ _)
  obtain ⟨values, memory, keys⟩ := Memory.distinctValues_of_matching resolved (Memory.matching_nil rootKnown)
  have read := (distinctCells_perm plain).map (decode place.field.kind)
  refine ⟨values, _, memory, database, ((List.perm_ext_iff_of_nodup ?_ ?_).2 fun v => ?_).trans read.symm⟩
  · refine List.Nodup.of_map Value.key ?_
    rw [keys]
    exact Parts.nodup_eraseDups _
  · refine (nodup_keysOf c rows).map_on fun a ha b hb same => ?_
    obtain ⟨r, inside, rfl⟩ := mem_keysOf.1 ha
    obtain ⟨s, among, rfl⟩ := mem_keysOf.1 hb
    exact mirrors.cell_eq_of_told rootKnown (fun _ => perm.mem_iff.1) resolved at_ told r inside s among (congrArg Value.key same)
  · constructor
    · intro member
      obtain ⟨place', resolved', record, inside, rfl⟩ := Memory.exists_of_mem_distinctValues memory member
      obtain rfl : place = place' := Except.ok.inj (resolved.symm.trans resolved')
      refine List.mem_map.2 ⟨_, mem_keysOf.2 ⟨_, List.mem_map_of_mem (perm.mem_iff.2 inside), rfl⟩, ?_⟩
      exact mirrors.value_viewOf rootKnown inside resolved at_
    · intro member
      obtain ⟨_, key, rfl⟩ := List.mem_map.1 member
      obtain ⟨_, inside, rfl⟩ := mem_keysOf.1 key
      obtain ⟨record, among, rfl⟩ := List.mem_map.1 inside
      have among := perm.mem_iff.1 among
      obtain ⟨value, found, same, other, amongOther, rfl⟩ := Memory.exists_key_of_distinctValues resolved
        (Memory.matching_nil rootKnown) memory among
      have keptOther := mirrors.keeps_cellAt rootKnown amongOther resolved
      rw [Value.key_inj_of_keeps told keptOther (mirrors.keeps_cellAt rootKnown among resolved)] at same
      rw [same, ← mirrors.value_viewOf rootKnown among resolved at_] at found
      exact found

/-- The rows with a key are those of the records with the key. -/
theorem withKey_viewOf (mirrors : Mirrors db m) (rootKnown : m.schema.entity root.name = .ok root) {records : List Record}
    (inside : ∀ record ∈ records, record ∈ (m.tableOf root.name).rows.toList)
    (resolved : m.schema.resolve root.name path = .ok place) (at_ : c.At walks place) (key : String) :
    withKey place.field.kind c (records.map fun record => ([] :: walks).map (viewOf db m root record)) key =
      (m.withKey place records key).map fun record => ([] :: walks).map (viewOf db m root record) := by
  unfold withKey Memory.withKey
  rw [List.filter_map]
  refine congrArg (List.map _) (List.filter_congr fun record member => decide_eq_decide.2 ?_)
  rw [mirrors.value_viewOf rootKnown (inside record member) resolved at_]

/-- The count of rows is that of the records' cells. -/
theorem totalOf_viewOf (mirrors : Mirrors db m) (rootKnown : m.schema.entity root.name = .ok root) {group : List Record}
    (inside : ∀ record ∈ group, record ∈ (m.tableOf root.name).rows.toList)
    (resolved : m.schema.resolve root.name path = .ok place) (at_ : c.At walks place) (some_ : group ≠ [])
    (few : group.length < 2 ^ 63) :
    totalOf .count c (group.map fun record => ([] :: walks).map (viewOf db m root record)) =
      Method.count.compute? (group.map fun record => m.cellAt record place) := by
  have present : ∀ record ∈ group, (Joined.cell (([] :: walks).map (viewOf db m root record)) c).isNull =
      (m.cellAt record place).isNull := by
    intro record member
    rw [mirrors.cell_viewOf rootKnown (inside record member) resolved at_]
    exact isNull_stored (mirrors.keeps_cellAt rootKnown (inside record member) resolved)
  rw [totalOf_count (by simpa using some_) (by simpa using few)]
  show _ = some (Float.ofNat (List.filter _ (List.map _ _)).length)
  rw [List.filter_map, List.length_map, List.filter_map, List.length_map]
  refine congrArg (fun records => some (Float.ofNat (List.length records))) (List.filter_congr fun record member => ?_)
  exact congrArg not (present record member)

/-- Both count the same records by the keys of the values at a path. -/
theorem exists_counts (mirrors : Mirrors db m) (rootKnown : m.schema.entity root.name = .ok root)
    (resolved : m.schema.resolve root.name path = .ok place) (told : place.field.kind.isTold) {field : String}
    {other : ResolvedPath} (resolvedOther : m.schema.resolve root.name field = .ok other)
    (few : (m.tableOf root.name).rows.size < 2 ^ 63) (within : db.Within (.group root.name [] path ⟨.count, field⟩)) :
    ∃ groups found, m.groupAggregate root.name [] path ⟨.count, field⟩ = .ok groups ∧
      db.groupAggregate root.name [] path ⟨.count, field⟩ = .ok found ∧ SameGroups groups found := by
  obtain ⟨g, c, j, walks, compiles, along, atGroup, atTarget⟩ :=
    compileGroups_eq_ok (a := ⟨.count, field⟩) mirrors.relational.named rootKnown resolved resolvedOther
  have reads : ∀ column ∈ [g, c], column.Reads m.schema root walks :=
    List.forall_mem_cons.2 ⟨atGroup.reads rootKnown resolved, List.forall_mem_singleton.2 (atTarget.reads rootKnown resolvedOther)⟩
  have proper : (Select.mk root.name j [] (.groups g .count c)).Proper m.schema root walks :=
    ⟨rfl, along, reads, by simp, by simp, by simp [Output.width]⟩
  have limits : (Select.mk root.name j [] (.groups g .count c)).Within :=
    within _ (congrArg (fun r => r.toOption.map Compiled.select) (mirrors.schema ▸ compiles))
  obtain ⟨first, joins, records, checked, perm, matching⟩ := mirrors.exists_matching rootKnown proper rfl limits
  let rows : List Joined := records.map fun record => ([] :: walks).map (viewOf db m root record)
  have plain : ∀ row ∈ rows, (Joined.cell row g).isPlain := mirrors.isPlain_of_told rootKnown (fun _ => perm.mem_iff.1) resolved atGroup told
  obtain ⟨yielded, counted⟩ := mapM_yieldGroup_count c (groupRows g rows)
  have database : db.groupAggregate root.name [] path ⟨.count, field⟩ =
      .ok (Database.keyedGroups (yielded.map fun cells => [place.field.kind, .decimal].zipWith decode cells)) := by
    have ran : (Select.mk root.name j [] (.groups g .count c)).run db.store = .ok yielded := by
      unfold Select.run
      rw [Results.bind_of_ok checked]
      dsimp only
      rw [matching]
      exact counted
    unfold Database.groupAggregate Database.query
    rw [mirrors.schema, Results.bind_of_ok compiles, ran]
    rfl
  have target : m.schema.resolve root.name (Aggregation.mk .count field).field = .ok other := resolvedOther
  obtain ⟨groups, memory, _, _, lookup⟩ := Memory.groupAggregate_of_matching resolved target (Memory.matching_nil rootKnown)
  refine ⟨groups, _, memory, database, fun key => ?_⟩
  have inside : ∀ record ∈ records, record ∈ (m.tableOf root.name).rows.toList := fun _ => perm.mem_iff.1
  have group : (m.withKey place records key).Perm (m.withKey place (m.tableOf root.name).rows.toList key) := perm.filter _
  rw [lookup, lookup_keyedGroups (ne_nil_of_mem_groupRows plain) counted,
    lookup_groupRows_of_told plain (mirrors.cell_eq_of_told rootKnown (fun _ => perm.mem_iff.1) resolved atGroup told),
    mirrors.withKey_viewOf rootKnown inside resolved atGroup]
  by_cases nobody : m.withKey place (m.tableOf root.name).rows.toList key = []
  · rw [nobody] at group
    rw [if_pos nobody, List.perm_nil.1 group]
    rfl
  · have some_ : m.withKey place records key ≠ [] := by
      intro empty
      rw [empty] at group
      exact nobody (List.nil_perm.1 group)
    have bound : (m.withKey place records key).length < 2 ^ 63 := by
      rw [group.length_eq]
      exact Nat.lt_of_le_of_lt (List.length_filter_le _ _) few
    have members : ∀ record ∈ m.withKey place records key, record ∈ (m.tableOf root.name).rows.toList :=
      fun record member => inside record (List.mem_filter.1 member).1
    rw [if_neg nobody, mirrors.totalOf_viewOf rootKnown members resolvedOther atTarget some_ bound]
    exact compute?_count_of_perm (group.symm.map fun record => m.cellAt record other)

/-- Both find the same different values, or both fail. -/
theorem distinctValues_both (mirrors : Mirrors db m)
    (told : ∀ place, m.schema.resolve entity path = .ok place → place.field.kind.isTold)
    (within : db.Within (.distinct entity [] path)) :
    Results.Both List.Perm (m.distinctValues entity [] path) (db.distinctValues entity [] path) := by
  have named := mirrors.relational.named
  cases resolved : m.schema.resolve entity path with
  | error e =>
    refine .of_error (Results.bind_of_error resolved) ?_
    unfold Database.distinctValues
    rw [mirrors.schema]
    exact Results.bind_of_error (compileDistinct_of_error resolved named)
  | ok place =>
    obtain ⟨root, rootKnown⟩ := Schema.exists_of_resolve resolved
    obtain rfl := named _ _ rootKnown
    obtain ⟨values, found, memory, database, perm⟩ := mirrors.exists_distinctValues rootKnown resolved (told place resolved) within
    exact .of_ok memory database perm

/-- Both count the same records by the keys of the values at a path, or both fail. -/
theorem counts_both (mirrors : Mirrors db m) {field : String}
    (told : ∀ place, m.schema.resolve entity path = .ok place → place.field.kind.isTold)
    (few : (m.tableOf entity).rows.size < 2 ^ 63) (within : db.Within (.group entity [] path ⟨.count, field⟩)) :
    Results.Both SameGroups (m.groupAggregate entity [] path ⟨.count, field⟩)
      (db.groupAggregate entity [] path ⟨.count, field⟩) := by
  have named := mirrors.relational.named
  have failure : ∀ {e}, (m.schema.resolve entity path >>= fun _ => m.schema.resolve entity field) = .error e →
      db.groupAggregate entity [] path ⟨.count, field⟩ = .error e := by
    intro e failed
    unfold Database.groupAggregate
    rw [mirrors.schema]
    exact Results.bind_of_error (compileGroups_of_error failed named)
  cases resolved : m.schema.resolve entity path with
  | error e => exact .of_error (Results.bind_of_error resolved) (failure (Results.bind_of_error resolved))
  | ok place =>
    cases resolvedOther : m.schema.resolve entity field with
    | error e =>
      refine .of_error ?_ (failure ((Results.bind_of_ok resolved).trans resolvedOther))
      exact (Results.bind_of_ok resolved).trans (Results.bind_of_error resolvedOther)
    | ok other =>
      obtain ⟨root, rootKnown⟩ := Schema.exists_of_resolve resolved
      obtain rfl := named _ _ rootKnown
      obtain ⟨groups, found, memory, database, same⟩ :=
        mirrors.exists_counts rootKnown resolved (told place resolved) resolvedOther few within
      exact .of_ok memory database same

end Mirrors
end Reporting.Sql
