import Reporting.Proofs.Report.Partition
import Reporting.Proofs.Sql.Grouping

/-!
Reports from a database, grouped by the cells at a path. The rows of a report are for the different cells of the records,
and each record is aggregated under the key of its cell, unless some records have no cell there and others the text
that is the key of these (`Database.groups_partition`). Where a relation leads from a record to several rows, the record is
aggregated with each of them, as joins have it (`LeadsOnce`).
-/

namespace Reporting.Sql
variable {db : Database} {root : Entity}

/-- Every row that is grouped has one of the different cells at the path. -/
theorem Grouped.value_mem {filters : FilterSet} {path : String} {place : ResolvedPath} {a : Aggregation} {g : GroupBy}
    {groups : Groups} (grouped : Grouped db root filters path place a g groups)
    {others : List Joined} {walks : List (List String)} {column : Column} (selects : Selects db root filters walks others)
    (at_ : column.At walks place)
    (needed : ∀ walk, walk ∈ walks → Visits db.schema root path walk ∨ ∃ p ∈ filters, Visits db.schema root p.path walk)
    {row : Joined} (member : row ∈ g.rows) :
    ∃ other ∈ others, other.value place.field.kind column = row.value place.field.kind g.group := by
  obtain ⟨v, follows, passes, rfl⟩ := (grouped.selects.mem_iff row).1 member
  have restricted := follows.mono fun walk inside =>
    (grouped.mem_walks_iff walk).2 ((needed walk inside).imp_right Or.inr)
  refine ⟨_, (selects.mem_iff _).2 ⟨v, restricted, passes, rfl⟩, ?_⟩
  unfold Joined.value Joined.cell
  rw [at_.operand_eq, grouped.group_at.operand_eq]

/-- Some have no value, and others the text that is the key of these. -/
def Confused (values : List Value) : Prop :=
  .null ∈ values ∧ Value.noneText ∈ values

theorem nodup_keys_iff {kind : FieldKind} (discrete : kind.isDiscrete) {values : List Value} (distinct : values.Nodup)
    (holds : ∀ x ∈ values, kind.holds x) :
    (values.map fun x => GroupKey.key x.key).Nodup ↔ ¬ Confused values := by
  constructor
  · rintro once ⟨none_, text⟩
    have same := List.inj_on_of_nodup_map once none_ text (congrArg GroupKey.key (by decide))
    cases same
  · intro apart
    refine distinct.map_on fun x hx y hy same => ?_
    have keys : x.key = y.key := GroupKey.key.inj same
    refine ((Value.key_inj_of_holds discrete (holds x hx) (holds y hy)).1 keys).resolve_right ?_
    rintro (⟨rfl, rfl⟩ | ⟨rfl, rfl⟩)
    · exact apart ⟨hx, hy⟩
    · exact apart ⟨hy, hx⟩

/-- Where no row is mistaken for another, each group has the aggregate of all rows with its key. -/
def Grouped.Whole (kind : FieldKind) (method : Method) (g : GroupBy) (groups : Groups) : Prop :=
  ∀ key, groups.lookup key = totalOf method g.target (withKey kind g.group g.rows key)

/-- The rows of the report are for the different values of the database's records at the path, and have different keys
unless these are confused. -/
structure ForValues (db : Database) (report : Report) (entity path : String) (values : List Value) : Prop where
  found : db.distinctValues entity report.shape.rowFilters path = .ok values
  distinct : values.Nodup
  groups : report.baseRows.map BaseRow.group = values.map fun x => .key x.key
  apart_iff : (report.baseRows.map BaseRow.group).Nodup ↔ ¬ Confused values

/-- What a plain column of the report is read from: aggregates of rows with values that the report has rows for. Unless the
values are confused, each of them is for one row of the report and in the aggregate of its key; and so is each record of
which no walk leads on to two rows, as it has one row alone. -/
structure Parted (db : Database) (root : Entity) (report : Report) (path : String) (place : ResolvedPath)
    (values : List Value) (c : ComputedColumn) (g : GroupBy) (groups : Groups) : Prop where
  grouped : Grouped db root report.shape.rowFilters path place ⟨c.computation.method, c.computation.field⟩ g groups
  reads : report.Reads c ⟨.byKey groups, none⟩
  among : ∀ row ∈ g.rows, row.value place.field.kind g.group ∈ values
  once : ¬ Confused values → ∀ row ∈ g.rows,
    (report.baseRows.map BaseRow.group).count (.key (row.value place.field.kind g.group).key) = 1
  record_once : ¬ Confused values → ∀ record ∈ g.table.rows.toList, LeadsOnce db root g.walks g.table record →
    (∃ v : View, v.Follows db root g.walks ∧ v [] = (g.table, some record) ∧
      ∀ p ∈ report.shape.rowFilters, v.Passes db.schema root p) →
    ∃ row, g.fan record = [row] ∧
      (report.baseRows.map BaseRow.group).count (.key (row.value place.field.kind g.group).key) = 1
  whole : ¬ Confused values → Grouped.Whole place.field.kind c.computation.method g groups

/-- A group-by at a path to integers, texts, days or truth values has under each key the aggregate of the rows with the
key, unless some rows have no value and others the text that is the key of these: then it is the aggregate of the others
that stays. In a report that is grouped by such a path, the rows of the report are for the different values of the
records. They have different keys and part what a plain column aggregates, unless both a missing value and that text are
among them. A record has one of the rows that are grouped, unless it leads to several rows of a related table. -/
theorem Database.groups_partition (named : db.schema.Named) (typed : db.Typed) {entity path : String}
    (known : db.schema.entity entity = .ok root) {place : ResolvedPath} (resolved : db.schema.resolve entity path = .ok place)
    (discrete : place.field.kind.isDiscrete) :
    (∀ filters a groups, db.groupAggregate entity filters path a = .ok groups →
      ∃ g, Grouped db root filters path place a g groups ∧
        ((∀ x ∈ g.rows, ∀ y ∈ g.rows,
            ¬ (x.value place.field.kind g.group).Mistaken (y.value place.field.kind g.group)) →
          Grouped.Whole place.field.kind a.method g groups)) ∧
    ∀ (o : ReportOptions) now report w after, o.build db.source now w = (.ok report, after) → o.entity = entity →
      o.groupSets = [] → o.groupBy = some path → o.limit = none →
      ∃ values, ForValues db report entity path values ∧
        ∀ c ∈ Column.computed report.shape.columns, c.Plain o → report.Regular o.registry →
          ∃ g groups, Parted db root report path place values c g groups := by
  constructor
  · intro filters a groups answered
    obtain ⟨g, grouped⟩ := groupAggregate_eq_ok named typed known resolved discrete answered
    refine ⟨g, grouped, fun apart key => ?_⟩
    rw [grouped.lookup, grouped.holdKind.or_missing_eq discrete apart]
  · rintro o now report w after built rfl whole split unlimited
    have direct : place.isRelation = false := by
      unfold ResolvedPath.isRelation Field.isRelation
      cases kind : place.field.kind with
      | relation =>
        rw [kind] at discrete
        cases discrete
      | _ => rfl
    obtain ⟨values, found, baseRows⟩ := ReportOptions.cells_of_build built whole split unlimited resolved direct
    obtain ⟨others, column, walks, selects, at_, held, needed, distinct, mem_iff⟩ :=
      distinctValues_eq_ok named typed known resolved discrete found
    have holds : ∀ x ∈ values, place.field.kind.holds x := by
      intro x member
      obtain ⟨row, inside, rfl⟩ := (mem_iff x).1 member
      exact held.holds_value discrete inside
    have apart_iff : (report.baseRows.map BaseRow.group).Nodup ↔ ¬ Confused values := by
      rw [baseRows]
      exact nodup_keys_iff discrete distinct holds
    refine ⟨values, ⟨found, distinct, baseRows, apart_iff⟩, fun c member plain regular => ?_⟩
    obtain ⟨_, _, shaped, _⟩ := ReportOptions.build_eq_ok built
    obtain ⟨range, ranged⟩ := ReportOptions.shape_context shaped
    have byPath : o.grouping = .byPath path := by simp [ReportOptions.grouping, whole, split]
    obtain ⟨a, aggregated, reads⟩ := Report.exists_reads built regular member
    rw [plain.aggregates_eq ranged byPath] at aggregated
    obtain ⟨groups, answered, rfl⟩ := Results.map_eq_ok_iff.1 aggregated
    obtain ⟨g, grouped⟩ := groupAggregate_eq_ok named typed known resolved discrete answered
    have among : ∀ row ∈ g.rows, row.value place.field.kind g.group ∈ values := by
      intro row inside
      obtain ⟨other, there, same⟩ := grouped.value_mem selects at_ needed inside
      exact (mem_iff _).2 ⟨other, there, same⟩
    have once : ¬ Confused values → ∀ row ∈ g.rows,
        (report.baseRows.map BaseRow.group).count (.key (row.value place.field.kind g.group).key) = 1 := by
      intro apart row inside
      refine List.count_eq_one_of_mem (apart_iff.2 apart) ?_
      rw [baseRows]
      exact List.mem_map.2 ⟨_, among row inside, rfl⟩
    refine ⟨g, groups, grouped, reads, among, once, fun apart record member leads passing => ?_, fun apart key => ?_⟩
    · obtain ⟨v, follows, begun, passes⟩ := passing
      have inside := (grouped.fans.mem_iff record member _).2 ⟨v, follows, begun, passes, rfl⟩
      exact ⟨_, grouped.fans.alone record member leads _ inside,
        once apart _ (List.mem_flatMap.2 ⟨record, member, inside⟩)⟩
    · -- Rows that are mistaken for each other would put both values among those of the report's rows.
      refine (grouped.lookup key).trans (grouped.holdKind.or_missing_eq discrete (fun x hx y hy mistaken => apart ?_) _ _ key)
      have hx := among x hx
      have hy := among y hy
      rcases mistaken with ⟨first, second⟩ | ⟨first, second⟩
      · rw [first] at hx
        rw [second] at hy
        exact ⟨hx, hy⟩
      · rw [first] at hx
        rw [second] at hy
        exact ⟨hy, hx⟩

namespace Twins

/-- Clients by texts for keys. -/
def client : Entity :=
  (Entity.new "client").withPrimaryKey ⟨"code", none, .text, none⟩

/-- Two clients whose keys are one number. -/
def table : StoredTable :=
  { Store.tableOf client with rows := #[⟨1, [.text "7"]⟩, ⟨2, [.text "07"]⟩] }

/-- A sale to the client of the number is joined to both, and so in the groups of both. -/
example : (partners table "code" ⟨.integer 7, .ofKind .relation⟩).map StoredRow.number = [1, 2] := by decide

end Twins

namespace Flags

def entity : Entity :=
  ((Entity.new "sale").withField ⟨"flag", none, .text, none⟩).withField ⟨"value", none, .decimal, none⟩

def sale (id : Int64) (flag : Value) (x : Float) : StoredRow :=
  ⟨id.toInt, [.integer id, stored .text flag, stored .decimal (.float x)]⟩

/-- A sale of no flag, one of the flag that is the key of none, and one of another flag. -/
def sales : List StoredRow :=
  [sale 1 .null 1, sale 2 Value.noneText 2, sale 3 (.text "b") 4]

def table : StoredTable :=
  { Store.tableOf entity with rows := sales.toArray }

def database : Database :=
  ⟨.ofEntities [entity], [table]⟩

/-- The sales by flag. -/
def byFlag : ReportOptions :=
  { entity := "sale", registry := .withDefaults, groupBy := some "flag", start := some Sales.year.start
    finish := some Sales.year.finish, columns := [.named "flag", .named "__debit__"] }

def debit : ComputedColumn :=
  ⟨.ofComputation Builtin.debit, Builtin.debit⟩

def shape : Shape where
  range := Sales.year
  plainColumns := [.plain "flag" "flag" (.database "flag") "text", debit.column]
  display := [.column 0, .column 1]
  timeSeriesColumns := []
  crosstabColumns := []
  crosstab := none
  context := byFlag.context Sales.year
  relatedEntity := none

theorem computed_columns : Column.computed shape.columns = [debit] :=
  rfl

theorem covers : ∀ c ∈ Column.computed shape.columns, Registry.withDefaults.Covers c.computation := by
  intro c member
  rw [computed_columns, List.mem_singleton] at member
  rw [member]
  exact Builtin.covers (by simp [debit, Builtin.all])

theorem typed : database.Typed := by
  intro name e t known found row member f field
  obtain ⟨rfl, rfl⟩ : name = "sale" ∧ e = entity := by
    rcases Keyed.get?_insert_cases (Schema.entity_eq_ok_iff.1 known) with same | none_
    · exact same
    · cases none_
  obtain rfl : table = t := Option.some.inj found
  obtain ⟨id, flag, x, rfl, holds⟩ : ∃ id flag x, row = sale id flag x ∧ FieldKind.text.holds flag := by
    simp only [table, sales, List.mem_cons, List.not_mem_nil, or_false] at member
    rcases member with rfl | rfl | rfl <;> exact ⟨_, _, _, rfl, rfl⟩
  have fields : f ∈ [⟨"id", none, .integer, none⟩, ⟨"flag", none, .text, none⟩, ⟨"value", none, .decimal, none⟩] := field
  simp only [List.mem_cons, List.not_mem_nil, or_false] at fields
  rcases fields with rfl | rfl | rfl
  · exact ⟨.int id, rfl, rfl⟩
  · exact ⟨flag, holds, rfl⟩
  · exact ⟨.float x, rfl, rfl⟩

def entry (row : StoredRow) : Joined :=
  [(table, some row)]

theorem groups_eq : groupRows ⟨0, "flag"⟩ (sales.map entry) = [(.null, [entry (sale 1 .null 1)]),
    (.text "None", [entry (sale 2 Value.noneText 2)]), (.text "b", [entry (sale 3 (.text "b") 4)])] := by
  unfold groupRows sortRows
  rw [List.mergeSort_of_pairwise (by decide)]
  rfl

theorem distinct_eq : database.distinctValues "sale" [] "flag" = .ok [.null, Value.noneText, .text "b"] := by
  have cells : distinctCells ⟨0, "flag"⟩ (sales.map entry) = [.null, .text "None", .text "b"] := by
    unfold distinctCells
    rw [groups_eq]
    dsimp only [List.map]
    rw [List.mergeSort_of_pairwise (by decide)]
    rfl
  show Except.map _ (Except.map _ (.ok ((distinctCells ⟨0, "flag"⟩ (sales.map entry)).map fun cell => [cell]))) = _
  rw [cells]
  rfl

set_option maxRecDepth 20000 in
theorem grouped : database.groupAggregate "sale" [] "flag" ⟨.sum, "value"⟩ =
    .ok (Database.keyedGroups [[.null, .float 1], [Value.noneText, .float 2], [.text "b", .float 4]]) := by
  show Except.map _ (Except.map _ ((groupRows ⟨0, "flag"⟩ (sales.map entry)).mapM (yieldGroup .sum ⟨0, "value"⟩))) = _
  rw [groups_eq]
  rfl

theorem built : ∃ report after, byFlag.build database.source Sales.year.start .empty = (.ok report, after) ∧
    report.shape = shape ∧ report.baseRows.map BaseRow.group = [.key "None", .key "None", .key "b"] := by
  have shaped : byFlag.shape database.source.schema Sales.year.start = .ok shape := rfl
  obtain ⟨between, asked⟩ : ∃ between, BaseRow.ask byFlag shape database.source .empty = (.ok _, between) :=
    BaseRow.ask_of_distinct rfl rfl rfl distinct_eq .empty
  obtain ⟨scope, produced⟩ := ReportOptions.shape_produced shaped
  have families := ComputedColumn.families_of_produced produced covers
  obtain ⟨plan, after, planned⟩ : ∃ plan after, Plan.build shape.columns shape.context shape.crosstab .withDefaults
      database.source between = (.ok plan, after) := by
    refine Plan.build_of_alone families (fun c member => ?_) (fun c member => ?_) between
    · rw [computed_columns, List.mem_singleton] at member
      rw [member]
      rfl
    · rw [computed_columns, List.mem_singleton] at member
      subst member
      exact ⟨_, Results.map_eq_ok_iff.2 ⟨_, Results.map_eq_ok_iff.2 ⟨_, grouped, rfl⟩, rfl⟩⟩
  exact ⟨_, after, ReportOptions.build_of_parts shaped asked planned, rfl, rfl⟩

end Flags

/-- Of the sales of no flag and of the flag that is the key of none, a report has a row each, and in both the value of
the latter. -/
theorem Database.unflagged_lost : ∃ report after a,
    Flags.byFlag.build Flags.database.source Sales.year.start .empty = (.ok report, after) ∧
      report.baseRows.map BaseRow.group = [.key "None", .key "None", .key "b"] ∧ report.Reads Flags.debit a ∧
      a.debitOf (.key "None") = 2 ∧ a.debitOf (.key "b") = 4 := by
  obtain ⟨report, after, built, shape, keys⟩ := Flags.built
  have named : Flags.database.schema.Named := Schema.named_ofEntities [Flags.entity]
  have known : Flags.database.schema.entity "sale" = .ok Flags.entity := rfl
  have resolved : Flags.database.schema.resolve "sale" "flag" = .ok ⟨"sale", "sale", ⟨"flag", none, .text, none⟩, []⟩ := rfl
  obtain ⟨_, reports⟩ := groups_partition named Flags.typed known resolved rfl
  obtain ⟨values, _, columns⟩ := reports _ _ _ _ _ built rfl rfl rfl rfl
  obtain ⟨g, groups, grouped, reads, _⟩ := columns Flags.debit (by rw [shape]; simp [Flags.computed_columns])
    ⟨rfl, rfl, rfl, rfl, rfl, ⟨rfl, rfl⟩, ⟨rfl, rfl⟩⟩
    ⟨by rw [shape]; exact Flags.covers, by rw [shape, Flags.computed_columns]; decide⟩
  obtain ⟨compiled, same, out, selected⟩ := grouped.selected
  rw [shape] at same
  obtain rfl := Except.ok.inj (same.symm.trans rfl)
  have rows : g.rows = Flags.sales.map Flags.entry := Except.ok.inj (selected.symm.trans rfl)
  obtain ⟨group, target⟩ : g.group = ⟨0, "flag"⟩ ∧ g.target = ⟨0, "value"⟩ := by
    injection out with group _ target
    exact ⟨group.symm, target.symm⟩
  have lookup := grouped.lookup
  rw [rows, group, target] at lookup
  have none_ : groups.lookup "None" = some 2 := (lookup "None").trans rfl
  have other : groups.lookup "b" = some 4 := (lookup "b").trans rfl
  refine ⟨report, after, _, built, keys, reads, ?_, ?_⟩
  · exact congrArg (fun x => x.getD 0) none_
  · exact congrArg (fun x => x.getD 0) other

end Reporting.Sql
