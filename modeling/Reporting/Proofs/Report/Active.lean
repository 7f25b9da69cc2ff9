import Reporting.Proofs.Computation.Share
import Reporting.Proofs.Report.Related

/-!
The rows of a report by a relation that lists no empty ones. They are for the related records that a record of the report
points to, each of them once, under the key of the group that has the aggregates of just the records that point to it
(`Report.active_once`). What is read of a related record is read along paths, so this takes that its primary key is
not read from elsewhere (`Memory.KeepsKey`): a name that reads as a path to another record detaches the row from its
group (`Report.bossKey_detached`).
-/

namespace Reporting
open Calendar

namespace Value

theorem isIntOrNull_int (i : Int64) : (int i).isIntOrNull :=
  rfl

end Value

namespace Memory
variable {m : Memory} {target : String} {fields : List String} {e : Entity}

/-- Where the primary key is among what is read of the related records, its path leads to the record's own cell. -/
def KeepsKey (m : Memory) (target : String) (fields : List String) : Prop :=
  ∀ e places place, m.schema.entity target = .ok e → m.resolveFields target fields = .ok places →
    (e.primaryKey, place) ∈ places → ∀ row ∈ (m.tableOf target).rows.toList, m.cellAt row place = row.cell e.primaryKey

/-- A primary key whose name is that of a field alone is read as it is. -/
theorem keepsKey_of_resolve (known : m.schema.entity target = .ok e) {place : ResolvedPath}
    (own : m.schema.resolve target e.primaryKey = .ok place) (direct : place.hops = [])
    (named : place.field.name = e.primaryKey) (fields : List String) : m.KeepsKey target fields := by
  intro e' places place' known' resolved member row _
  obtain rfl : e = e' := Except.ok.inj (known.symm.trans known')
  obtain rfl : place = place' := Except.ok.inj (own.symm.trans (resolve_of_mem_resolveFields resolved member))
  unfold cellAt
  rw [direct, ← named]
  rfl

/-- Of integers, a related record is asked for by its own key. -/
theorem wants_iff_mem {ids : List Value} (integral : ∀ v ∈ ids, v.isIntOrNull) {primaryKey : String} {row : Record} {i : Int64}
    (key : row.cell primaryKey = .int i) : wants primaryKey (some ids) row = true ↔ .int i ∈ ids := by
  unfold wants
  rw [Record.get?_of_cell key (by simp)]
  constructor
  · intro asked
    obtain ⟨v, among, same⟩ := List.any_eq_true.1 asked
    rwa [← (Value.key_inj (Value.isIntOrNull_int i) (integral v among)).1 (beq_iff_eq.1 same)]
  · exact fun among => List.any_eq_true.2 ⟨_, among, beq_self_eq_true _⟩

/-- A related record with an integer key is asked for just if a record points to it. -/
theorem wants_distinct_iff {entity path : String} {filters : FilterSet} {place : ResolvedPath} {records : List Record}
    {cells : List Value} (resolved : m.schema.resolve entity path = .ok place)
    (matched : m.matching entity filters = .ok records) (found : m.distinctValues entity filters path = .ok cells)
    (integral : ∀ record ∈ records, (m.cellAt record place).isIntOrNull) {primaryKey : String} {row : Record} {i : Int64}
    (key : row.cell primaryKey = .int i) :
    wants primaryKey (some (cells.filter fun v => !v.isNull)) row = true ↔
      ∃ record ∈ records, m.cellAt record place = row.cell primaryKey := by
  have source : ∀ v ∈ cells, ∃ record ∈ records, m.cellAt record place = v :=
    fun v inside => exists_of_mem_distinct resolved matched found inside
  have integers : ∀ v ∈ cells.filter fun v => !v.isNull, v.isIntOrNull := by
    intro v among
    obtain ⟨record, member, rfl⟩ := source v (List.mem_filter.1 among).1
    exact integral record member
  rw [wants_iff_mem integers key, key]
  constructor
  · exact fun among => source _ (List.mem_filter.1 among).1
  · rintro ⟨record, member, points⟩
    obtain ⟨cell, inside, same, other, among, rfl⟩ := exists_key_of_distinctValues resolved matched found member
    rw [points] at same
    have cell := (Value.key_inj (Value.isIntOrNull_int i) (integral other among)).1 same
    exact List.mem_filter.2 ⟨cell ▸ inside, rfl⟩

/-- The target records that one of the records points to, told by integers. -/
structure Pointed (m : Memory) (target primaryKey : String) (place : ResolvedPath) (records active : List Record) : Prop where
  mem_iff : ∀ row, row ∈ active ↔
    row ∈ (m.tableOf target).rows.toList ∧ ∃ record ∈ records, m.cellAt record place = row.cell primaryKey
  apart : (active.map fun row => row.cell primaryKey).Nodup
  ints : ∀ row ∈ active, ∃ i, row.cell primaryKey = .int i
  integral : ∀ record ∈ records, (m.cellAt record place).isIntOrNull

/-- Those that are asked for by the different values at a path. -/
theorem pointed_of_distinctValues {entity path primaryKey : String} {filters : FilterSet} {place : ResolvedPath}
    {records : List Record} {cells : List Value} (resolved : m.schema.resolve entity path = .ok place)
    (matched : m.matching entity filters = .ok records) (found : m.distinctValues entity filters path = .ok cells)
    (integral : ∀ record ∈ records, (m.cellAt record place).isIntOrNull)
    (keys : ((m.tableOf target).rows.toList.map fun row => row.cell primaryKey).Nodup)
    (ints : ∀ row ∈ (m.tableOf target).rows.toList, ∃ i, row.cell primaryKey = .int i) :
    m.Pointed target primaryKey place records (sortById primaryKey ((m.tableOf target).rows.toList.filter
      (wants primaryKey (some (cells.filter fun v => !v.isNull))))) := by
  have perm := sortById_perm primaryKey ((m.tableOf target).rows.toList.filter
    (wants primaryKey (some (cells.filter fun v => !v.isNull))))
  refine ⟨fun row => ?_, ((perm.map _).nodup_iff).2 (keys.sublist (List.filter_sublist.map _)), fun row member => ?_, integral⟩
  · rw [perm.mem_iff, List.mem_filter]
    refine and_congr_right fun inside => ?_
    obtain ⟨i, key⟩ := ints row inside
    exact wants_distinct_iff resolved matched found integral key
  · exact ints row (List.mem_filter.1 (perm.mem_iff.1 member)).1

namespace Pointed
variable {primaryKey : String} {place : ResolvedPath} {records active : List Record} {record row : Record}

theorem isIntOrNull (pointed : m.Pointed target primaryKey place records active) (member : row ∈ active) :
    (row.cell primaryKey).isIntOrNull := by
  obtain ⟨i, key⟩ := pointed.ints row member
  rw [key]
  rfl

/-- A record has the key of just the one it points to. -/
theorem key_eq_iff (pointed : m.Pointed target primaryKey place records active) (among : record ∈ records)
    (member : row ∈ active) :
    (m.cellAt record place).key = (row.cell primaryKey).key ↔ m.cellAt record place = row.cell primaryKey :=
  Value.key_inj (pointed.isIntOrNull member) (pointed.integral record among)

theorem nodup_groups (pointed : m.Pointed target primaryKey place records active) :
    (active.map fun row => GroupKey.key (row.cell primaryKey).key).Nodup := by
  refine List.pairwise_map.2 ((List.pairwise_map.1 pointed.apart).imp_of_mem fun {a b} memberA memberB differ same => differ ?_)
  exact (Value.key_inj (pointed.isIntOrNull memberB) (pointed.isIntOrNull memberA)).1 (GroupKey.key.inj same)

/-- The group of one has the aggregate of the records that point to it. -/
theorem lookup_groupAggregate (pointed : m.Pointed target primaryKey place records active) {entity path : String}
    {filters : FilterSet} (resolved : m.schema.resolve entity path = .ok place)
    (matched : m.matching entity filters = .ok records) (a : Aggregation) {reached : ResolvedPath}
    (leads : m.schema.resolve entity a.field = .ok reached) :
    ∃ groups, m.groupAggregate entity filters path a = .ok groups ∧ ∀ row ∈ active,
      groups.lookup (row.cell primaryKey).key = a.method.compute?
        ((records.filter fun record => m.cellAt record place = row.cell primaryKey).map fun record =>
          m.cellAt record reached) := by
  obtain ⟨groups, answered, _, _, lookup⟩ := groupAggregate_of_matching resolved leads matched
  refine ⟨groups, answered, fun row member => ?_⟩
  have counted : m.withKey place records (row.cell primaryKey).key =
      records.filter fun record => m.cellAt record place = row.cell primaryKey :=
    List.filter_congr fun record among => decide_eq_decide.2 (pointed.key_eq_iff among member)
  obtain ⟨_, record, among, points⟩ := (pointed.mem_iff row).1 member
  rw [lookup, counted, if_neg (List.ne_nil_of_mem (List.mem_filter.2 ⟨among, decide_eq_true points⟩))]

/-- A record that points to nothing has the key of none. -/
theorem not_mem_groups (pointed : m.Pointed target primaryKey place records active) (among : record ∈ records)
    (nowhere : m.cellAt record place = .null ∨
      ∀ row ∈ (m.tableOf target).rows.toList, row.cell primaryKey ≠ m.cellAt record place) :
    GroupKey.key (m.cellAt record place).key ∉ active.map fun row => GroupKey.key (row.cell primaryKey).key := by
  intro member
  obtain ⟨row, listed, same⟩ := List.mem_map.1 member
  have points := (pointed.key_eq_iff among listed).1 (GroupKey.key.inj same).symm
  rcases nowhere with none_ | dangling
  · obtain ⟨i, key⟩ := pointed.ints row listed
    rw [none_, key] at points
    cases points
  · exact dangling row ((pointed.mem_iff row).1 listed).1 points.symm

end Pointed
end Memory

namespace ReportOptions

/-- The records that the rows are made from pass the base filters, the range of dates, and the filters. -/
theorem rowFilters_eq {o : ReportOptions} {schema : Schema} {now : DateTime} {shape : Shape}
    (shaped : o.shape schema now = .ok shape) :
    shape.rowFilters = o.baseFilters ++ (o.dateField.map shape.range.filters).getD [] ++ o.filters := by
  obtain ⟨_, _, parts⟩ := shape_eq_ok shaped
  unfold Shape.rowFilters Context.dateFilters
  rw [parts.context]
  dsimp only [ReportOptions.context]
  cases o.dateField <;> rfl

end ReportOptions

namespace Report
variable {m : Memory} {o : ReportOptions} {now : DateTime} {report : Report} {w after : Workspace} {path target : String}
  {place : ResolvedPath} {e : Entity}

/-- A report by a relation, at a path of integers to records with different integers for primary keys, has a row for
each related record that a record of the report points to, and no other ones. Its group is that of the record's key, so
that aggregates by the path have for it the aggregate of just the records that point to it. Those that point to nothing
are in no row. -/
theorem active_once (built : o.build m.source now w = (.ok report, after)) (whole : o.groupSets = [])
    (split : o.groupBy = some path) (hidden : o.showEmpty = false) (unlimited : o.limit = none)
    (resolved : m.schema.resolve o.entity path = .ok place) (relation : place.isRelation)
    (points : place.target? = some target) (known : m.schema.entity target = .ok e)
    (keys : ((m.tableOf target).rows.toList.map fun row => row.cell e.primaryKey).Nodup)
    (ints : ∀ row ∈ (m.tableOf target).rows.toList, ∃ i, row.cell e.primaryKey = .int i)
    (integral : ∀ record ∈ (m.tableOf o.entity).rows.toList, (m.cellAt record place).isIntOrNull)
    (keeps : m.KeepsKey target report.shape.recordFields) :
    let filters := o.baseFilters ++ (o.dateField.map report.shape.range.filters).getD [] ++ o.filters
    ∃ (records : List Record) (places : List (String × ResolvedPath)) (active : List Record),
      m.matching o.entity filters = .ok records ∧
      m.resolveFields target report.shape.recordFields = .ok places ∧
      report.baseRows = active.map (fun row =>
        ⟨.key (row.cell e.primaryKey).key, m.projectRelated e.primaryKey places row⟩) ∧
      (∀ row, row ∈ active ↔ row ∈ (m.tableOf target).rows.toList ∧
        ∃ record ∈ records, m.cellAt record place = row.cell e.primaryKey) ∧
      active.Nodup ∧ (report.baseRows.map BaseRow.group).Nodup ∧
      (∀ method field reached, m.schema.resolve o.entity field = .ok reached →
        ∃ groups, m.groupAggregate o.entity filters path ⟨method, field⟩ = .ok groups ∧ ∀ row ∈ active,
          groups.lookup (row.cell e.primaryKey).key = method.compute?
            ((records.filter fun record => m.cellAt record place = row.cell e.primaryKey).map fun record =>
              m.cellAt record reached)) ∧
      ∀ record ∈ records, (m.cellAt record place = .null ∨
          ∀ row ∈ (m.tableOf target).rows.toList, row.cell e.primaryKey ≠ m.cellAt record place) →
        .key (m.cellAt record place).key ∉ report.baseRows.map BaseRow.group := by
  intro filters
  obtain ⟨_, _, shaped, _⟩ := ReportOptions.build_eq_ok built
  have filters_ : report.shape.rowFilters = filters := ReportOptions.rowFilters_eq shaped
  obtain ⟨_, _, asked⟩ := ReportOptions.askRelated_of_build built whole split unlimited resolved relation points
  obtain ⟨e', ids, found, known', answered, rows, which⟩ :=
    BaseRow.askRelated_eq_ok asked fun shown => by rw [hidden] at shown; cases shown
  obtain rfl : e = e' := Except.ok.inj (known.symm.trans known')
  obtain ⟨cells, distinct, rfl⟩ := which.resolve_left fun shown => by
    rw [hidden] at shown
    cases shown.1
  rw [filters_] at distinct
  obtain ⟨records, matched⟩ := Memory.matching_of_distinctValues distinct
  have inTable := Memory.mem_table_of_matching matched
  obtain ⟨e', places, known', placed, rfl⟩ := Memory.relatedRows_eq_ok_iff.1 answered
  obtain rfl : e = e' := Except.ok.inj (known.symm.trans known')
  have pointed := Memory.pointed_of_distinctValues resolved matched distinct
    (fun record member => integral record (inTable member)) keys ints
  generalize Memory.sortById e.primaryKey _ = active at pointed rows
  have made : report.baseRows = active.map (fun row =>
      ⟨.key (row.cell e.primaryKey).key, m.projectRelated e.primaryKey places row⟩) := by
    rw [rows, List.map_map]
    refine List.map_congr_left fun row member => ?_
    have inside := ((pointed.mem_iff row).1 member).1
    have key := Memory.get?_projectRelated_of_cell fun place among => keeps e places place known placed among row inside
    show BaseRow.mk (.key (((m.projectRelated e.primaryKey places row).get? e.primaryKey).map Value.key |>.getD "")) _ = _
    rw [key]
    rfl
  have groups : report.baseRows.map BaseRow.group = active.map fun row => .key (row.cell e.primaryKey).key := by
    rw [made, List.map_map]
    rfl
  refine ⟨records, places, active, matched, placed, made, pointed.mem_iff, pointed.apart.of_map, ?_, ?_, ?_⟩
  · rw [groups]
    exact pointed.nodup_groups
  · exact fun method field reached leads => pointed.lookup_groupAggregate resolved matched ⟨method, field⟩ leads
  · rw [groups]
    exact fun record among nowhere => pointed.not_mem_groups among nowhere

end Report

/-! ## Clients with bosses -/

namespace Bosses

/-- Clients, each with a boss, by a primary key of the name. -/
def client (key : String) : Entity :=
  ((Entity.new "client").withPrimaryKey ⟨key, none, .integer, none⟩).withField ⟨"boss", none, .relation, some "boss"⟩

def sale : Entity :=
  ((Entity.new "sale").withField ⟨"client", none, .relation, some "client"⟩).withField ⟨"value", none, .decimal, none⟩

def schema (key : String) : Schema :=
  .ofEntities [Entity.new "boss", client key, sale]

def first (key : String) : Record :=
  Keyed.ofList [(key, .int 1), ("boss", .int 7)]

def saleTo (client : Value) (value : Float) : Record :=
  Keyed.ofList [("client", client), ("value", .float value)]

/-- A sale to the first client, one to no client and one to a client that is not there. -/
def sales : List Record := [saleTo (.int 1) 10, saleTo .null 20, saleTo (.int 5) 30]

/-- The first client, whose boss is the seventh, and the sales. -/
def memory (key : String) : Memory where
  schema := schema key
  tables := Keyed.ofList [("boss", Table.empty.insert "id" (Keyed.ofList [("id", .int 7)])),
    ("client", Table.empty.insert key (first key)),
    ("sale", sales.foldl (fun t record => t.insert "id" record) Table.empty)]

/-- The movements of the clients, and nothing of their records. -/
def byClient : ReportOptions :=
  { entity := "sale", registry := .withDefaults, groupBy := some "client", start := some Sales.year.start
    finish := some Sales.year.finish, columns := [.named "__total__"] }

def total : ComputedColumn := ⟨.ofComputation Builtin.total, Builtin.total⟩

def shape : Shape where
  range := Sales.year
  plainColumns := [total.column]
  display := [.column 0]
  timeSeriesColumns := []
  crosstabColumns := []
  crosstab := none
  context := byClient.context Sales.year
  relatedEntity := some "client"

def place : ResolvedPath := ⟨"sale", "sale", ⟨"client", none, .relation, some "client"⟩, []⟩

theorem computed_columns : Column.computed shape.columns = [total] :=
  rfl

/-- The report is built when its rows can be asked for and its aggregates are there. -/
theorem built_of_asked {m : Memory} (shaped : byClient.shape m.schema Sales.year.start = .ok shape) {rows : List BaseRow}
    {between : Workspace} (asked : BaseRow.ask byClient shape m.source .empty = (.ok rows, between))
    (answered : ∀ d ∈ Builtin.totalTree.fields, ∃ a, m.source.aggregates (byClient.context Sales.year) d = .ok a) :
    ∃ report after, byClient.build m.source Sales.year.start .empty = (.ok report, after) ∧ report.shape = shape ∧
      report.baseRows = rows := by
  obtain ⟨scope, produced⟩ := ReportOptions.shape_produced shaped
  have single : ∀ c ∈ Column.computed shape.columns, c = total := fun c member =>
    List.mem_singleton.1 (computed_columns ▸ member)
  have covers : ∀ c ∈ Column.computed shape.columns, Registry.withDefaults.Covers c.computation := by
    intro c member
    rw [single c member]
    exact Builtin.covers (by simp [total, Builtin.all])
  have listed : ∀ c ∈ Column.computed shape.columns, ∃ ds, Registry.withDefaults.dependencies c.computation = .ok ds := by
    intro c member
    rw [single c member]
    exact Registry.dependencies_of_unfolds Builtin.unfolds_totalTree
  have answers : ∀ c ∈ Column.computed shape.columns, ∀ d, Registry.withDefaults.Reaches c.computation d →
      ∃ a, m.source.aggregates
        (c.contextKey.context (Column.computed shape.columns) shape.context shape.crosstab) d = .ok a := by
    intro c member d reaches
    rw [single c member] at reaches ⊢
    exact answered d (Builtin.unfolds_totalTree.mem_fields_iff.2 reaches)
  obtain ⟨plan, after, planned⟩ :=
    Plan.build_of_answers (ComputedColumn.families_of_produced produced covers) listed answers between
  exact ⟨_, after, ReportOptions.build_of_parts shaped asked planned, rfl, rfl⟩

theorem answers_totalTree {m : Memory} {a : Aggregates}
    (answered : m.source.aggregates (byClient.context Sales.year) Builtin.total = .ok a) :
    ∀ d ∈ Builtin.totalTree.fields, ∃ a, m.source.aggregates (byClient.context Sales.year) d = .ok a := by
  intro d member
  simp only [Builtin.totalTree, FieldTree.fields, FieldTree.fieldsOf, List.append_nil, List.cons_append, List.nil_append,
    List.mem_cons, List.not_mem_nil, or_false] at member
  rcases member with rfl | rfl | rfl <;> exact ⟨a, answered⟩

end Bosses

namespace Report

/-- Of clients by number, the first has a row, whose group has the sale to it; the other sales are in no row. -/
theorem clients_once : ∃ report after groups,
    Bosses.byClient.build (Bosses.memory "id").source Sales.year.start .empty = (.ok report, after) ∧
      (report.baseRows.map BaseRow.group).Nodup ∧ .key "1" ∈ report.baseRows.map BaseRow.group ∧
      (Bosses.memory "id").groupAggregate "sale" [] "client" ⟨.sum, "value"⟩ = .ok groups ∧
      groups.lookup "1" = some 10 ∧ .key "None" ∉ report.baseRows.map BaseRow.group ∧
      .key "5" ∉ report.baseRows.map BaseRow.group := by
  obtain ⟨between, asked⟩ : ∃ between, BaseRow.ask Bosses.byClient Bosses.shape (Bosses.memory "id").source .empty =
      (.ok [⟨.key "1", Keyed.ofList [("id", .int 1), ("boss", .int 7)]⟩], between) := ⟨_, rfl⟩
  obtain ⟨report, after, built, shape, _⟩ :=
    Bosses.built_of_asked (m := Bosses.memory "id") rfl asked (Bosses.answers_totalTree rfl)
  have resolved : (Bosses.memory "id").schema.resolve "sale" "client" = .ok Bosses.place := rfl
  obtain ⟨records, places, active, matched, _, rows, members, _, distinct, groups, nowhere⟩ :=
    active_once (e := Bosses.client "id") built rfl rfl rfl rfl resolved rfl rfl rfl (by decide)
      (by
        intro row member
        obtain rfl := List.mem_singleton.1 member
        exact ⟨1, rfl⟩)
      (by decide) (Memory.keepsKey_of_resolve rfl rfl rfl rfl _)
  obtain rfl : records = Bosses.sales := Except.ok.inj (matched.symm.trans rfl)
  have active_ : Bosses.first "id" ∈ active :=
    (members _).2 ⟨List.mem_singleton_self _, _, List.mem_cons_self .., rfl⟩
  obtain ⟨totals, answered, lookup⟩ := groups .sum "value" _ rfl
  refine ⟨report, after, totals, built, distinct, ?_, answered, (lookup _ active_).trans rfl, ?_, ?_⟩
  · rw [rows, List.map_map]
    exact List.mem_map.2 ⟨_, active_, rfl⟩
  · exact nowhere (Bosses.saleTo .null 20) (by simp [Bosses.sales]) (Or.inl rfl)
  · refine nowhere (Bosses.saleTo (.int 5) 30) (by simp [Bosses.sales]) (Or.inr fun row member => ?_)
    obtain rfl := List.mem_singleton.1 member
    exact nofun

/-- Where the primary key of clients is named like the path to their boss, the row of the first client is that of the
boss's number, and no row is that of the client's, to which there is a sale. -/
theorem bossKey_detached : ∃ report after groups,
    Bosses.byClient.build (Bosses.memory "boss__id").source Sales.year.start .empty = (.ok report, after) ∧
      (Bosses.memory "boss__id").schema.resolve "sale" "client" = .ok Bosses.place ∧
      ((Bosses.memory "boss__id").tableOf "client").rows.toList = [Bosses.first "boss__id"] ∧
      (Bosses.first "boss__id").cell (Bosses.client "boss__id").primaryKey = .int 1 ∧
      (∀ record ∈ ((Bosses.memory "boss__id").tableOf "sale").rows.toList,
        ((Bosses.memory "boss__id").cellAt record Bosses.place).isIntOrNull) ∧
      (Bosses.memory "boss__id").matching "sale" report.shape.rowFilters = .ok Bosses.sales ∧
      (Bosses.memory "boss__id").cellAt (Bosses.saleTo (.int 1) 10) Bosses.place = .int 1 ∧
      report.baseRows.map BaseRow.group = [.key "7"] ∧
      (Bosses.memory "boss__id").groupAggregate "sale" report.shape.rowFilters "client" ⟨.sum, "value"⟩ = .ok groups ∧
      groups.lookup "7" = none ∧ groups.lookup "1" = some 10 := by
  obtain ⟨row, between, asked, group⟩ : ∃ row between,
      BaseRow.ask Bosses.byClient Bosses.shape (Bosses.memory "boss__id").source .empty = (.ok [row], between) ∧
        row.group = .key "7" := ⟨_, _, rfl, rfl⟩
  obtain ⟨report, after, built, shape, rows⟩ :=
    Bosses.built_of_asked (m := Bosses.memory "boss__id") rfl asked (Bosses.answers_totalTree rfl)
  obtain ⟨groups, answered, boss, client⟩ : ∃ groups,
      (Bosses.memory "boss__id").groupAggregate "sale" [] "client" ⟨.sum, "value"⟩ = .ok groups ∧
        groups.lookup "7" = none ∧ groups.lookup "1" = some 10 := ⟨_, rfl, rfl, rfl⟩
  have unfiltered : report.shape.rowFilters = [] := by
    rw [shape]
    rfl
  rw [← unfiltered] at answered
  refine ⟨report, after, groups, built, rfl, rfl, rfl, by decide, ?_, rfl, ?_, answered, boss, client⟩
  · rw [unfiltered]
    rfl
  · rw [rows, List.map_singleton, group]

end Report
end Reporting
