import Reporting.Proofs.Report.BaseRows
import Reporting.Proofs.Report.Requery

/-!
Grouped reports. A row of a report over tables in memory has the cells that a plan without groups comes to when
it is restricted to what the row is for (`Report.cell_eq_requeried`).
-/

namespace Reporting
open Calendar

namespace ReportOptions
variable {o : ReportOptions} {s : Source} {now : DateTime} {report : Report} {w after : Workspace}

/-- What a report is put together from. -/
theorem build_eq_ok (built : o.build s now w = (.ok report, after)) :
    ∃ rows between, o.shape s.schema now = .ok report.shape ∧ BaseRow.ask o report.shape s w = (.ok rows, between) ∧
      Plan.build report.shape.columns report.shape.context report.shape.crosstab o.registry s between =
        (.ok report.plan, report.workspace) ∧ report.baseRows = o.limited rows ∧ report.options = o := by
  unfold build at built
  obtain ⟨shape, first, checked, rest⟩ := Session.bind_eq_ok built
  obtain ⟨rows, between, asked, rest⟩ := Session.bind_eq_ok rest
  obtain ⟨plan, held, planned, rest⟩ := Session.bind_eq_ok rest
  obtain ⟨shaped, rfl⟩ := Session.ofExcept_eq_ok checked
  cases rest
  exact ⟨rows, between, shaped, asked, planned, rfl, rfl⟩

/-- A report is there when its parts are. -/
theorem build_of_parts {shape : Shape} {rows : List BaseRow} {plan : Plan} {between : Workspace}
    (shaped : o.shape s.schema now = .ok shape) (asked : BaseRow.ask o shape s w = (.ok rows, between))
    (planned : Plan.build shape.columns shape.context shape.crosstab o.registry s between = (.ok plan, after)) :
    o.build s now w = (.ok ⟨o, shape, o.limited rows, plan, after⟩, after) := by
  have checked : Session.ofExcept (o.shape s.schema now) w = (.ok shape, w) := by
    rw [shaped, Session.run_ofExcept]
  unfold build
  rw [Session.bind_of_ok checked, Session.bind_of_ok asked, Session.bind_of_ok planned]
  rfl

theorem limited_subset {α : Type} (o : ReportOptions) (rows : List α) : o.limited rows ⊆ rows := by
  unfold limited
  split
  · exact List.take_subset ..
  · exact List.Subset.refl rows

end ReportOptions

namespace Report
variable {m : Memory} {o : ReportOptions} {now : DateTime} {report : Report} {w after : Workspace}

/-- Every column whose field and requirements split by group has in every row the cell that it has in a plan
without groups and with the row's restriction among the filters. A field that requires nothing has nothing on either
side in a row that none of its records belong to. -/
theorem cell_eq_requeried (built : o.build m.source now w = (.ok report, after))
    (integral : o.groupSets = [] → ∀ path, o.groupBy = some path → m.IntegralAt o.entity path)
    (reads : ∀ target, report.shape.relatedEntity = some target → m.ReadsIntegralKeys target report.shape.recordFields)
    (covers : ∀ c ∈ Column.computed report.shape.columns, o.registry.Covers c.computation)
    (names : ((Column.computed report.shape.columns).map ComputedColumn.name).Nodup) {base : BaseRow}
    (made : base ∈ report.baseRows) {c : ComputedColumn} (member : c ∈ Column.computed report.shape.columns)
    (splits : ∀ d, o.registry.Reaches c.computation d → d.preventGroupBy = false) (start : Workspace) :
    let restriction := base.restriction o m.schema report.shape
    ∃ plain held, Plan.build report.shape.columns (report.shape.context.narrow restriction) report.shape.crosstab
        o.registry m.source start = (.ok plain, held) ∧
      (∀ row, report.cell base row c.column =
        (plain.cell held c.column .all row).map fun v => if o.swapSign then v.negate else v) ∧
      (c.computation.requirements = [] →
        m.matching o.entity ((c.context report.shape.context report.shape.crosstab).filtersOf c.computation ++
          restriction) = .ok [] →
        ∀ row, plain.cell held c.column .all row = c.computation.resolve ⟨0, 0, [], o.dateField.isSome⟩ row) := by
  obtain ⟨rows, between, shaped, asked, planned, limited, options⟩ := ReportOptions.build_eq_ok built
  obtain ⟨scope, produced⟩ := ReportOptions.shape_produced shaped
  have families := ComputedColumn.families_of_produced produced covers
  have apart := ReportOptions.shape_apart shaped fun a ha b hb same => by
    rw [List.inj_on_of_nodup_map names ha hb same]
    exact ⟨rfl, rfl⟩
  obtain ⟨range, context⟩ := ReportOptions.shape_context shaped
  have among : base ∈ rows := o.limited_subset rows (limited ▸ made)
  have picks : m.Picks report.shape.context.entity report.shape.context.grouping base.group
      (base.restriction o m.schema report.shape) := by
    rw [context]
    exact BaseRow.ask_picks shaped asked integral reads among
  obtain ⟨plain, held, builtPlain, same⟩ := Plan.requeried families apart planned picks member splits start
  have source := Column.source_of_computation? (Column.mem_computed.1 member).2
  refine ⟨plain, held, builtPlain, fun row => ?_, fun alone blank row => ?_⟩
  · rw [same .all row]
    unfold cell
    rw [source, options]
  · rw [same .all row]
    have entity : report.shape.context.entity = o.entity := congrArg Context.entity context
    have dates : report.shape.context.dateField = o.dateField := congrArg Context.dateField context
    rw [← entity] at blank
    rw [← dates]
    exact Plan.cell_of_blank families apart planned picks member (splits _ .refl) alone blank row

end Report

/-! ## Sales of two years -/

namespace Sales

/-- Sales to clients; that to no client has none. -/
def schema : Schema :=
  .ofEntities [(((Entity.new "sale").withField ⟨"client", none, .integer, none⟩).withField
    ⟨"day", none, .date, none⟩).withField ⟨"value", none, .decimal, none⟩]

def sale (client : Value) (day : Date) (value : Float) : Record :=
  Keyed.ofList [("client", client), ("day", .date day), ("value", .float value)]

/-- A sale before the year 2024 to the first client, and within the year another one and one to no client. -/
def memory : Memory :=
  ((Memory.empty schema).insertAll "sale" [sale (.int 1) ⟨2023, 6, 1, by decide⟩ 30,
    sale (.int 1) ⟨2024, 3, 1, by decide⟩ 10, sale .null ⟨2024, 5, 1, by decide⟩ 10]).1

/-- The year 2024. -/
def year : Window := ⟨.atMidnight ⟨2024, 1, 1, by decide⟩, .atMidnight ⟨2025, 1, 1, by decide⟩⟩

/-- The balances of the clients and their shares. -/
def byClient : ReportOptions :=
  { entity := "sale", registry := .withDefaults, groupBy := some "client", dateField := some "day"
    start := some year.start, finish := some year.finish
    columns := [.named "client", .named "__balance__", .named "__percent_to_total_balance__"] }

def balance : ComputedColumn := ⟨.ofComputation Builtin.balance, Builtin.balance⟩
def share : ComputedColumn := ⟨.ofComputation Builtin.percentToTotalBalance, Builtin.percentToTotalBalance⟩

def shape : Shape where
  range := year
  plainColumns := [.plain "client" "client" (.database "client") "integer", balance.column, share.column]
  display := [.column 0, .column 1, .column 2]
  timeSeriesColumns := []
  crosstabColumns := []
  crosstab := none
  context := byClient.context year
  relatedEntity := none

theorem shape_eq : byClient.shape schema year.start = .ok shape :=
  rfl

theorem computed_columns : Column.computed shape.columns = [balance, share] :=
  rfl

theorem mem_columns {c : ComputedColumn} : c ∈ Column.computed shape.columns ↔ c = balance ∨ c = share := by
  simp [computed_columns]

theorem builtin : ∀ c ∈ Column.computed shape.columns, c.computation ∈ Builtin.all := by
  intro c member
  rcases mem_columns.1 member with rfl | rfl
  · simp [balance, Builtin.all]
  · simp [share, Builtin.all]

theorem covers : ∀ c ∈ Column.computed shape.columns, Registry.withDefaults.Covers c.computation :=
  fun c member => Builtin.covers (builtin c member)

theorem told : ∀ a ∈ Column.computed shape.columns, ∀ b ∈ Column.computed shape.columns, a.name = b.name →
    a.column.window = b.column.window ∧ a.column.bucket = b.column.bucket := by
  intro a ha b hb _
  rcases mem_columns.1 ha with rfl | rfl <;> rcases mem_columns.1 hb with rfl | rfl <;> exact ⟨rfl, rfl⟩

theorem rows_asked : ∃ between,
    BaseRow.ask byClient shape memory.source .empty = (.ok [.ofCell "client" (.int 1), .ofCell "client" .null], between) :=
  ⟨_, rfl⟩

theorem integral : memory.IntegralAt "sale" "client" where
  cells place resolved := by
    cases resolved
    decide
  keys place target e resolved points := by
    cases resolved
    cases points

theorem families : ComputedColumn.Families .withDefaults (Column.computed shape.columns) := by
  obtain ⟨scope, produced⟩ := ReportOptions.shape_produced shape_eq
  exact ComputedColumn.families_of_produced produced covers

theorem built : ∃ report after, byClient.build memory.source year.start .empty = (.ok report, after) ∧
    report.shape = shape ∧ report.baseRows = [.ofCell "client" (.int 1), .ofCell "client" .null] := by
  obtain ⟨between, asked⟩ := rows_asked
  have listed : ∀ c ∈ Column.computed shape.columns, ∃ ds, Registry.withDefaults.dependencies c.computation = .ok ds := by
    intro c member
    rcases mem_columns.1 member with rfl | rfl
    · exact Registry.dependencies_of_unfolds (Builtin.unfolds_balanceTree List.not_mem_nil List.not_mem_nil)
    · exact Registry.dependencies_of_unfolds Builtin.unfolds_shareTree
  have answers : ∀ c ∈ Column.computed shape.columns, ∀ d, Registry.withDefaults.Reaches c.computation d →
      ∃ a, memory.source.aggregates
        (c.contextKey.context (Column.computed shape.columns) shape.context shape.crosstab) d = .ok a := by
    intro c member d reaches
    rcases mem_columns.1 member with rfl | rfl
    · rcases (Builtin.reaches_balance_iff d).1 reaches with rfl | rfl <;> exact ⟨_, rfl⟩
    · rcases (Builtin.reaches_percentToTotalBalance_iff d).1 reaches with rfl | rfl | rfl <;> exact ⟨_, rfl⟩
  obtain ⟨plan, after, planned⟩ := Plan.build_of_answers families listed answers between
  exact ⟨_, after, ReportOptions.build_of_parts shape_eq asked planned, rfl, rfl⟩

end Sales

/-! ## A client with a boss -/

namespace Flagged

def boss : Entity :=
  (Entity.new "boss").withField ⟨"flag", none, .boolean, none⟩

/-- Clients, each with a boss, by a primary key of the name. -/
def client (key : String) : Entity :=
  ((Entity.new "client").withPrimaryKey ⟨key, none, .integer, none⟩).withField ⟨"boss", none, .relation, some "boss"⟩

def sale : Entity :=
  ((Entity.new "sale").withField ⟨"client", none, .relation, some "client"⟩).withField ⟨"value", none, .decimal, none⟩

/-- The first client, whose boss has the flag, and a sale to it. -/
def memory (key : String) : Memory where
  schema := .ofEntities [boss, client key, sale]
  tables := Keyed.ofList [
    ("boss", Table.empty.insert "id" (Keyed.ofList [("id", .int 7), ("flag", .bool true)])),
    ("client", Table.empty.insert key (Keyed.ofList [(key, .int 1), ("boss", .int 7)])),
    ("sale", Table.empty.insert "id" (Keyed.ofList [("client", .int 1), ("value", .float 10)]))]

/-- What is added for the clients. -/
def byClient : ReportOptions :=
  { entity := "sale", registry := .withDefaults, groupBy := some "client", start := some Sales.year.start
    finish := some Sales.year.finish, columns := [.named "__debit__"] }

def debit : ComputedColumn := ⟨.ofComputation Builtin.debit, Builtin.debit⟩

def shape : Shape where
  range := Sales.year
  plainColumns := [debit.column]
  display := [.column 0]
  timeSeriesColumns := []
  crosstabColumns := []
  crosstab := none
  context := byClient.context Sales.year
  relatedEntity := some "client"

theorem computed_columns : Column.computed shape.columns = [debit] :=
  rfl

theorem eq_debit {c : ComputedColumn} (member : c ∈ Column.computed shape.columns) : c = debit :=
  List.mem_singleton.1 (computed_columns ▸ member)

theorem integral : ∀ key ∈ ["id", "boss__flag"], (memory key).IntegralAt "sale" "client" := by
  intro key member
  simp only [List.mem_cons, List.not_mem_nil, or_false] at member
  constructor
  · intro place resolved
    rcases member with rfl | rfl <;> cases resolved <;> decide
  · intro place target e resolved points known
    rcases member with rfl | rfl <;> cases resolved <;> cases points <;> cases known <;> decide

theorem readsIntegralKeys : (memory "id").ReadsIntegralKeys "client" shape.recordFields := by
  intro e places place known placed among row member
  cases known
  obtain rfl := Except.ok.inj ((Memory.resolve_of_mem_resolveFields placed among).symm.trans rfl)
  obtain rfl := List.mem_singleton.1 member
  rfl

theorem covers : ∀ c ∈ Column.computed shape.columns, Registry.withDefaults.Covers c.computation := by
  intro c member
  rw [eq_debit member]
  exact Builtin.covers (by simp [debit, Builtin.all])

theorem splits {d : Computation} (reaches : Registry.withDefaults.Reaches Builtin.debit d) : d.preventGroupBy = false := by
  rw [Registry.eq_of_reaches_of_alone rfl reaches]
  rfl

/-- What is shown is the debit of the groups. -/
theorem cells_of_aggregates {m : Memory} (shaped : byClient.shape m.schema Sales.year.start = .ok shape) {context : Context}
    {a : Aggregates} (answered : m.source.aggregates context Builtin.debit = .ok a) (w : Workspace) :
    ∃ plan after, Plan.build shape.columns context none .withDefaults m.source w = (.ok plan, after) ∧
      ∀ group row, plan.cell after debit.column group row = .ok (.float (a.debitOf group)) := by
  obtain ⟨scope, produced⟩ := ReportOptions.shape_produced shaped
  have families := ComputedColumn.families_of_produced produced covers
  obtain ⟨plan, after, built⟩ : ∃ plan after, Plan.build shape.columns context none .withDefaults m.source w =
      (.ok plan, after) := by
    refine Plan.build_of_alone families (fun c member => ?_) (fun c member => ?_) w
    · rw [eq_debit member]
      rfl
    · rw [eq_debit member]
      exact ⟨a, answered⟩
  have apart := ReportOptions.shape_apart shaped fun a ha b hb _ => by
    rw [eq_debit ha, eq_debit hb]
    exact ⟨rfl, rfl⟩
  obtain ⟨a', answered', cells⟩ := Plan.cell_of_alone families apart built
    (computed_columns ▸ List.mem_singleton_self debit) rfl
  obtain rfl : a = a' := Except.ok.inj (answered.symm.trans answered')
  exact ⟨plan, after, built, cells⟩

/-- The report is built, with the one row, when that can be asked for and has aggregates. -/
theorem built_of_asked {m : Memory} (shaped : byClient.shape m.schema Sales.year.start = .ok shape) {base : BaseRow}
    {between : Workspace} (asked : BaseRow.ask byClient shape m.source .empty = (.ok [base], between)) {a : Aggregates}
    (answered : m.source.aggregates shape.context Builtin.debit = .ok a) : ∃ report after,
      byClient.build m.source Sales.year.start .empty = (.ok report, after) ∧ report.shape = shape ∧
        report.baseRows = [base] ∧ ∀ row, report.cell base row debit.column = .ok (.float (a.debitOf base.group)) := by
  obtain ⟨plan, after, planned, cells⟩ := cells_of_aggregates shaped answered between
  refine ⟨_, after, ReportOptions.build_of_parts shaped asked planned, rfl, rfl, fun row => ?_⟩
  show (plan.cell after debit.column base.group row).map _ = _
  rw [cells]
  rfl

end Flagged

namespace Report

/-- In the rows of the first client and of no client alike, and in the row of a client that sales point to. -/
theorem clientBalance_eq_requeried :
    (∃ report after, Sales.byClient.build Sales.memory.source Sales.year.start .empty = (.ok report, after) ∧
      ∀ base ∈ report.baseRows, ∃ plain held,
        Plan.build report.shape.columns (report.shape.context.narrow (base.restriction Sales.byClient Sales.schema report.shape))
          report.shape.crosstab .withDefaults Sales.memory.source .empty = (.ok plain, held) ∧
        ∀ row, report.cell base row Sales.balance.column = plain.cell held Sales.balance.column .all row) ∧
    ∃ report after base plain held,
      Flagged.byClient.build (Flagged.memory "id").source Sales.year.start .empty = (.ok report, after) ∧
      report.baseRows = [base] ∧ base.group = .key "1" ∧
      Plan.build report.shape.columns (report.shape.context.narrow [.only "client" (.int 1)]) report.shape.crosstab
        .withDefaults (Flagged.memory "id").source .empty = (.ok plain, held) ∧
      ∀ row, report.cell base row Flagged.debit.column = .ok (.float 10) ∧
        plain.cell held Flagged.debit.column .all row = .ok (.float 10) := by
  constructor
  · obtain ⟨report, after, built, shape, rows⟩ := Sales.built
    refine ⟨report, after, built, fun base member => ?_⟩
    have splits : ∀ d, Registry.withDefaults.Reaches Sales.balance.computation d → d.preventGroupBy = false := by
      intro d reaches
      rcases (Builtin.reaches_balance_iff d).1 reaches with rfl | rfl <;> rfl
    obtain ⟨plain, held, planned, same, _⟩ := cell_eq_requeried built
      (fun _ path split => by cases split; exact Sales.integral) (by rw [shape]; exact fun _ related => by cases related)
      (by rw [shape]; exact Sales.covers) (by rw [shape, Sales.computed_columns]; decide) member
      (by rw [shape]; exact Sales.mem_columns.2 (Or.inl rfl)) splits .empty
    refine ⟨plain, held, planned, fun row => ?_⟩
    rw [same row]
    cases plain.cell held Sales.balance.column .all row <;> rfl
  · obtain ⟨base, between, asked, group, restriction⟩ : ∃ base between,
        BaseRow.ask Flagged.byClient Flagged.shape (Flagged.memory "id").source .empty = (.ok [base], between) ∧
          base.group = .key "1" ∧
          base.restriction Flagged.byClient (Flagged.memory "id").schema Flagged.shape = [.only "client" (.int 1)] :=
      ⟨_, _, rfl, rfl, rfl⟩
    obtain ⟨a, answered, debited⟩ : ∃ a, (Flagged.memory "id").source.aggregates Flagged.shape.context Builtin.debit = .ok a ∧
        a.debitOf (.key "1") = 10 := ⟨_, rfl, rfl⟩
    obtain ⟨report, after, built, shape, rows, cells⟩ := Flagged.built_of_asked rfl asked answered
    obtain ⟨plain, held, planned, same, _⟩ := cell_eq_requeried (c := Flagged.debit) built
      (fun _ path split => by cases split; exact Flagged.integral "id" (by simp))
      (by rw [shape]; intro target related; cases related; exact Flagged.readsIntegralKeys)
      (by rw [shape]; exact Flagged.covers) (by rw [shape, Flagged.computed_columns]; decide)
      (by rw [rows]; exact List.mem_singleton_self base)
      (by rw [shape, Flagged.computed_columns]; exact List.mem_singleton_self _) (fun _ reaches => Flagged.splits reaches) .empty
    rw [shape, restriction] at planned
    rw [group, debited] at cells
    refine ⟨report, after, base, plain, held, built, rows, group, by rw [shape]; exact planned, fun row => ⟨cells row, ?_⟩⟩
    rw [← cells row, same row]
    cases plain.cell held Flagged.debit.column .all row <;> rfl

/-- Where the primary key of clients is named like the path to the flag of their boss, the row of the client is for the
flag, not for its own key, and has nothing of the sale to it. Asked again for the one or the other, there is the sale. -/
theorem flaggedClient_apart : ∃ report after,
    Flagged.byClient.build (Flagged.memory "boss__flag").source Sales.year.start .empty = (.ok report, after) ∧
    (Flagged.memory "boss__flag").IntegralAt "sale" "client" ∧ Column.computed report.shape.columns = [Flagged.debit] ∧
    Registry.withDefaults.Covers Flagged.debit.computation ∧
    (∀ d, Registry.withDefaults.Reaches Flagged.debit.computation d → d.preventGroupBy = false) ∧
    ∃ base, report.baseRows = [base] ∧ base.group = .key "true" ∧
      base.restriction Flagged.byClient (Flagged.memory "boss__flag").schema report.shape = [.only "client" (.bool true)] ∧
      (∀ row, report.cell base row Flagged.debit.column = .ok (.float 0)) ∧
      ∀ v ∈ [.int 1, .bool true], ∃ plain held, Plan.build report.shape.columns
          (report.shape.context.narrow [.only "client" v]) report.shape.crosstab .withDefaults
            (Flagged.memory "boss__flag").source .empty = (.ok plain, held) ∧
        ∀ row, plain.cell held Flagged.debit.column .all row = .ok (.float 10) := by
  obtain ⟨base, between, asked, group, restriction⟩ : ∃ base between,
      BaseRow.ask Flagged.byClient Flagged.shape (Flagged.memory "boss__flag").source .empty = (.ok [base], between) ∧
        base.group = .key "true" ∧
        base.restriction Flagged.byClient (Flagged.memory "boss__flag").schema Flagged.shape =
          [.only "client" (.bool true)] := ⟨_, _, rfl, rfl, rfl⟩
  obtain ⟨a, answered, debited⟩ : ∃ a, (Flagged.memory "boss__flag").source.aggregates Flagged.shape.context Builtin.debit =
      .ok a ∧ a.debitOf (.key "true") = 0 := ⟨_, rfl, rfl⟩
  obtain ⟨report, after, built, shape, rows, cells⟩ := Flagged.built_of_asked rfl asked answered
  rw [group, debited] at cells
  refine ⟨report, after, built, Flagged.integral "boss__flag" (by simp), by rw [shape]; exact Flagged.computed_columns,
    Flagged.covers _ (Flagged.computed_columns ▸ List.mem_singleton_self _), fun _ reaches => Flagged.splits reaches,
    base, rows, group, by rw [shape]; exact restriction, cells, fun v either => ?_⟩
  rw [shape]
  obtain ⟨a, answered, debited⟩ : ∃ a, (Flagged.memory "boss__flag").source.aggregates
      (Flagged.shape.context.narrow [.only "client" v]) Builtin.debit = .ok a ∧ a.debitOf .all = 10 := by
    simp only [List.mem_cons, List.not_mem_nil, or_false] at either
    rcases either with rfl | rfl <;> exact ⟨_, rfl, rfl⟩
  obtain ⟨plain, held, planned, cells⟩ := Flagged.cells_of_aggregates rfl answered .empty
  exact ⟨plain, held, planned, fun row => by rw [cells, debited]⟩

end Report
end Reporting
