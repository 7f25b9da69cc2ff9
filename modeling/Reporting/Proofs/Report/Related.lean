import Reporting.Proofs.Csv
import Reporting.Proofs.Report.Partition

/-!
Reports grouped by a relation. There is a row for every related row that a record points to
(`BaseRow.exists_of_askRelated`). Of tables that are loaded from delimited text, a relation reaches the rows whose primary
key is read of the same text, and a report by the relation has the record in that row (`Csv.relations_reach_keys`).
-/

namespace Reporting
open Calendar

namespace BaseRow
variable {m : Memory} {o : ReportOptions} {shape : Shape} {rows : List BaseRow} {w w' : Workspace} {path target : String}
  {e : Entity}

/-- Which related rows are asked for: if empty ones are shown those that the filters name, else those that cells name. -/
theorem askRelated_names (asked : askRelated o shape m.source path target w = (.ok rows, w')) :
    ∃ e ids records, m.schema.entity target = .ok e ∧ m.relatedRows target ids shape.recordFields = .ok records ∧
      rows = records.map (ofRelated e.primaryKey) ∧
      (o.showEmpty = true ∧ ids = FilterSet.pinned? o.filters path ∨ o.showEmpty = false ∧
        ∃ cells, m.distinctValues o.entity shape.rowFilters path = .ok cells ∧
          ids = some (cells.filter fun v => !v.isNull)) := by
  unfold askRelated at asked
  obtain ⟨e, _, known, asked⟩ := Session.bind_eq_ok asked
  have known : m.schema.entity target = .ok e := Results.eq_ok_of_mapError (Session.ofExcept_eq_ok known).1
  dsimp only at asked
  split at asked
  · rename_i shown
    obtain ⟨ids, _, named, asked⟩ := Session.bind_eq_ok asked
    obtain ⟨records, after, answered, asked⟩ := Session.bind_eq_ok asked
    cases asked
    cases named
    exact ⟨e, _, records, known, Session.ask_eq_ok answered, rfl, Or.inl ⟨shown, rfl⟩⟩
  · rename_i hidden
    obtain ⟨cells, _, found, asked⟩ := Session.bind_eq_ok asked
    obtain ⟨ids, _, named, asked⟩ := Session.bind_eq_ok asked
    obtain ⟨records, after, answered, asked⟩ := Session.bind_eq_ok asked
    cases asked
    cases named
    have related : m.relatedRows target (some (cells.filter fun v => !v.isNull)) shape.recordFields = .ok records :=
      Session.ask_eq_ok answered
    exact ⟨e, _, records, known, related, rfl,
      Or.inr ⟨Bool.eq_false_iff.2 hidden, cells, Session.ask_eq_ok found, rfl⟩⟩

/-- All related rows are asked for if empty ones are shown and none are named, else those that cells name. -/
theorem askRelated_eq_ok (asked : askRelated o shape m.source path target w = (.ok rows, w'))
    (unnamed : o.showEmpty = true → FilterSet.pinned? o.filters path = none) :
    ∃ e ids records, m.schema.entity target = .ok e ∧ m.relatedRows target ids shape.recordFields = .ok records ∧
      rows = records.map (ofRelated e.primaryKey) ∧
      (o.showEmpty = true ∧ ids = none ∨ ∃ cells, m.distinctValues o.entity shape.rowFilters path = .ok cells ∧
        ids = some (cells.filter fun v => !v.isNull)) := by
  obtain ⟨e, ids, records, known, answered, made, which⟩ := askRelated_names asked
  refine ⟨e, ids, records, known, answered, made, which.imp (fun ⟨shown, named⟩ => ?_) And.right⟩
  exact ⟨shown, named.trans (unnamed shown)⟩

/-- A related row that a record points to has a row of its key, unless the key is that of missing cells and such a cell
comes before. -/
theorem exists_of_askRelated (asked : askRelated o shape m.source path target w = (.ok rows, w'))
    (unnamed : o.showEmpty = true → FilterSet.pinned? o.filters path = none) (known : m.schema.entity target = .ok e)
    {k : Field} (named : k.name = e.primaryKey) (own : m.schema.resolve target e.primaryKey = .ok ⟨target, target, k, []⟩)
    {place : ResolvedPath} (resolved : m.schema.resolve o.entity path = .ok place) {records : List Record}
    (matched : m.matching o.entity shape.rowFilters = .ok records) {record row : Record} (member : record ∈ records)
    (inside : row ∈ (m.tableOf target).rows.toList) (present : row.cell e.primaryKey ≠ .null)
    (same : (m.cellAt record place).key = (row.cell e.primaryKey).key)
    (held : (row.cell e.primaryKey).key = Value.null.key → ∀ other ∈ records, m.cellAt other place ≠ .null) :
    ∃ base ∈ rows, base.group = .key (row.cell e.primaryKey).key ∧ base.record.cell e.primaryKey = row.cell e.primaryKey := by
  obtain ⟨e', ids, found, known', answered, rfl, which⟩ := askRelated_eq_ok asked unnamed
  obtain rfl : e = e' := Except.ok.inj (known.symm.trans known')
  obtain ⟨e', places, known', placed, perm⟩ := Memory.relatedRows_eq_ok answered
  obtain rfl : e = e' := Except.ok.inj (known.symm.trans known')
  have cell : row.get? e.primaryKey = some (row.cell e.primaryKey) := Record.get?_of_cell rfl present
  have wanted : Memory.wants e.primaryKey ids row = true := by
    rcases which with ⟨_, rfl⟩ | ⟨cells, distinct, rfl⟩
    · rfl
    · obtain ⟨v, among, key, other, here, cellAt⟩ := Memory.exists_key_of_distinctValues resolved matched distinct member
      have some_ : v ≠ .null := by
        rintro rfl
        exact held (same ▸ key.symm) other here cellAt
      unfold Memory.wants
      rw [cell]
      refine List.any_eq_true.2 ⟨v, List.mem_filter.2 ⟨among, ?_⟩, ?_⟩
      · cases v <;> first | rfl | exact absurd rfl some_
      · rw [key, same]
        exact beq_self_eq_true _
  have projected := Memory.get?_projectRelated named own placed row
  refine ⟨ofRelated e.primaryKey (m.projectRelated e.primaryKey places row), ?_, ?_, ?_⟩
  · refine List.mem_map_of_mem (perm.mem_iff.2 ?_)
    exact List.mem_map_of_mem (List.mem_filter.2 ⟨inside, wanted⟩)
  · simp [ofRelated, projected]
  · simp [ofRelated, Record.cell, projected]

end BaseRow

namespace ReportOptions
variable {m : Memory} {o : ReportOptions} {now : DateTime} {report : Report} {w after : Workspace} {path : String}
  {place : ResolvedPath} {target : String}

/-- The rows of a report by a path to a relation are for the related rows, as many as the limit allows. -/
theorem askRelated_of_limited (built : o.build m.source now w = (.ok report, after)) (whole : o.groupSets = [])
    (split : o.groupBy = some path) (resolved : m.schema.resolve o.entity path = .ok place)
    (relation : place.isRelation) (points : place.target? = some target) :
    ∃ rows start between, BaseRow.askRelated o report.shape m.source path target start = (.ok rows, between) ∧
      report.baseRows = o.limited rows := by
  obtain ⟨rows, between, shaped, asked, _, limited, _⟩ := build_eq_ok built
  obtain ⟨_, _, parts⟩ := shape_eq_ok shaped
  obtain ⟨place', resolved', rfl⟩ := groupPath_eq_ok split parts.led
  obtain rfl : place = place' := Except.ok.inj (resolved.symm.trans resolved')
  have related : report.shape.relatedEntity = some target := by
    rw [parts.relatedEntity]
    simp [relatedEntity, whole, relation, points]
  unfold BaseRow.ask at asked
  rw [if_neg (by simp [whole]), split, related] at asked
  exact ⟨rows, w, between, asked, limited⟩

theorem askRelated_of_build (built : o.build m.source now w = (.ok report, after)) (whole : o.groupSets = [])
    (split : o.groupBy = some path) (unlimited : o.limit = none) (resolved : m.schema.resolve o.entity path = .ok place)
    (relation : place.isRelation) (points : place.target? = some target) :
    ∃ start between, BaseRow.askRelated o report.shape m.source path target start = (.ok report.baseRows, between) := by
  obtain ⟨rows, start, between, asked, limited⟩ := askRelated_of_limited built whole split resolved relation points
  have rows_ : report.baseRows = rows := by
    rw [limited]
    simp [ReportOptions.limited, unlimited]
  rw [rows_]
  exact ⟨start, between, asked⟩

end ReportOptions

namespace Csv

/-- Two of the entities that are loaded: a relation of the one points to the other, whose primary key is the field. -/
structure Relates (schema : Schema) (file? : String → Option (Except String (List UInt8))) (e t : Entity) (f k : Field)
    (bytes bytes' : List UInt8) : Prop where
  known : schema.entity e.name = .ok e
  target_known : schema.entity t.name = .ok t
  relation : f.kind = .relation
  points : f.target = some t.name
  primary : k.name = t.primaryKey
  file : file? (fileName e.name) = some (.ok bytes)
  target_file : file? (fileName t.name) = some (.ok bytes')

/-- The relation leads from the record to a loaded row of the key: to this one, if no other has the key. -/
structure Reaches (m : Memory) (t : Entity) (f : Field) (w v : Value) (record row : Record) : Prop where
  refers : record.cell f.name = w
  keyed : row.cell t.primaryKey = v
  found : ∃ found ∈ (m.tableOf t.name).rows.toList, m.related? f w = some found ∧ (found.cell t.primaryKey).key = v.key ∧
    ((∀ other ∈ (m.tableOf t.name).rows.toList, (other.cell t.primaryKey).key = v.key → other = row) → found = row)

/-- The report is by the relation, whose target is told by its own primary key, and lists all rows. -/
structure ByRelation (schema : Schema) (e t : Entity) (f k : Field) (o : ReportOptions) (path : String)
    (place : ResolvedPath) : Prop where
  entity : o.entity = e.name
  whole : o.groupSets = []
  split : o.groupBy = some path
  unlimited : o.limit = none
  unpinned : o.showEmpty = true → FilterSet.pinned? o.filters path = none
  resolved : schema.resolve e.name path = .ok place
  direct : place.hops = []
  field : place.field = f
  own : schema.resolve t.name t.primaryKey = .ok ⟨t.name, t.name, k, []⟩

/-- The report has the row for the key, and the record is among those that plain columns are made of there. -/
structure InRow (report : Report) (m : Memory) (o : ReportOptions) (t : Entity) (place : ResolvedPath)
    (records : List Record) (v : Value) (record : Record) (base : BaseRow) : Prop where
  made : base ∈ report.baseRows
  group : base.group = .key v.key
  keyed : base.record.cell t.primaryKey = v
  counted : record ∈ m.withKey place records v.key
  takes : ∀ (c : ComputedColumn) target, c.Plain o → m.schema.resolve o.entity c.computation.field = .ok target →
    ∃ a, report.Takes m o place target records c a

theorem reaches_of_loadAll {delimiter : UInt8} {schema : Schema} {file? : String → Option (Except String (List UInt8))}
    {m : Memory} (loaded : loadAll delimiter schema file? = .ok m) (named : schema.Named) {e t : Entity} {f k : Field}
    {bytes bytes' : List UInt8} (relates : Relates schema file? e t f k bytes bytes') {cell : String} {v w : Value}
    (read : parseCell cell k.kind = .ok v) (present : v ≠ .null) (reads : parseCell cell .relation = .ok w)
    (some_ : w ≠ .null) (key : w.key = v.key) {record row : Record} (foreign : Entry delimiter bytes e f cell record)
    (own : Entry delimiter bytes' t k cell row) : Reaches m t f w v record row := by
  obtain ⟨rfl, indexed, members⟩ := loadAll_eq_ok named loaded
  have cellV : row.cell t.primaryKey = v := relates.primary ▸ own.cell_eq read
  have inside := members t bytes' k cell row relates.target_known relates.target_file own
  have isNull : ∀ {x : Value}, x ≠ .null → x.isNull = false := by
    intro x other
    cases x <;> first | rfl | exact absurd rfl other
  refine ⟨foreign.cell_eq (by rw [relates.relation, reads]), cellV, ?_⟩
  have bearing : Table.bears t.primaryKey w row = true := by
    simp [Table.bears, cellV, key, isNull present]
  obtain ⟨found, among, reached, has⟩ := (indexed t.name t relates.target_known).find?_isSome inside bearing
  have same : (found.cell t.primaryKey).key = v.key := by
    simp only [Table.bears, Bool.and_eq_true, beq_iff_eq] at has
    exact has.2.trans key
  refine ⟨found, among, ?_, same, fun alone => alone found among same⟩
  unfold Memory.related?
  rw [isNull some_, relates.points]
  exact reached

/-- A relation reads a text as a cell of the key that an integer has, and that a text has just if it is not written like
another integer than it reads as. With that key, following the relation from a loaded record finds a loaded row of the
key, the one that is read of the same text if no other has its key, and a report by the relation has the record among
those of the row for the key. -/
theorem relations_reach_keys {cell : String} {k : Field} {v : Value} (kind : k.kind = .integer ∨ k.kind = .text)
    (read : parseCell cell k.kind = .ok v) (present : v ≠ .null) :
    ∃ w, parseCell cell .relation = .ok w ∧ (w.key = v.key ↔ k.kind = .integer ∨ Canonical cell) ∧ (w.key = v.key →
      ∀ {delimiter schema file? m}, loadAll delimiter schema file? = .ok m → schema.Named →
      ∀ {e t : Entity} {f : Field} {bytes bytes'}, Relates schema file? e t f k bytes bytes' →
        ∀ record row, Entry delimiter bytes e f cell record → Entry delimiter bytes' t k cell row →
          Reaches m t f w v record row ∧
          ∀ (o : ReportOptions) now report start after path place records, o.build m.source now start = (.ok report, after) →
            ByRelation schema e t f k o path place →
            m.matching e.name report.shape.rowFilters = .ok records → record ∈ records →
            (v.key = Value.null.key → ∀ other ∈ records, other.cell f.name ≠ .null) →
            ∃ base, InRow report m o t place records v record base) := by
  obtain ⟨w, reads, some_, agrees⟩ := parseCell_relation kind read present
  refine ⟨w, reads, agrees, ?_⟩
  intro key delimiter schema file? m loaded named e t f bytes bytes' relates record row foreign own
  have reaches := reaches_of_loadAll loaded named relates read present reads some_ key foreign own
  refine ⟨reaches, ?_⟩
  obtain ⟨rfl, _, members⟩ := loadAll_eq_ok named loaded
  have inside := members t bytes' k cell row relates.target_known relates.target_file own
  intro o now report start after path place records built by_ matched member held
  have cells : ∀ other : Record, m.cellAt other place = other.cell f.name := by
    intro other
    unfold Memory.cellAt
    rw [by_.direct, by_.field]
    rfl
  have crosses : place.isRelation = true := by
    simp [ResolvedPath.isRelation, Field.isRelation, by_.field, relates.relation]
  have leads : place.target? = some t.name := by rw [ResolvedPath.target?, by_.field, relates.points]
  have same : (m.cellAt record place).key = v.key := by rw [cells, reaches.refers, key]
  have resolved := by_.resolved
  rw [← by_.entity] at resolved matched
  obtain ⟨begun, between, asked⟩ :=
    ReportOptions.askRelated_of_build built by_.whole by_.split by_.unlimited resolved crosses leads
  obtain ⟨base, made, group, cellBase⟩ := BaseRow.exists_of_askRelated asked by_.unpinned relates.target_known relates.primary
    by_.own resolved matched member inside (reaches.keyed ▸ present) (reaches.keyed ▸ same)
    (by rw [reaches.keyed]; exact fun none_ other among => cells other ▸ held none_ other among)
  rw [reaches.keyed] at group cellBase
  exact ⟨base, made, group, cellBase, List.mem_filter.2 ⟨member, decide_eq_true same⟩, fun c target plain reached =>
    Report.exists_takes built by_.whole by_.split resolved matched plain reached⟩

namespace Codes

def code : Field := ⟨"code", none, .text, none⟩
def client : Entity := (Entity.new "client").withPrimaryKey code
def reference : Field := ⟨"client", none, .relation, some "client"⟩
def sale : Entity := (Entity.new "sale").withField reference

def schema : Schema :=
  .ofEntities [client, sale]

def bytes (s : String) : List UInt8 :=
  s.toList.map fun c => c.toNat.toUInt8

/-- A client whose code is no number, and one whose code is a number with zeros in front. -/
def clients : List UInt8 := bytes "code\nC7\n007\n"

def sales : List UInt8 := bytes "id,client\n1,C7\n2,007\n"

def file? : String → Option (Except String (List UInt8))
  | "client.csv" => some (.ok clients)
  | "sale.csv" => some (.ok sales)
  | _ => none

theorem client_entry : ∃ row, Entry 44 clients client code "C7" row :=
  ⟨_, ⟨⟨_, _, _, _, _, [], 0, [], rfl, rfl, .head _, rfl, rfl, rfl, by simp, rfl⟩⟩⟩

theorem sale_entry : ∃ record, Entry 44 sales sale reference "C7" record :=
  ⟨_, ⟨⟨_, _, _, _, _, [(0, ⟨"id", none, .integer, none⟩)], 1, [], rfl, rfl, .head _, rfl, rfl, rfl, by simp, rfl⟩⟩⟩

theorem canonical : Canonical "C7" := by
  intro i read
  cases read

end Codes

/-- The sale of the code that is no number reaches its client, but a relation reads the other code as the number, whose
key is not the code. -/
theorem codes_reached : ∃ m, loadAll 44 Codes.schema Codes.file? = .ok m ∧
    (∃ found, m.related? Codes.reference (.text "C7") = some found ∧ (found.cell "code").key = "C7") ∧
    ∃ w, parseCell "007" .relation = .ok w ∧ w.key ≠ (Value.text "007").key := by
  obtain ⟨m, loaded⟩ : ∃ m, loadAll 44 Codes.schema Codes.file? = .ok m := ⟨_, rfl⟩
  obtain ⟨row, own⟩ := Codes.client_entry
  obtain ⟨record, foreign⟩ := Codes.sale_entry
  have knownSale : Codes.schema.entity Codes.sale.name = .ok Codes.sale := rfl
  have knownClient : Codes.schema.entity Codes.client.name = .ok Codes.client := rfl
  have fileSale : Codes.file? (fileName Codes.sale.name) = some (.ok Codes.sales) := rfl
  have fileClient : Codes.file? (fileName Codes.client.name) = some (.ok Codes.clients) := rfl
  obtain ⟨v, read, agrees, loads⟩ := relations_reach_keys (k := Codes.code) (Or.inr rfl) (rfl : parseCell "C7" _ = .ok (.text "C7"))
    (by decide)
  obtain ⟨⟨_, _, found, _, reached, key, _⟩, _⟩ := loads (agrees.2 (Or.inr Codes.canonical)) loaded
    (Schema.named_ofEntities _) ⟨knownSale, knownClient, rfl, rfl, rfl, fileSale, fileClient⟩ record row foreign own
  obtain rfl : Value.text "C7" = v := Except.ok.inj read
  obtain ⟨w, parsed, differs, _⟩ := relations_reach_keys (k := Codes.code) (Or.inr rfl)
    (rfl : parseCell "007" _ = .ok (.text "007")) (by decide)
  refine ⟨m, loaded, ⟨found, reached, key⟩, w, parsed, fun same => ?_⟩
  rcases differs.1 same with integer | written
  · cases integer
  · exact absurd (written 7 rfl) (by decide)

end Csv
end Reporting
