import Reporting.Proofs.Sql.Counts
import Reporting.Proofs.Sql.Related

/-!
Tables in memory and a database that were given the same records. Whatever the orders in which the records were inserted,
the database mirrors the tables (`Loaded.mirrors`), and so both answer alike (`Loaded.sources_agree`).
-/

namespace Reporting

/-! ## Records that were inserted -/

/-- The records that are inserted into the table of the entity, in order. -/
def recordsOf (inserts : List (String × Record)) (entity : String) : List Record :=
  (inserts.filter fun i => i.1 = entity).map Prod.snd

section Inserts
variable {inserts more : List (String × Record)} {entity : String}

theorem recordsOf_append : recordsOf (inserts ++ more) entity = recordsOf inserts entity ++ recordsOf more entity := by
  unfold recordsOf
  rw [List.filter_append, List.map_append]

theorem recordsOf_perm (perm : inserts.Perm more) : (recordsOf inserts entity).Perm (recordsOf more entity) :=
  (perm.filter _).map _

theorem mem_recordsOf {record : Record} : record ∈ recordsOf inserts entity ↔ (entity, record) ∈ inserts := by
  unfold recordsOf
  simp only [List.mem_map, List.mem_filter, decide_eq_true_eq]
  constructor
  · rintro ⟨⟨name, record'⟩, ⟨inside, rfl⟩, rfl⟩
    exact inside
  · intro inside
    exact ⟨_, ⟨inside, rfl⟩, rfl⟩

theorem recordsOf_map (table : String) (records : List Record) :
    recordsOf (records.map fun record => (table, record)) entity = if entity = table then records else [] := by
  unfold recordsOf
  rw [List.filter_map, List.map_map]
  by_cases same : entity = table
  · rw [if_pos same, List.filter_eq_self.2]
    · exact List.map_id' _
    · intro record _
      simp [same]
  · rw [if_neg same, List.filter_eq_nil_iff.2]
    · rfl
    · intro record _
      simp [Ne.symm same]

end Inserts

/-- The records of batches, each with the name of its table. -/
def unbatched (batches : List (String × List Record)) : List (String × Record) :=
  batches.flatMap fun b => b.2.map fun record => (b.1, record)

namespace Memory
variable {m m' : Memory}

/-- Inserts the records into the tables of their entities, one after another. -/
def insertEach (m : Memory) (inserts : List (String × Record)) : Except SourceError Memory :=
  inserts.foldlM (fun m i => m.insert i.1 i.2) m

/-- What is inserted is added to what is there. -/
theorem insertEach_eq_ok {inserts : List (String × Record)} (indexed : m.Indexed) (ran : m.insertEach inserts = .ok m') :
    m'.schema = m.schema ∧ m'.Indexed ∧
      ∀ entity, (m'.tableOf entity).rows.toList = (m.tableOf entity).rows.toList ++ recordsOf inserts entity := by
  unfold insertEach at ran
  induction inserts generalizing m with
  | nil =>
    cases ran
    exact ⟨rfl, indexed, fun entity => (List.append_nil _).symm⟩
  | cons i rest ih =>
    rw [List.foldlM_cons] at ran
    obtain ⟨between, inserted, ran⟩ := Results.bind_eq_ok_iff.1 ran
    obtain ⟨schema, indexed', rows⟩ := ih (indexed.insert inserted) ran
    obtain ⟨e, _, schema', table, others⟩ := insert_eq_ok inserted
    refine ⟨schema.trans schema', indexed', fun entity => ?_⟩
    rw [rows, ← List.singleton_append, recordsOf_append, ← List.append_assoc]
    refine congrArg (· ++ recordsOf rest entity) ?_
    have here : recordsOf [i] entity = if entity = i.1 then [i.2] else [] := recordsOf_map i.1 [i.2]
    rw [here]
    by_cases same : entity = i.1
    · rw [if_pos same, same, table]
      simp [Table.insert]
    · rw [if_neg same, others entity same, List.append_nil]

end Memory

namespace Sql

/-! ## Batches of records -/

/-- The order of the records does not matter. -/
theorem StoredTable.Holds.of_perm {t : StoredTable} {e : Entity} {records same : List Record} (holds : t.Holds e records)
    (perm : records.Perm same) : t.Holds e same :=
  ⟨holds.name, holds.columns, holds.key, holds.rows.trans (perm.map _)⟩

namespace Database
variable {db db' : Database} {contents : String → List Record}

/-- Inserts each batch into the table of its entity, all or none of its records. -/
def insertBatches (db : Database) (batches : List (String × List Record)) : Except SourceError Database :=
  batches.foldlM (fun db b => db.insert b.1 b.2) db

theorem Holds.insertBatches {batches : List (String × List Record)} (holds : db.Holds contents)
    (relational : Relational db.schema)
    (fits : ∀ name e, db.schema.entity name = .ok e → ∀ record ∈ recordsOf (unbatched batches) name, Fits e record)
    (ran : db.insertBatches batches = .ok db') :
    db'.schema = db.schema ∧ db'.Holds fun name => contents name ++ recordsOf (unbatched batches) name := by
  unfold Database.insertBatches at ran
  induction batches generalizing db contents with
  | nil =>
    cases ran
    refine ⟨rfl, ?_⟩
    have none_ : ∀ name, contents name ++ recordsOf (unbatched []) name = contents name := fun _ => List.append_nil _
    rwa [funext none_]
  | cons b rest ih =>
    rw [List.foldlM_cons] at ran
    obtain ⟨between, inserted, ran⟩ := Results.bind_eq_ok_iff.1 ran
    have split : ∀ name, recordsOf (unbatched (b :: rest)) name =
        (if name = b.1 then b.2 else []) ++ recordsOf (unbatched rest) name := by
      intro name
      rw [← recordsOf_map b.1 b.2, ← recordsOf_append]
      rfl
    obtain ⟨schema, held⟩ := holds.insert relational (fun e known record member => fits b.1 e known record (by
      rw [split, if_pos rfl]
      exact List.mem_append_left _ member)) inserted
    obtain ⟨schema', held'⟩ := ih held (schema ▸ relational) (fun name e known record member => fits name e (schema ▸ known) record (by
      rw [split]
      exact List.mem_append_right _ member)) ran
    refine ⟨schema'.trans schema, ?_⟩
    have step : ∀ name, contents name ++ recordsOf (unbatched (b :: rest)) name =
        (if name = b.1 then contents name ++ b.2 else contents name) ++ recordsOf (unbatched rest) name := by
      intro name
      rw [split, ← List.append_assoc]
      by_cases same : name = b.1 <;> simp [same]
    rwa [funext step]

end Database

namespace Database
variable {db : Database} {schema : Schema}

/-- What is asked of a database depends on its schema only. -/
theorem statement?_eq (same : db.schema = schema) (query : Query) : db.statement? query = (empty schema).statement? query := by
  subst same
  cases query <;> rfl

theorem within_of_schema (same : db.schema = schema) {query : Query}
    (keeps : ((empty schema).statement? query).all fun s => decide s.Within) : db.Within query := by
  intro s asked
  rw [statement?_eq same] at asked
  rw [asked] at keeps
  exact of_decide_eq_true keeps

end Database

/-! ## Sources that were given the same records -/

/-- The same records were inserted into empty tables in memory and, in batches, into the new tables of a database: records
that the columns keep as they are, told by their primary keys. -/
structure Loaded (schema : Schema) (inserts : List (String × Record)) (m : Memory) (db : Database) : Prop where
  relational : Relational schema
  fits : ∀ name e, schema.entity name = .ok e → ∀ record, (name, record) ∈ inserts → Fits e record
  told : ∀ name e, schema.entity name = .ok e → ((recordsOf inserts name).map fun record => record.cell e.primaryKey).Nodup
  memory : (Memory.empty schema).insertEach inserts = .ok m
  database : ∃ created batches, (Database.empty schema).createTables = (created, none) ∧
    (unbatched batches).Perm inserts ∧ created.insertBatches batches = .ok db

/-- What memory answers to queries without filters, wherever the paths lead to fields: of each record that was inserted one
row, related rows of the records with the primary keys, and a value and a count for each key. -/
structure Answers (inserts : List (String × Record)) (m : Memory) : Prop where
  rows : ∀ e fields places, m.schema.entity e.name = .ok e → m.resolveFields e.name fields = .ok places →
    m.rows e.name [] fields = .ok ((recordsOf inserts e.name).map fun record => m.project record places)
  relatedRows : ∀ e ids fields places, m.schema.entity e.name = .ok e → m.resolveFields e.name fields = .ok places →
    ∃ found, m.relatedRows e.name ids fields = .ok found ∧
      found.Perm (((recordsOf inserts e.name).filter (Memory.wants e.primaryKey ids)).map
        (m.projectRelated e.primaryKey places))
  distinctValues : ∀ e path place, m.schema.entity e.name = .ok e → m.schema.resolve e.name path = .ok place →
    ∃ values, m.distinctValues e.name [] path = .ok values ∧
      values.map Value.key = ((recordsOf inserts e.name).map fun record => (m.cellAt record place).key).eraseDups
  counts : ∀ e path field place other, m.schema.entity e.name = .ok e → m.schema.resolve e.name path = .ok place →
    m.schema.resolve e.name field = .ok other → ∃ groups, m.groupAggregate e.name [] path ⟨.count, field⟩ = .ok groups ∧
      ∀ key, groups.lookup key =
        if m.withKey place (recordsOf inserts e.name) key = [] then none
        else Method.count.compute? ((m.withKey place (recordsOf inserts e.name) key).map fun record => m.cellAt record other)

/-- What both answer to queries without filters. Related rows come in the order of their primary keys; the order of all
other rows, and of values and groups, is left open. -/
structure Agree (m : Memory) (db : Database) : Prop where
  rows : ∀ entity fields, db.Within (.rows entity [] fields) →
    Results.Both List.Perm (m.rows entity [] fields) (db.rows entity [] fields)
  relatedRows : ∀ entity ids fields,
    (∀ e, m.schema.entity entity = .ok e → Path.parts e.primaryKey = [e.primaryKey]) →
    (∀ list, ids = some list → ∀ id ∈ list, id.isIntOrNull) →
    (ids = some [] → ∃ places, m.resolveFields entity fields = .ok places) →
    db.Within (.related entity ids fields) →
    Results.Both Eq (m.relatedRows entity ids fields) (db.relatedRows entity ids fields)
  distinctValues : ∀ entity path,
    (∀ place, m.schema.resolve entity path = .ok place → place.field.kind.isTold) → db.Within (.distinct entity [] path) →
    Results.Both List.Perm (m.distinctValues entity [] path) (db.distinctValues entity [] path)
  counts : ∀ entity path field,
    (∀ place, m.schema.resolve entity path = .ok place → place.field.kind.isTold) → (m.tableOf entity).rows.size < 2 ^ 63 →
    db.Within (.group entity [] path ⟨.count, field⟩) →
    Results.Both SameGroups (m.groupAggregate entity [] path ⟨.count, field⟩)
      (db.groupAggregate entity [] path ⟨.count, field⟩)

namespace Loaded
variable {schema : Schema} {inserts : List (String × Record)} {m : Memory} {db : Database}

/-- In memory there is what was inserted, in order. -/
theorem in_memory (loaded : Loaded schema inserts m db) :
    m.schema = schema ∧ m.Indexed ∧ ∀ name, (m.tableOf name).rows.toList = recordsOf inserts name := by
  obtain ⟨same, indexed, rows⟩ := Memory.insertEach_eq_ok (Memory.indexed_empty schema) loaded.memory
  exact ⟨same, indexed, fun name => (rows name).trans (List.nil_append _)⟩

theorem mirrors (loaded : Loaded schema inserts m db) : Mirrors db m := by
  obtain ⟨memorySchema, indexed, rows⟩ := loaded.in_memory
  have fits : ∀ name e, schema.entity name = .ok e → ∀ record ∈ recordsOf inserts name, Fits e record :=
    fun name e known record member => loaded.fits name e known record (mem_recordsOf.1 member)
  obtain ⟨created, batches, tables, perm, batched⟩ := loaded.database
  obtain ⟨createdSchema, holds⟩ := Database.holds_of_createTables loaded.relational tables
  obtain ⟨databaseSchema, holds⟩ := holds.insertBatches (createdSchema ▸ loaded.relational)
    (fun name e known record member => fits name e (createdSchema ▸ known) record ((recordsOf_perm perm).mem_iff.1 member)) batched
  refine ⟨databaseSchema.trans (createdSchema.trans memorySchema.symm), memorySchema ▸ loaded.relational, indexed,
    ⟨holds.names, fun name e known => ?_⟩, fun name e known => ?_, fun name e known => ?_⟩
  · obtain ⟨t, found, held⟩ := holds.table name e known
    refine ⟨t, found, held.of_perm ?_⟩
    rw [rows, List.nil_append]
    exact recordsOf_perm perm
  · rw [rows]
    exact fits name e (memorySchema ▸ known)
  · rw [rows]
    exact loaded.told name e (memorySchema ▸ known)

theorem answers (loaded : Loaded schema inserts m db) : Answers inserts m := by
  obtain ⟨_, _, rows⟩ := loaded.in_memory
  have matching : ∀ e : Entity, m.schema.entity e.name = .ok e → m.matching e.name [] = .ok (recordsOf inserts e.name) :=
    fun e known => rows e.name ▸ Memory.matching_nil known
  refine ⟨fun e fields places known resolved => ?_, fun e ids fields places known resolved => ?_,
    fun e path place known resolved => ?_, fun e path field place other known resolved resolvedOther => ?_⟩
  · unfold Memory.rows
    rw [Results.bind_of_ok resolved, Results.bind_of_ok (matching e known)]
  · refine ⟨_, Memory.relatedRows_eq_ok_iff.2 ⟨e, places, known, resolved, rfl⟩, ?_⟩
    rw [rows]
    exact (Memory.sortById_perm ..).map _
  · exact Memory.distinctValues_of_matching resolved (matching e known)
  · have target : m.schema.resolve e.name (Aggregation.mk .count field).field = .ok other := resolvedOther
    obtain ⟨groups, answered, _, _, lookup⟩ := Memory.groupAggregate_of_matching resolved target (matching e known)
    exact ⟨groups, answered, lookup⟩

/-- Sources that were given the same records answer with them, and alike. -/
theorem sources_agree (loaded : Loaded schema inserts m db) : Answers inserts m ∧ Agree m db := by
  have mirrors := loaded.mirrors
  refine ⟨loaded.answers, ?_, ?_, ?_, ?_⟩
  · intro entity fields within
    exact mirrors.rows_both within
  · intro entity ids fields whole ints lead within
    exact mirrors.relatedRows_both whole ints lead within
  · intro entity path told within
    exact mirrors.distinctValues_both told within
  · intro entity path field told few within
    exact mirrors.counts_both told few within

end Loaded

section Pair
variable {name : String} (i j : Int64)

theorem cell_pair (differ : "id" ≠ name) :
    let record : Record := Keyed.ofList [("id", .int i), (name, .int j)]
    record.cell "id" = .int i ∧ record.cell name = .int j := by
  intro record
  have found : ∀ other, record.get? other = [("id", Value.int i), (name, .int j)].lookup other :=
    fun other => (Keyed.get?_insertAll _ (by simp [differ]) other).trans Option.or_none
  unfold Record.cell
  rw [found, found, List.lookup_cons_self, List.lookup_cons, beq_false_of_ne differ.symm, List.lookup_cons_self]
  exact ⟨rfl, rfl⟩

/-- A record of a primary key and one more integer. -/
theorem fits_pair {e : Entity} {f : Field} (key : e.primaryKey = "id") (fields : e.fields = [⟨"id", none, .integer, none⟩, f])
    (differ : "id" ≠ f.name) (kept : f.kind.Kept (.int j)) :
    Fits e (Keyed.ofList [("id", .int i), (f.name, .int j)]) := by
  obtain ⟨id, other⟩ := cell_pair i j differ
  refine ⟨fun g member => ?_, fun none_ => ?_⟩
  · rw [fields] at member
    rcases List.mem_pair.1 member with rfl | rfl
    · rw [id]
      exact Or.inr (.integer i)
    · rw [other]
      exact Or.inr kept
  · rw [key, id] at none_
    cases none_

end Pair

namespace Shop

def client : Entity :=
  (Entity.new "client").withField ⟨"name", none, .text, none⟩

def sale : Entity :=
  (Entity.new "sale").withField ⟨"client", none, .relation, some "client"⟩

def schema : Schema :=
  .ofEntities [client, sale]

def ada : Record :=
  Keyed.ofList [("id", .int 7), ("name", .text "Ada")]

/-- A sale to a client of the number. -/
def saleTo (id client : Int64) : Record :=
  Keyed.ofList [("id", .int id), ("client", .int client)]

/-- There is no client with the number nine. -/
def inserts : List (String × Record) :=
  [("sale", saleTo 2 9), ("client", ada), ("sale", saleTo 1 7)]

def batches : List (String × List Record) :=
  [("client", [ada]), ("sale", [saleTo 1 7, saleTo 2 9])]

def database? : Except SourceError Database :=
  (Database.empty schema).createTables.1.insertBatches batches

theorem relational : Relational schema :=
  relational_ofEntities (by decide) (by decide)

theorem fits_ada : Fits client ada := by
  refine ⟨fun f member => ?_, nofun⟩
  simp only [client, Entity.withField, Entity.new, List.cons_append, List.nil_append, List.mem_cons, List.not_mem_nil,
    or_false] at member
  rcases member with rfl | rfl
  · exact Or.inr (.integer 7)
  · exact Or.inr (.text "Ada")

theorem fits_saleTo (i j : Int64) : Fits sale (saleTo i j) :=
  fits_pair (f := ⟨"client", none, .relation, some "client"⟩) i j rfl (by decide) (by decide) (.relation j)

theorem exists_loaded : ∃ m db, (Memory.empty schema).insertEach inserts = .ok m ∧ Loaded schema inserts m db := by
  obtain ⟨db, loaded⟩ : ∃ db, database? = .ok db := Results.exists_of_isSome (by decide +kernel)
  have perm : (unbatched batches).Perm inserts :=
    List.perm_append_singleton ("sale", saleTo 2 9) [("client", ada), ("sale", saleTo 1 7)]
  refine ⟨_, db, rfl, relational, fun name e found record member => ?_, fun name e found => ?_, rfl, _, batches, rfl, perm, loaded⟩
  · obtain ⟨inside, rfl⟩ := Schema.mem_of_entity_ofEntities found
    simp only [List.mem_cons, List.not_mem_nil, or_false] at inside
    simp only [inserts, List.mem_cons, Prod.mk.injEq, List.not_mem_nil, or_false] at member
    rcases inside with rfl | rfl
    · have record : record = ada := by
        rcases member with ⟨other, _⟩ | ⟨_, own⟩ | ⟨other, _⟩
        · exact absurd other (by decide)
        · exact own
        · exact absurd other (by decide)
      exact record ▸ fits_ada
    · rcases member with ⟨_, rfl⟩ | ⟨other, _⟩ | ⟨_, rfl⟩
      · exact fits_saleTo 2 9
      · exact absurd other (by decide)
      · exact fits_saleTo 1 7
  · obtain ⟨inside, rfl⟩ := Schema.mem_of_entity_ofEntities found
    simp only [List.mem_cons, List.not_mem_nil, or_false] at inside
    rcases inside with rfl | rfl
    · exact List.nodup_singleton _
    · have cells : (recordsOf inserts sale.name).map (fun record => record.cell sale.primaryKey) = [.int 2, .int 1] := rfl
      rw [cells]
      simp

end Shop

/-- Of two sales, one to no known client, both give the client's name. -/
theorem Loaded.sales_alike : ∃ m db rows, Loaded Shop.schema Shop.inserts m db ∧
    db.rows "sale" [] ["id", "client__name"] = .ok rows ∧
    [Keyed.ofList [("id", .int 2), ("client__name", .null)],
      Keyed.ofList [("id", .int 1), ("client__name", .text "Ada")]].Perm rows := by
  obtain ⟨m, db, filled, loaded⟩ := Shop.exists_loaded
  have schema : db.schema = Shop.schema := by
    rw [loaded.mirrors.schema]
    obtain rfl := Except.ok.inj (filled.symm.trans rfl)
    rfl
  have both := (sources_agree loaded).2.rows "sale" ["id", "client__name"] (Database.within_of_schema schema (by decide +kernel))
  have memory : m.rows "sale" [] ["id", "client__name"] =
      .ok [Keyed.ofList [("id", .int 2), ("client__name", .null)],
        Keyed.ofList [("id", .int 1), ("client__name", .text "Ada")]] := by
    obtain rfl := Except.ok.inj (filled.symm.trans rfl)
    rfl
  rw [memory] at both
  generalize found : db.rows "sale" [] ["id", "client__name"] = answer at both
  cases both with
  | ok perm => exact ⟨m, db, _, loaded, found, perm⟩

namespace Wheels

/-- The name of the primary key reads as a path. -/
def part : Entity :=
  ((Entity.new "part").withPrimaryKey ⟨"a__b", none, .integer, none⟩).withField ⟨"name", none, .text, none⟩

def wheel : Record :=
  Keyed.ofList [("a__b", .int 1), ("name", .text "wheel")]

theorem fits_wheel : Fits part wheel := by
  refine ⟨fun f member => ?_, nofun⟩
  have fields : part.fields = [⟨"a__b", none, .integer, none⟩, ⟨"name", none, .text, none⟩] := by decide
  rw [fields] at member
  simp only [List.mem_cons, List.not_mem_nil, or_false] at member
  rcases member with rfl | rfl
  · exact Or.inr (.integer 1)
  · exact Or.inr (.text "wheel")

end Wheels

/-- Of a primary key whose name reads as a path, the rows with the keys are found in memory only. -/
theorem Loaded.keys_read_as_paths : ∃ m db, Loaded (.ofEntities [Wheels.part]) [("part", Wheels.wheel)] m db ∧
    m.relatedRows "part" (some [.int 1]) ["name"] = .ok [Wheels.wheel] ∧
    db.relatedRows "part" (some [.int 1]) ["name"] = .error (.fieldNotFound "part" "a__b") := by
  obtain ⟨m, filled⟩ : ∃ m, (Memory.empty (.ofEntities [Wheels.part])).insertEach [("part", Wheels.wheel)] = .ok m := ⟨_, rfl⟩
  obtain ⟨db, loaded⟩ : ∃ db, (Database.empty (.ofEntities [Wheels.part])).createTables.1.insertBatches
      [("part", [Wheels.wheel])] = .ok db := Results.exists_of_isSome (by decide +kernel)
  have alike : Loaded (.ofEntities [Wheels.part]) [("part", Wheels.wheel)] m db := by
    refine ⟨relational_ofEntities (by decide) (by decide), fun name e found record member => ?_, fun name e found => ?_, filled, _,
      [("part", [Wheels.wheel])], rfl, .refl _, loaded⟩
    · obtain ⟨inside, rfl⟩ := Schema.mem_of_entity_ofEntities found
      rw [List.mem_singleton.1 inside]
      rw [(Prod.mk.inj (List.mem_singleton.1 member)).2]
      exact Wheels.fits_wheel
    · obtain ⟨inside, rfl⟩ := Schema.mem_of_entity_ofEntities found
      rw [List.mem_singleton.1 inside]
      exact List.nodup_singleton _
  have schema := alike.mirrors.schema
  obtain rfl := Except.ok.inj (filled.symm.trans rfl)
  refine ⟨_, db, alike, rfl, ?_⟩
  unfold Database.relatedRows
  rw [schema]
  rfl

end Sql
end Reporting
