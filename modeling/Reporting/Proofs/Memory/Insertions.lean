import Reporting.Proofs.Memory.Index

/-!
Records that go into tables one after another. An insertion for an entity that the schema does not have fails and changes
nothing; any other one adds its record at the end of the entity's table (`Memory.Holds.attempt`). Whichever tables were
filled in whichever turns, a primary key finds the last of the records that bear it (`Memory.latest_found`).
-/

namespace Reporting

namespace Table
variable {t : Table} {primaryKey : String} {id : Value} {record : Record}

/-- The primary key of the record is there, is not missing, and has the key of the value. -/
def Bears (primaryKey : String) (id : Value) (record : Record) : Prop :=
  ∃ v, record.get? primaryKey = some v ∧ v ≠ .null ∧ v.key = id.key

theorem bears_iff : bears primaryKey id record ↔ Bears primaryKey id record := by
  unfold bears Bears Record.cell
  cases record.get? primaryKey with
  | none => simp [Value.isNull]
  | some v => cases v <;> simp [Value.isNull]

theorem Indexed.find?_eq_some_iff (indexed : t.Indexed primaryKey) : t.find? id = some record ↔
    ∃ before after, t.rows.toList = before ++ record :: after ∧ Bears primaryKey id record ∧
      ∀ later ∈ after, ¬ Bears primaryKey id later := by
  rw [indexed.find?_eq, List.getLast?_eq_some_iff]
  constructor
  · rintro ⟨earlier, found⟩
    obtain ⟨before, rest, rows, _, last⟩ := List.filter_eq_append_iff.1 found
    obtain ⟨between, after, rfl, _, bearing, none_⟩ := List.filter_eq_cons_iff.1 last
    refine ⟨before ++ between, after, by rw [rows, List.append_assoc], bears_iff.1 bearing, fun later member bears => ?_⟩
    exact List.filter_eq_nil_iff.1 none_ later member (bears_iff.2 bears)
  · rintro ⟨before, after, rows, bearing, bare⟩
    have none_ : after.filter (bears primaryKey id) = [] :=
      List.filter_eq_nil_iff.2 fun later member bears => bare later member (bears_iff.1 bears)
    refine ⟨before.filter (bears primaryKey id), ?_⟩
    rw [rows, List.filter_append, List.filter_cons_of_pos (bears_iff.2 bearing), none_]

theorem Indexed.find?_eq_none_iff (indexed : t.Indexed primaryKey) :
    t.find? id = none ↔ ∀ record ∈ t.rows.toList, ¬ Bears primaryKey id record := by
  rw [indexed.find?_eq, List.getLast?_eq_none_iff, List.filter_eq_nil_iff]
  exact forall₂_congr fun record _ => not_congr bears_iff

end Table

namespace Memory

/-- A record for the table of an entity. -/
structure Insertion where
  entity : String
  record : Record

variable {m : Memory} {schema : Schema} {before : List Insertion}

/-- The memory after an insertion was tried. -/
def attempt (m : Memory) (i : Insertion) : Memory :=
  match m.insert i.entity i.record with
  | .ok later => later
  | .error _ => m

/-- The memory after insertions were tried one after another. -/
def run (m : Memory) (insertions : List Insertion) : Memory :=
  insertions.foldl attempt m

/-- The records of the insertions for an entity, in order; none if the schema does not have it. -/
def inserted (schema : Schema) (entity : String) (insertions : List Insertion) : List Record :=
  match schema.entity entity with
  | .ok _ => (insertions.filter fun i => i.entity = entity).map Insertion.record
  | .error _ => []

theorem inserted_append (schema : Schema) (entity : String) (insertions more : List Insertion) :
    inserted schema entity (insertions ++ more) = inserted schema entity insertions ++ inserted schema entity more := by
  unfold inserted
  cases schema.entity entity with
  | ok e => simp
  | error cause => rfl

/-- An insertion fails just if the schema does not have the entity. -/
theorem insert_eq_error_iff {entity : String} {record : Record} {cause : SourceError} :
    m.insert entity record = .error cause ↔ m.schema.entity entity = .error cause := by
  unfold insert
  cases m.schema.entity entity <;> simp

/-- The tables hold the records of the insertions, and find the last one with a primary key. -/
structure Holds (m : Memory) (schema : Schema) (insertions : List Insertion) : Prop where
  schema_eq : m.schema = schema
  rows : ∀ entity, (m.tableOf entity).rows.toList = inserted schema entity insertions
  indexed : m.Indexed
  unknown : ∀ entity cause, schema.entity entity = .error cause → m.tableOf entity = Table.empty

theorem holds_empty (schema : Schema) : (empty schema).Holds schema [] where
  schema_eq := rfl
  rows entity := by
    unfold inserted
    cases schema.entity entity <;> rfl
  indexed := indexed_empty schema
  unknown _ _ _ := rfl

theorem Holds.attempt (holds : m.Holds schema before) (i : Insertion) :
    (m.attempt i).Holds schema (before ++ [i]) := by
  obtain ⟨rfl, rows, indexed, unknown⟩ := holds
  unfold Memory.attempt
  cases ran : m.insert i.entity i.record with
  | error cause =>
    have absent := insert_eq_error_iff.1 ran
    refine ⟨rfl, fun entity => ?_, indexed, unknown⟩
    -- The insertion adds to no table, its own least of all.
    have nothing : inserted m.schema entity [i] = [] := by
      unfold inserted
      by_cases own : i.entity = entity
      · rw [← own, absent]
      · cases m.schema.entity entity <;> simp [own]
    rw [inserted_append, nothing, List.append_nil, rows]
  | ok later =>
    obtain ⟨e, known, schema_eq, table, others⟩ := insert_eq_ok ran
    refine ⟨schema_eq, fun entity => ?_, indexed.insert ran, fun entity cause absent => ?_⟩
    · rw [inserted_append, ← rows]
      by_cases own : entity = i.entity
      · subst own
        simp [inserted, known, table, Table.insert]
      · have nothing : inserted m.schema entity [i] = [] := by
          unfold inserted
          cases m.schema.entity entity <;> simp [Ne.symm own]
        rw [others entity own, nothing, List.append_nil]
    · have own : entity ≠ i.entity := by
        rintro rfl
        rw [known] at absent
        cases absent
      rw [others entity own, unknown entity cause absent]

theorem Holds.run (holds : m.Holds schema before) (insertions : List Insertion) :
    (m.run insertions).Holds schema (before ++ insertions) := by
  induction insertions generalizing m before with
  | nil =>
    rw [List.append_nil]
    exact holds
  | cons i rest ih =>
    rw [← List.singleton_append, ← List.append_assoc]
    exact ih (holds.attempt i)

/-- Whatever insertions were tried on an empty memory, the next one fails just if the schema does not have its entity. The
table of an entity holds the records that were inserted for it, in order. A value finds the last of them with a primary key
that has the value's key, and nothing where none has; in the table of an entity that the schema does not have there is
nothing to be found. -/
theorem latest_found (schema : Schema) (insertions : List Insertion) (entity : String) :
    (∀ record cause, ((empty schema).run insertions).insert entity record = .error cause ↔
      schema.entity entity = .error cause) ∧
    (((empty schema).run insertions).tableOf entity).rows.toList = inserted schema entity insertions ∧
    ∀ id,
      (∀ record, (((empty schema).run insertions).tableOf entity).find? id = some record ↔
        ∃ e, schema.entity entity = .ok e ∧ ∃ before after,
          inserted schema entity insertions = before ++ record :: after ∧ Table.Bears e.primaryKey id record ∧
            ∀ later ∈ after, ¬ Table.Bears e.primaryKey id later) ∧
      ((((empty schema).run insertions).tableOf entity).find? id = none ↔
        ∀ e, schema.entity entity = .ok e → ∀ record ∈ inserted schema entity insertions,
          ¬ Table.Bears e.primaryKey id record) := by
  have holds := (holds_empty schema).run insertions
  rw [List.nil_append] at holds
  refine ⟨fun record cause => ?_, holds.rows entity, fun id => ?_⟩
  · rw [insert_eq_error_iff, holds.schema_eq]
  · rw [← holds.rows entity]
    cases known : schema.entity entity with
    | error cause => simp [holds.unknown entity cause known, Table.find?, Table.empty]
    | ok e =>
      have known' : ((empty schema).run insertions).schema.entity entity = .ok e := by
        rw [holds.schema_eq]
        exact known
      have indexed := holds.indexed entity e known'
      refine ⟨fun record => ?_, ?_⟩
      · rw [indexed.find?_eq_some_iff]
        simp
      · rw [indexed.find?_eq_none_iff]
        simp

-- Keys of two kinds that are written alike are one, and the last record with it is found. A missing key finds nothing.
example :
    let part (id : Value) (name : String) : Insertion := ⟨"part", Keyed.ofList [("id", id), ("name", .text name)]⟩
    let m := (empty (.ofEntities [Entity.new "part"])).run
      [part (.int 1) "nut", ⟨"tool", Keyed.empty⟩, part (.text "1") "bolt", part .null "rod"]
    (m.tableOf "part").rows.size = 3 ∧
      ((m.tableOf "part").find? (.int 1)).map (·.cell "name") = some (.text "bolt") ∧
      (m.tableOf "part").find? .null = none := by
  decide +kernel

end Memory
end Reporting
