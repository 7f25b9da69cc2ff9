import Mathlib.Data.List.Basic
import Reporting.Proofs.Parts
import Reporting.Proofs.Results
import Reporting.Proofs.Sql.Cell
import Reporting.Proofs.Sql.Texts
import Reporting.Proofs.Walks
import Reporting.Sql.Database

/-!
The tables of a database, from their creation on. Where no two entities or fields have the same name, creation leads to
the table of each entity (`Store.createAll_eq_ok`), and every record that is added becomes one row of its table
(`Database.Holds.insert`), whose cells are found under the names of the fields (`StoredTable.Holds.cell_rowOf`).
-/

namespace Reporting.Sql

/-! ## Names -/

theorem sameName_iff {a b : String} : sameName a b ↔ a.toList.map Char.toLower = b.toList.map Char.toLower := by
  unfold sameName
  exact beq_iff_eq

theorem sameName_refl (a : String) : sameName a a :=
  sameName_iff.2 rfl

section Lists
variable {α : Type} {r : α → α → Bool} {l : List α} {a : α}

theorem find?_of_pairwise (apart : l.Pairwise fun a b => r a b = false) (member : a ∈ l) (self : r a a) :
    l.find? (fun b => r b a) = some a := by
  induction l with
  | nil => cases member
  | cons b rest ih =>
    obtain ⟨here, later⟩ := List.pairwise_cons.1 apart
    rcases List.mem_cons.1 member with rfl | member
    · exact List.find?_cons_of_pos self
    · rw [List.find?_cons_of_neg (by simp [here a member])]
      exact ih later member

theorem findIdx?_of_pairwise (apart : l.Pairwise fun a b => r a b = false) {i : Nat} (found : l[i]? = some a)
    (self : r a a) : l.findIdx? (fun b => r b a) = some i := by
  induction l generalizing i with
  | nil => simp at found
  | cons b rest ih =>
    obtain ⟨here, later⟩ := List.pairwise_cons.1 apart
    rw [List.findIdx?_cons]
    cases i with
    | zero =>
      cases found
      rw [if_pos self]
    | succ i =>
      have differ := here a (List.mem_of_getElem? found)
      rw [differ, if_neg Bool.false_ne_true, ih later found]
      rfl

theorem find?_of_alone {p : α → Bool} (member : a ∈ l) (holds : p a) (alone : ∀ b ∈ l, p b → b = a) : l.find? p = some a := by
  cases found : l.find? p with
  | none => exact absurd holds (List.find?_eq_none.1 found a member)
  | some b => rw [alone b (List.mem_of_find?_eq_some found) (List.find?_some found)]

end Lists

/-- The columns of an entity's table have different names, and the primary key is one of integers. -/
structure Tabular (e : Entity) : Prop where
  apart : e.fields.Pairwise fun f g => sameName f.name g.name = false
  key : ∃ k ∈ e.fields, k.name = e.primaryKey ∧ k.kind = .integer

instance (e : Entity) : Decidable (Tabular e) :=
  decidable_of_iff (e.fields.Pairwise (fun f g => sameName f.name g.name = false) ∧
    ∃ k ∈ e.fields, k.name = e.primaryKey ∧ k.kind = .integer) ⟨fun ⟨apart, key⟩ => ⟨apart, key⟩, fun t => ⟨t.apart, t.key⟩⟩

theorem Tabular.fields_ne_nil {e : Entity} (tabular : Tabular e) : e.fields ≠ [] := by
  obtain ⟨k, member, _⟩ := tabular.key
  exact List.ne_nil_of_mem member

theorem Tabular.names_apart {e : Entity} (tabular : Tabular e) : e.fields.Pairwise fun f g => (f.name == g.name) = false := by
  refine tabular.apart.imp fun {f g} differ => beq_eq_false_iff_ne.2 fun same => ?_
  rw [same, sameName_refl] at differ
  cases differ

/-- The names of an entity's table can be read, and its own is not one for the database itself. -/
structure TableNames (e : Entity) : Prop where
  unreserved : Store.isReserved e.name = false
  own : (openQuote? e.name).isNone
  columns : ∀ f ∈ e.fields, (openQuote? f.name).isNone

/-! ## Creation -/

namespace Store

theorem isReserved_of_sameName {name other : String} (same : sameName name other) (reserved : isReserved other) :
    isReserved name := by
  unfold isReserved at reserved ⊢
  rw [sameName_iff, String.toList_ofList, List.map_take] at reserved ⊢
  rw [sameName_iff.1 same]
  exact reserved

/-- The names of the database itself are not for other tables. -/
theorem catalog?_of_unreserved (store : Store) {name : String} (unreserved : isReserved name = false) :
    store.catalog? name = none := by
  have other : ∀ names : List String, names.all isReserved → names.any (sameName name) = false := by
    intro names all
    refine List.any_eq_false.2 fun c member same => ?_
    rw [isReserved_of_sameName same (List.all_eq_true.1 all c member)] at unreserved
    cases unreserved
  unfold catalog?
  rw [other catalogNames (by decide), other temporaryNames (by decide)]
  rfl

theorem table?_of_unreserved (store : Store) {name : String} (unreserved : isReserved name = false) :
    store.table? name = store.find? fun t => sameName t.name name := by
  unfold table?
  rw [catalog?_of_unreserved store unreserved]
  rfl

theorem exists_part_of_mem (isNew : Bool) (e : Entity) (before : List String) {fields : List Field} {f : Field}
    (member : f ∈ fields) : ∃ part ∈ columnParts isNew e before fields, .name f.name ∈ part.pieces := by
  induction fields generalizing before with
  | nil => cases member
  | cons first rest ih =>
    unfold columnParts
    rcases List.mem_cons.1 member with rfl | later
    · exact ⟨_, List.mem_cons_self .., by simp⟩
    · obtain ⟨part, inside, named⟩ := ih (before ++ [first.name]) later
      exact ⟨part, List.mem_cons_of_mem _ inside, named⟩

theorem create_eq_ok {store store' : Store} {e : Entity} (ran : store.create e = .ok store')
    (fresh : ∀ t ∈ store, sameName t.name e.name = false) : store' = store ++ [tableOf e] ∧ TableNames e := by
  obtain ⟨_, read, ran⟩ := Results.bind_eq_ok_iff.1 ran
  obtain ⟨readable, _⟩ := read_eq_ok_iff.1 read
  have first : Part.Readable ⟨[.fixed "CREATE TABLE IF NOT EXISTS ", .name e.name, .fixed " ("], nameFault? e⟩ :=
    readable _ (by simp [createParts])
  have unreserved : isReserved e.name = false := by
    have faultless := first.1
    unfold nameFault? at faultless
    split at faultless
    · cases faultless
    · rename_i unreserved
      simpa using unreserved
  have names : TableNames e := by
    refine ⟨unreserved, first.2 (.name e.name) (by simp), fun f member => ?_⟩
    obtain ⟨part, inside, named⟩ := exists_part_of_mem (store.table? e.name).isNone e [] member
    exact (readable part (by simp [createParts, inside])).2 _ named
  have none_ : store.table? e.name = none := by
    rw [table?_of_unreserved store unreserved, List.find?_eq_none]
    intro t member
    simp [fresh t member]
  rw [none_] at ran
  cases ran
  exact ⟨rfl, names⟩

/-- Tables of different names are all created. -/
theorem createAll_eq_ok {store store' : Store} {es : List Entity} (ran : store.createAll es = (store', none))
    (fresh : ∀ e ∈ es, ∀ t ∈ store, sameName t.name e.name = false)
    (apart : es.Pairwise fun d e => sameName d.name e.name = false) :
    store' = store ++ es.map tableOf ∧ ∀ e ∈ es, TableNames e := by
  induction es generalizing store with
  | nil =>
    cases ran
    simp
  | cons e rest ih =>
    obtain ⟨here, later⟩ := List.pairwise_cons.1 apart
    unfold createAll at ran
    split at ran
    · rename_i between created
      obtain ⟨rfl, names⟩ := create_eq_ok created (fresh e (List.mem_cons_self ..))
      obtain ⟨rfl, others⟩ := ih ran (fun d member t inside => by
        rcases List.mem_append.1 inside with before | new
        · exact fresh d (List.mem_cons_of_mem e member) t before
        · rw [List.mem_singleton.1 new]
          exact here d member) later
      exact ⟨by simp, List.forall_mem_cons.2 ⟨names, others⟩⟩
    · cases ran

end Store

/-! ## Rows -/

/-- The number of a row with the primary key. -/
def keyNumber : Value → Int
  | .int i => i.toInt
  | _ => 0

/-- The row that a table keeps of a record. -/
def rowOf (e : Entity) (record : Record) : StoredRow :=
  ⟨keyNumber (record.cell e.primaryKey), e.fields.map fun f => stored f.kind (record.cell f.name)⟩

/-- Columns keep the cells of the record as they are, and it has a primary key. -/
structure Fits (e : Entity) (record : Record) : Prop where
  keeps : ∀ f ∈ e.fields, f.kind.Keeps (record.cell f.name)
  present : record.cell e.primaryKey ≠ .null

theorem Fits.key {e : Entity} (tabular : Tabular e) {record : Record} (fits : Fits e record) :
    ∃ i, record.cell e.primaryKey = .int i := by
  obtain ⟨k, member, named, kind⟩ := tabular.key
  have kept := fits.keeps k member
  rw [named, kind] at kept
  rcases kept with none_ | kept
  · exact absurd none_ fits.present
  · cases same : record.cell e.primaryKey with
    | int i => exact ⟨i, rfl⟩
    | _ =>
      rw [same] at kept
      cases kept

/-- The table is the entity's, and has one row for each of the records. -/
structure StoredTable.Holds (t : StoredTable) (e : Entity) (records : List Record) : Prop where
  name : t.name = e.name
  columns : t.columns = (Store.tableOf e).columns
  key : t.key = (Store.tableOf e).key
  rows : t.rows.toList.Perm (records.map (rowOf e))

namespace StoredTable.Holds
variable {t t' : StoredTable} {e : Entity} {records : List Record} {record : Record} {f : Field}

theorem columnIndex?_eq (holds : t.Holds e records) (tabular : Tabular e) {i : Nat} (found : e.fields[i]? = some f) :
    t.columnIndex? f.name = some i := by
  unfold columnIndex?
  rw [holds.columns]
  show (e.fields.map _).findIdx? _ = _
  rw [List.findIdx?_map]
  exact findIdx?_of_pairwise (r := fun f g : Field => sameName f.name g.name) tabular.apart found (sameName_refl _)

theorem find?_column_eq (holds : t.Holds e records) (tabular : Tabular e) (member : f ∈ e.fields) :
    t.columns.find? (fun c => sameName c.name f.name) = some ⟨f.name, .ofKind f.kind⟩ := by
  rw [holds.columns]
  show (e.fields.map _).find? _ = _
  rw [List.find?_map]
  have found := find?_of_pairwise (r := fun f g : Field => sameName f.name g.name) tabular.apart member (sameName_refl _)
  exact congrArg (Option.map _) found

theorem affinity_eq (holds : t.Holds e records) (tabular : Tabular e) (member : f ∈ e.fields) :
    t.affinity f.name = .ofKind f.kind := by
  unfold affinity
  rw [holds.find?_column_eq tabular member]

theorem cell_rowOf (holds : t.Holds e records) (tabular : Tabular e) (member : f ∈ e.fields) (record : Record) :
    t.cell (rowOf e record) f.name = stored f.kind (record.cell f.name) := by
  obtain ⟨i, found⟩ := List.mem_iff_getElem?.1 member
  unfold cell
  rw [holds.columnIndex?_eq tabular found]
  simp [rowOf, found]

theorem has_of_mem (holds : t.Holds e records) (tabular : Tabular e) (member : f ∈ e.fields) : t.has f.name := by
  obtain ⟨i, found⟩ := List.mem_iff_getElem?.1 member
  unfold has
  rw [holds.columnIndex?_eq tabular found]
  rfl

/-- The primary key is the row number. -/
theorem numberIndex?_eq (holds : t.Holds e records) (tabular : Tabular e) :
    ∃ i k, e.fields[i]? = some k ∧ k.name = e.primaryKey ∧ k.kind = .integer ∧ t.numberIndex? = some i := by
  obtain ⟨k, member, named, kind⟩ := tabular.key
  obtain ⟨i, found⟩ := List.mem_iff_getElem?.1 member
  have key : t.key = some i := by
    rw [holds.key, ← findIdx?_of_pairwise (r := fun f g : Field => f.name == g.name) tabular.names_apart found (beq_self_eq_true _), named]
    rfl
  refine ⟨i, k, found, named, kind, ?_⟩
  unfold numberIndex?
  rw [key, holds.columns]
  simp [Store.tableOf, found, kind, Affinity.ofKind]

theorem numberField?_eq (holds : t.Holds e records) (tabular : Tabular e) :
    ∃ k, Store.numberField? t e = some k ∧ k.name = e.primaryKey ∧ k.kind = .integer := by
  obtain ⟨i, k, found, named, kind, number⟩ := holds.numberIndex?_eq tabular
  refine ⟨k, ?_, named, kind⟩
  unfold Store.numberField?
  refine find?_of_alone (List.mem_reverse.2 (List.mem_of_getElem? found)) ?_ fun f member passed => ?_
  · rw [holds.columnIndex?_eq tabular found]
    simp [number]
  · obtain ⟨j, there⟩ := List.mem_iff_getElem?.1 (List.mem_reverse.1 member)
    rw [holds.columnIndex?_eq tabular there, number] at passed
    simp only [Option.some.injEq, decide_eq_true_eq] at passed
    subst passed
    exact Option.some.inj (there.symm.trans found)

theorem map_cellOf_eq (holds : t.Holds e records) (tabular : Tabular e) (record : Record) :
    t.columns.map (Store.cellOf e record) = (rowOf e record).cells := by
  rw [holds.columns]
  show (e.fields.map _).map _ = e.fields.map _
  rw [List.map_map]
  refine List.map_congr_left fun f member => ?_
  have found := find?_of_pairwise (r := fun f g : Field => sameName f.name g.name) tabular.apart member (sameName_refl _)
  show Store.cellOf e record ⟨f.name, .ofKind f.kind⟩ = _
  unfold Store.cellOf
  rw [found]
  rfl

theorem placeRow_perm (rows : Array StoredRow) (row : StoredRow) : (placeRow rows row).toList.Perm (row :: rows.toList) := by
  unfold placeRow
  split
  · split
    · rw [Array.toList_push]
      exact List.perm_append_singleton ..
    · refine List.perm_middle.trans (List.Perm.of_eq ?_)
      rw [List.takeWhile_append_dropWhile]
  · rename_i none_
    rw [Array.back?_eq_none_iff.1 none_]

/-- A record that is added becomes a row. -/
theorem insertRecord (holds : t.Holds e records) (tabular : Tabular e) (fits : Fits e record)
    (ran : Store.insertRecord e t record = .ok t') : t'.Holds e (records ++ [record]) := by
  obtain ⟨k, field, named, kind⟩ := holds.numberField?_eq tabular
  obtain ⟨place, k', found, named', kind', number⟩ := holds.numberIndex?_eq tabular
  obtain ⟨i, key⟩ := fits.key tabular
  unfold Store.insertRecord at ran
  have given : Store.fieldCell record .integer k = .integer i := by
    unfold Store.fieldCell
    rw [named, key, kind]
    rfl
  rw [field, holds.map_cellOf_eq tabular] at ran
  dsimp only at ran
  rw [given] at ran
  obtain ⟨n, numbered, ran⟩ := Results.bind_eq_ok_iff.1 ran
  have same : n = i.toInt := by
    unfold StoredTable.number at numbered
    dsimp only at numbered
    split at numbered
    · cases numbered
    · cases numbered
      rfl
  have unkeyed : t.holdsKey (rowOf e record).cells = false := by
    unfold holdsKey
    split
    · rfl
    · simp [number]
  -- The cell of the primary key is the row number already.
  have cells : (rowOf e record).cells.set place (.integer i) = (rowOf e record).cells := by
    have there : (rowOf e record).cells[place]? = some (.integer i) := by
      simp [rowOf, found, named', key, kind', stored, encode, Affinity.ofKind, Cell.store, Cell.toNumber]
    obtain ⟨bound, here⟩ := List.getElem?_eq_some_iff.1 there
    rw [← here]
    exact List.set_getElem_self bound
  rw [unkeyed, if_neg Bool.false_ne_true, number, same] at ran
  cases ran
  refine ⟨holds.name, holds.columns, holds.key, ?_⟩
  have row : (⟨i.toInt, (rowOf e record).cells.set place (.integer (Int64.ofInt i.toInt))⟩ : StoredRow) = rowOf e record := by
    rw [Int64.ofInt_toInt, cells]
    simp [rowOf, key, keyNumber]
  rw [row, List.map_append, List.map_singleton]
  exact (placeRow_perm ..).trans ((holds.rows.cons _).trans (List.perm_append_singleton ..).symm)

theorem insertRecords (holds : t.Holds e records) (tabular : Tabular e) {more : List Record} (fits : ∀ record ∈ more, Fits e record)
    (ran : more.foldlM (Store.insertRecord e) t = .ok t') : t'.Holds e (records ++ more) := by
  induction more generalizing t records with
  | nil =>
    cases ran
    rwa [List.append_nil]
  | cons record rest ih =>
    rw [List.foldlM_cons] at ran
    obtain ⟨between, inserted, ran⟩ := Results.bind_eq_ok_iff.1 ran
    rw [List.append_cons]
    exact ih (holds.insertRecord tabular (fits record (List.mem_cons_self ..)) inserted)
      (fun other member => fits other (List.mem_cons_of_mem record member)) ran

end StoredTable.Holds

/-! ## Databases -/

/-- The schema is of tables: entities are told by their names, and all of them are tabular. -/
structure Relational (schema : Schema) : Prop where
  named : schema.Named
  apart : ∀ a b d e, schema.entity a = .ok d → schema.entity b = .ok e → sameName a b → a = b
  tabular : ∀ name e, schema.entity name = .ok e → Tabular e

theorem relational_ofEntities {entities : List Entity} (apart : entities.Pairwise fun d e => sameName d.name e.name = false)
    (tabular : ∀ e ∈ entities, Tabular e) : Relational (.ofEntities entities) where
  named := Schema.named_ofEntities entities
  apart := by
    intro a b d e foundD foundE same
    obtain ⟨insideD, rfl⟩ := Schema.mem_of_entity_ofEntities foundD
    obtain ⟨insideE, rfl⟩ := Schema.mem_of_entity_ofEntities foundE
    by_contra differ
    have symmetric : Std.Symm fun d e : Entity => sameName d.name e.name = false := by
      refine ⟨fun d e unlike => ?_⟩
      rw [← Bool.not_eq_true, sameName_iff] at unlike ⊢
      exact unlike ∘ Eq.symm
    have unlike := apart.forall insideD insideE fun equal => differ (congrArg Entity.name equal)
    rw [same] at unlike
    cases unlike
  tabular _ e found := tabular e (Schema.mem_of_entity_ofEntities found).1

/-- The database has the tables of its schema, each with a row for every record of the entity. -/
structure Database.Holds (db : Database) (contents : String → List Record) : Prop where
  names : ∀ name e, db.schema.entity name = .ok e → TableNames e
  table : ∀ name e, db.schema.entity name = .ok e → ∃ t, db.store.table? name = some t ∧ t.Holds e (contents name)

namespace Store
variable {store : Store} {e : Entity} {t t' : StoredTable} {name : String}

theorem target_eq_ok (ran : store.target e = .ok t) : store.table? e.name = some t := by
  obtain ⟨_, _, ran⟩ := Results.bind_eq_ok_iff.1 ran
  split at ran
  · cases ran
  · cases ran
  · rename_i there
    split at ran
    · cases ran
    · cases ran
      exact there

theorem table?_replace (unreserved : isReserved name = false) (found : store.table? name = some t) :
    (store.replace t').table? name = some (if t.name = t'.name then t' else t) := by
  rw [table?_of_unreserved _ unreserved] at found ⊢
  unfold replace
  have names : ((fun t : StoredTable => sameName t.name name) ∘ fun other => if other.name = t'.name then t' else other) =
      fun t => sameName t.name name := by
    funext other
    by_cases same : other.name = t'.name <;> simp [same]
  rw [List.find?_map, names, found]
  rfl

end Store

namespace Database
variable {db db' : Database} {contents : String → List Record}

/-- The tables of a database without others are created empty. -/
theorem holds_of_createTables {schema : Schema} (relational : Relational schema)
    (created : (empty schema).createTables = (db, none)) : db.schema = schema ∧ db.Holds fun _ => [] := by
  have ran : Store.createAll [] schema.entities.values = (db.store, none) := by
    unfold createTables empty at created
    dsimp only at created
    rw [← (Prod.mk.inj created).1, ← (Prod.mk.inj created).2]
  have known : ∀ {name e}, (name, e) ∈ schema.entities.entries → schema.entity name = .ok e := by
    intro name e member
    exact Schema.entity_eq_ok_iff.2 (Keyed.lookup_of_mem schema.entities.names_nodup member)
  have apart : schema.entities.values.Pairwise fun d e => sameName d.name e.name = false := by
    unfold Keyed.values
    rw [List.pairwise_map]
    refine schema.entities.ascending.imp_of_mem fun {a b} insideA insideB less => ?_
    rw [← Bool.not_eq_true]
    intro same
    rw [relational.named _ _ (known insideA), relational.named _ _ (known insideB)] at same
    rw [relational.apart _ _ _ _ (known insideA) (known insideB) same] at less
    exact String.lt_irrefl _ less
  obtain ⟨stores, names⟩ := Store.createAll_eq_ok ran (by simp) apart
  have same : db.schema = schema := by
    rw [← (Prod.mk.inj created).1]
    rfl
  have inside : ∀ {name e}, schema.entity name = .ok e → e ∈ schema.entities.values := by
    intro name e found
    exact List.mem_map_of_mem (f := Prod.snd) (Keyed.mem_of_get? (Schema.entity_eq_ok_iff.1 found))
  refine ⟨same, fun name e found => names e (inside (same ▸ found)), fun name e found => ?_⟩
  rw [same] at found
  obtain rfl := relational.named _ _ found
  refine ⟨Store.tableOf e, ?_, ⟨rfl, rfl, rfl, .refl _⟩⟩
  rw [Store.table?_of_unreserved _ (names e (inside found)).unreserved, stores, List.nil_append, List.find?_map]
  have there := find?_of_pairwise (r := fun d e : Entity => sameName d.name e.name) apart (inside found) (sameName_refl _)
  exact congrArg (Option.map _) there

/-- Records that are added are added to what their table has. -/
theorem Holds.insert (holds : db.Holds contents) (relational : Relational db.schema) {entity : String}
    {records : List Record} (fits : ∀ e, db.schema.entity entity = .ok e → ∀ record ∈ records, Fits e record)
    (ran : db.insert entity records = .ok db') : db'.schema = db.schema ∧
      db'.Holds fun name => if name = entity then contents name ++ records else contents name := by
  obtain ⟨e, known, ran⟩ := Results.bind_eq_ok_iff.1 ran
  obtain ⟨store, added, ran⟩ := Results.bind_eq_ok_iff.1 ran
  cases ran
  obtain ⟨t, targeted, added⟩ := Results.bind_eq_ok_iff.1 added
  obtain ⟨t', inserted, rfl⟩ := Results.map_eq_ok_iff.1 added
  obtain rfl := relational.named _ _ known
  obtain ⟨t₀, found, held⟩ := holds.table _ _ known
  obtain rfl : t₀ = t := Option.some.inj (found.symm.trans (Store.target_eq_ok targeted))
  have held' := held.insertRecords (relational.tabular _ _ known) (fits e known) inserted
  refine ⟨rfl, holds.names, fun name d known' => ?_⟩
  obtain ⟨t₁, found', other⟩ := holds.table name d known'
  obtain rfl := relational.named _ _ known'
  refine ⟨_, Store.table?_replace (holds.names _ _ known').unreserved found', ?_⟩
  rw [other.name, held'.name]
  by_cases same : d.name = e.name
  · rw [if_pos same, if_pos same]
    rw [same] at known' ⊢
    obtain rfl : e = d := Except.ok.inj (known.symm.trans known')
    exact held'
  · rw [if_neg same, if_neg same]
    exact other

end Database
end Reporting.Sql
