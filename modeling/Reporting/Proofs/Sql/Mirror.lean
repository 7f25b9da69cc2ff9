import Reporting.Proofs.Memory.Index
import Reporting.Proofs.Sql.Compile
import Reporting.Proofs.Sql.Tables

/-!
Databases that hold what tables in memory hold. A relation leads from a row to the row of the record that it leads to in
memory, and to no other (`Mirrors.partners_eq`), so that joins extend every row in exactly one way: by the rows of the
records that memory reaches over the same relations (`Mirrors.sole_viewOf`).
-/

namespace Reporting

namespace Memory

/-- The record that the relation of the name leads to, and its entity. -/
def next? (m : Memory) (at_ : Entity × Record) (name : String) : Option (Entity × Record) := do
  let relation ← at_.1.relation? name
  let target ← relation.target
  let e ← m.schema.entities.get? target
  let record ← m.related? relation (at_.2.cell name)
  some (e, record)

/-- The record at the end of a walk over the relations of the names, and its entity. -/
def reach? (m : Memory) (e : Entity) (record : Record) (walk : List String) : Option (Entity × Record) :=
  walk.foldlM m.next? (e, record)

/-- The cell of the name at the end of a walk; missing where the walk leads nowhere. -/
def cellOn (m : Memory) (e : Entity) (record : Record) (walk : List String) (name : String) : Value :=
  ((m.reach? e record walk).map fun at_ => at_.2.cell name).getD .null

variable {m : Memory} {root e : Entity} {record r : Record} {walk : List String}

theorem reach?_append_singleton (m : Memory) (root : Entity) (record : Record) (walk : List String) (name : String) :
    m.reach? root record (walk ++ [name]) = (m.reach? root record walk).bind fun at_ => m.next? at_ name := by
  unfold reach?
  rw [List.foldlM_append]
  refine bind_congr fun last => ?_
  simp

/-- Where a relation leads is in the table of its target. -/
theorem next?_eq_some (named : m.schema.Named) (indexed : m.Indexed) {name : String} (reached : m.next? (root, record) name = some (e, r)) :
    m.schema.next? root name = some e ∧ r ∈ (m.tableOf e.name).rows.toList := by
  obtain ⟨relation, found, reached⟩ := Option.bind_eq_some_iff.1 reached
  obtain ⟨target, points, reached⟩ := Option.bind_eq_some_iff.1 reached
  obtain ⟨e', known, reached⟩ := Option.bind_eq_some_iff.1 reached
  obtain ⟨r', related, reached⟩ := Option.bind_eq_some_iff.1 reached
  cases reached
  refine ⟨by simp [Schema.next?, found, points, known], ?_⟩
  have known := Schema.entity_eq_ok_iff.2 known
  unfold related? at related
  split at related
  · cases related
  · rw [points] at related
    dsimp only at related
    rw [(indexed target e known).find?_eq] at related
    rw [named target e known]
    exact (List.mem_filter.1 (List.mem_of_getLast? related)).1

/-- Where a walk leads is in the table of the entity that it leads to. -/
theorem reach?_eq_some (named : m.schema.Named) (indexed : m.Indexed) (member : record ∈ (m.tableOf root.name).rows.toList)
    (reached : m.reach? root record walk = some (e, r)) :
    m.schema.follow root walk = some e ∧ r ∈ (m.tableOf e.name).rows.toList := by
  induction walk using List.reverseRecOn generalizing e r with
  | nil =>
    cases reached
    exact ⟨rfl, member⟩
  | append_singleton before name ih =>
    rw [reach?_append_singleton] at reached
    obtain ⟨⟨d, between⟩, first, last⟩ := Option.bind_eq_some_iff.1 reached
    obtain ⟨next, inside⟩ := next?_eq_some named indexed last
    refine ⟨?_, inside⟩
    rw [Schema.follow_append_singleton, (ih first).1]
    exact next

theorem follow?_eq {hops : List Hop} {last : Entity} (leads : m.schema.Leads root hops last) (record : Record) :
    m.follow? record hops = (m.reach? root record (hops.map fun hop => hop.relation.name)).map Prod.snd := by
  induction leads generalizing record with
  | here e => rfl
  | @cross e next last hop hops target relation points reached rest ih =>
    unfold reach? at ih ⊢
    rw [List.map_cons, List.foldlM_cons, follow?]
    unfold next?
    rw [relation]
    simp only [Option.bind_eq_bind, Option.bind_some, points, Schema.entity_eq_ok_iff.1 reached]
    cases m.related? hop.relation (record.cell hop.relation.name) with
    | none => rfl
    | some r => exact ih r

/-- The cell at the end of a path is that at the end of its walk. -/
theorem cellAt_eq (place : ResolvedPath) {last : Entity} (leads : m.schema.Leads root place.hops last) (record : Record) :
    m.cellAt record place = m.cellOn root record place.walk place.field.name := by
  have step : m.follow? record place.hops = (m.reach? root record place.walk).map Prod.snd := follow?_eq leads record
  unfold cellAt cellOn
  rw [step]
  cases m.reach? root record place.walk <;> rfl

end Memory

namespace Sql

/-! ## Databases that mirror tables in memory -/

/-- The database holds what is in memory: records that its columns keep as they are, told by their primary keys. -/
structure Mirrors (db : Database) (m : Memory) : Prop where
  schema : db.schema = m.schema
  relational : Relational m.schema
  indexed : m.Indexed
  holds : db.Holds fun name => (m.tableOf name).rows.toList
  fits : ∀ name e, m.schema.entity name = .ok e → ∀ record ∈ (m.tableOf name).rows.toList, Fits e record
  told : ∀ name e, m.schema.entity name = .ok e →
    ((m.tableOf name).rows.toList.map fun record => record.cell e.primaryKey).Nodup

/-- The rows of the records that memory reaches from a record. -/
def viewOf (db : Database) (m : Memory) (root : Entity) (record : Record) : View := fun walk =>
  (((m.schema.follow root walk).bind fun e => db.store.table? e.name).getD (Store.tableOf root),
    (m.reach? root record walk).map fun at_ => rowOf at_.1 at_.2)

namespace Mirrors
variable {db : Database} {m : Memory} {e root : Entity} {t : StoredTable} {record : Record} {walk : List String}

theorem tabular (mirrors : Mirrors db m) (known : m.schema.entity e.name = .ok e) : Tabular e :=
  mirrors.relational.tabular _ _ known

theorem table (mirrors : Mirrors db m) (known : m.schema.entity e.name = .ok e) :
    ∃ t, db.store.table? e.name = some t ∧ t.Holds e (m.tableOf e.name).rows.toList :=
  mirrors.holds.table _ _ (by rw [mirrors.schema, known])

/-- The record that is found by a primary key is the only one that has it. -/
theorem bearing_eq (mirrors : Mirrors db m) (known : m.schema.entity e.name = .ok e) (i : Int64) :
    (m.tableOf e.name).rows.toList.filter (Table.bears e.primaryKey (.int i)) = ((m.tableOf e.name).find? (.int i)).toList := by
  let bearing := (m.tableOf e.name).rows.toList.filter (Table.bears e.primaryKey (.int i))
  have cells : ∀ r ∈ bearing, r.cell e.primaryKey = .int i := by
    intro r member
    obtain ⟨inside, bears⟩ := List.mem_filter.1 member
    obtain ⟨j, key⟩ := (mirrors.fits _ _ known r inside).key (mirrors.tabular known)
    simp only [Table.bears, Bool.and_eq_true, beq_iff_eq, key] at bears
    rw [key]
    exact (Value.key_inj rfl rfl).1 bears.2
  have alone : ∀ a b rest, bearing ≠ a :: b :: rest := by
    intro a b rest split
    have once : (bearing.map fun record => record.cell e.primaryKey).Nodup :=
      (mirrors.told _ _ known).sublist (List.filter_sublist.map _)
    have first := cells a (by simp [split])
    have second := cells b (by simp [split])
    rw [split, List.map_cons, List.map_cons, first, second] at once
    simp at once
  rw [(mirrors.indexed _ _ known).find?_eq]
  exact Parts.eq_toList_getLast? alone

/-- A relation's cell is equal to the primary key of the row for the record that memory finds, and of no other. -/
theorem partners_eq (mirrors : Mirrors db m) (known : m.schema.entity e.name = .ok e)
    (holds : t.Holds e (m.tableOf e.name).rows.toList) {v : Value} (kept : FieldKind.relation.Keeps v) :
    partners t e.primaryKey ⟨stored .relation v, .integer⟩ =
      (if v.isNull then none else (m.tableOf e.name).find? v).toList.map (rowOf e) := by
  have tabular := mirrors.tabular known
  obtain ⟨k, field, named, kind⟩ := tabular.key
  have affinity : t.affinity e.primaryKey = .integer := by
    rw [← named, holds.affinity_eq tabular field, kind]
    rfl
  rcases kept with rfl | kept
  · have none_ : partners t e.primaryKey ⟨.null, .integer⟩ = [] := by
      refine List.filter_eq_nil_iff.2 fun row _ => ?_
      simp [equalColumns, Cell.isNull]
    rw [stored_null, none_]
    rfl
  · cases kept with
    | relation i =>
      have perm := holds.rows.filter fun row =>
        equalColumns ⟨stored .relation (.int i), .integer⟩ ⟨t.cell row e.primaryKey, t.affinity e.primaryKey⟩
      have same : (m.tableOf e.name).rows.toList.filter
          ((fun row => equalColumns ⟨stored .relation (.int i), .integer⟩ ⟨t.cell row e.primaryKey, t.affinity e.primaryKey⟩) ∘
            rowOf e) = (m.tableOf e.name).rows.toList.filter (Table.bears e.primaryKey (.int i)) := by
        refine List.filter_congr fun record member => ?_
        obtain ⟨j, key⟩ := (mirrors.fits _ _ known record member).key tabular
        have cell : t.cell (rowOf e record) e.primaryKey = .integer j := by
          rw [← named, holds.cell_rowOf tabular field, kind, named, key]
          rfl
        have keys : (Value.int j).key = (Value.int i).key ↔ Value.int j = .int i := Value.key_inj rfl rfl
        rw [Bool.eq_iff_iff]
        simp only [Function.comp_apply, cell, affinity, Table.bears, key, Value.isNull, Bool.not_false, Bool.true_and,
          beq_iff_eq, keys]
        have equal : equalColumns ⟨stored .relation (.int i), .integer⟩ ⟨.integer j, .integer⟩ =
            (compare i.toInt j.toInt == .eq) := rfl
        rw [equal, beq_iff_eq, Int.compare_eq_eq, Int64.toInt_inj, Value.int.injEq]
        exact eq_comm
      rw [List.filter_map, same, mirrors.bearing_eq known] at perm
      show partners t e.primaryKey _ = ((m.tableOf e.name).find? (.int i)).toList.map (rowOf e)
      cases found : (m.tableOf e.name).find? (.int i) with
      | none =>
        rw [found] at perm
        exact List.perm_nil.1 perm
      | some r =>
        rw [found] at perm
        exact List.perm_singleton.1 perm

/-- What the row of a record at the end of a walk has in a column. -/
theorem operandOf_viewOf (mirrors : Mirrors db m) (member : record ∈ (m.tableOf root.name).rows.toList)
    (reached : m.schema.follow root walk = some e) (known : m.schema.entity e.name = .ok e) {f : Field} (field : f ∈ e.fields) :
    operandOf (viewOf db m root record walk) f.name =
      ⟨stored f.kind (m.cellOn root record walk f.name), .ofKind f.kind⟩ := by
  have tabular := mirrors.tabular known
  obtain ⟨t, found, holds⟩ := mirrors.table known
  unfold operandOf viewOf Memory.cellOn
  simp only [reached, Option.bind_some, found, Option.getD_some, holds.affinity_eq tabular field]
  cases there : m.reach? root record walk with
  | none => simp [stored_null]
  | some at_ =>
    obtain ⟨d, r⟩ := at_
    obtain ⟨reached', _⟩ := Memory.reach?_eq_some mirrors.relational.named mirrors.indexed member there
    obtain rfl : e = d := Option.some.inj (reached.symm.trans reached')
    simp [holds.cell_rowOf tabular field]

/-- Columns keep as it is what a walk leads to. -/
theorem keeps_cellOn (mirrors : Mirrors db m) (member : record ∈ (m.tableOf root.name).rows.toList)
    (reached : m.schema.follow root walk = some e) (known : m.schema.entity e.name = .ok e) {f : Field} (field : f ∈ e.fields) :
    f.kind.Keeps (m.cellOn root record walk f.name) := by
  unfold Memory.cellOn
  cases there : m.reach? root record walk with
  | none => exact Or.inl rfl
  | some at_ =>
    obtain ⟨d, r⟩ := at_
    obtain ⟨reached', inside⟩ := Memory.reach?_eq_some mirrors.relational.named mirrors.indexed member there
    obtain rfl : e = d := Option.some.inj (reached.symm.trans reached')
    exact (mirrors.fits _ _ known r inside).keeps f field

/-- What the row of a record has at the end of a path is what its column keeps of the record's cell there. -/
theorem operand_viewOf (mirrors : Mirrors db m) (rootKnown : m.schema.entity root.name = .ok root)
    (member : record ∈ (m.tableOf root.name).rows.toList) {path : String} {place : ResolvedPath}
    (resolved : m.schema.resolve root.name path = .ok place) :
    (viewOf db m root record).operand place =
      ⟨stored place.field.kind (m.cellAt record place), .ofKind place.field.kind⟩ := by
  obtain ⟨last, leads, field⟩ := Schema.leads_of_resolve rootKnown resolved
  have reached : m.schema.follow root place.walk = some last := leads.follow_eq
  have known := Schema.entity_of_follow mirrors.relational.named rootKnown reached
  unfold View.operand
  rw [mirrors.operandOf_viewOf member reached known field, Memory.cellAt_eq place leads]

theorem keeps_cellAt (mirrors : Mirrors db m) (rootKnown : m.schema.entity root.name = .ok root)
    (member : record ∈ (m.tableOf root.name).rows.toList) {path : String} {place : ResolvedPath}
    (resolved : m.schema.resolve root.name path = .ok place) : place.field.kind.Keeps (m.cellAt record place) := by
  obtain ⟨last, leads, field⟩ := Schema.leads_of_resolve rootKnown resolved
  have reached : m.schema.follow root place.walk = some last := leads.follow_eq
  rw [Memory.cellAt_eq place leads]
  exact mirrors.keeps_cellOn member reached (Schema.entity_of_follow mirrors.relational.named rootKnown reached) field

/-- The rows of the records that memory reaches are the only ones that are linked. -/
theorem sole_viewOf (mirrors : Mirrors db m) (rootKnown : m.schema.entity root.name = .ok root)
    (member : record ∈ (m.tableOf root.name).rows.toList) {joins : List Join} {walks : List (List String)}
    (along : Along db.schema root joins walks) : (viewOf db m root record).Sole db root walks := by
  intro before name inside
  have named := mirrors.relational.named
  obtain ⟨e, reached⟩ := along.follow_of_mem (List.mem_cons_of_mem _ inside)
  rw [mirrors.schema] at reached ⊢
  have known := Schema.entity_of_follow named rootKnown reached
  obtain ⟨t, found, holds⟩ := mirrors.table known
  refine ⟨e, t, reached, found, by simp [viewOf, reached, found], ?_⟩
  rw [Schema.follow_append_singleton] at reached
  obtain ⟨d, start, next⟩ := Option.bind_eq_some_iff.1 reached
  obtain ⟨f, relation, next'⟩ := Option.bind_eq_some_iff.1 next
  obtain ⟨target, points, there⟩ := Option.bind_eq_some_iff.1 next'
  obtain rfl := named _ _ (Schema.entity_eq_ok_iff.2 there)
  have knownD := Schema.entity_of_follow named rootKnown start
  have field : f ∈ d.fields := List.mem_of_find?_eq_some relation
  obtain ⟨rfl, kind⟩ : f.name = name ∧ f.kind = .relation := by
    simpa [Field.isRelation] using List.find?_some relation
  have operand := mirrors.operandOf_viewOf member start knownD field
  have kept := mirrors.keeps_cellOn member start knownD field
  rw [kind] at operand kept
  rw [operand]
  refine (mirrors.partners_eq known holds kept).trans ?_
  unfold viewOf Memory.cellOn
  rw [Memory.reach?_append_singleton]
  cases first : m.reach? root record before with
  | none => rfl
  | some at_ =>
    obtain ⟨d', r⟩ := at_
    obtain rfl : d = d' := Option.some.inj (start.symm.trans (Memory.reach?_eq_some named mirrors.indexed member first).1)
    simp only [Option.map_some, Option.getD_some, Option.bind_some, Memory.next?, relation, points, there,
      Option.bind_eq_bind, Memory.related?]
    cases (r.cell f.name).isNull with
    | true => rfl
    | false =>
      cases (m.tableOf e.name).find? (r.cell f.name) <;> rfl

/-- A statement goes over the views of the records whose rows its table has, in the order of the rows. -/
theorem matching_of_rows (mirrors : Mirrors db m) (rootKnown : m.schema.entity root.name = .ok root) {s : Select}
    (own : s.table = root.name) {walks : List (List String)} (along : Along db.schema root s.joins walks)
    {first : StoredTable} {joins : List (StoredTable × Join)} (checked : s.check db.store = .ok (first, joins))
    {records : List Record} (inside : ∀ record ∈ records, record ∈ (m.tableOf root.name).rows.toList)
    (rows : first.rows.toList = records.map (rowOf root)) :
    s.matching first joins = (records.map fun record => ([] :: walks).map (viewOf db m root record)).filter fun joined =>
      s.tests.all fun test => test.eval (Joined.operand joined) == some true := by
  obtain ⟨table, joined⟩ := Select.check_eq_ok checked
  rw [own] at table
  have sole : ∀ v ∈ records.map (viewOf db m root), v.Sole db root walks := by
    intro v member
    obtain ⟨record, among, rfl⟩ := List.mem_map.1 member
    exact mirrors.sole_viewOf rootKnown (inside record among) along
  have views := along.joinAll_eq ((s.map_join_boundJoins joins).trans (Select.joinedTables_eq_ok joined).1)
    (Select.table?_of_mem_boundJoins joined) sole
  rw [List.map_map, List.map_map] at views
  have starts : (first.rows.toList.map fun row => [(first, some row)]) =
      records.map ((fun v : View => [v []]) ∘ viewOf db m root) := by
    rw [rows, List.map_map]
    refine List.map_congr_left fun record _ => ?_
    show [(first, some (rowOf root record))] = [viewOf db m root record []]
    simp [viewOf, Schema.follow, Memory.reach?, table]
  unfold Select.matching
  rw [starts, views]
  rfl

/-- A statement goes over the views of the records, each of them once. -/
theorem matching_eq (mirrors : Mirrors db m) (rootKnown : m.schema.entity root.name = .ok root) {s : Select}
    (own : s.table = root.name) {walks : List (List String)} (along : Along db.schema root s.joins walks)
    {first : StoredTable} {joins : List (StoredTable × Join)} (checked : s.check db.store = .ok (first, joins)) :
    ∃ records : List Record, records.Perm (m.tableOf root.name).rows.toList ∧
      s.matching first joins = (records.map fun record => ([] :: walks).map (viewOf db m root record)).filter fun joined =>
        s.tests.all fun test => test.eval (Joined.operand joined) == some true := by
  obtain ⟨table, _⟩ := Select.check_eq_ok checked
  obtain ⟨t, found, holds⟩ := mirrors.table rootKnown
  rw [own] at table
  obtain rfl : first = t := Option.some.inj (table.symm.trans found)
  obtain ⟨records, perm, rows⟩ := Parts.exists_of_perm_map holds.rows
  exact ⟨records, perm, mirrors.matching_of_rows rootKnown own along checked (fun record => perm.mem_iff.1) rows⟩

end Mirrors
end Sql
end Reporting
