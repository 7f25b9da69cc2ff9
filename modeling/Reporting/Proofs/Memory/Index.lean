import Reporting.Proofs.Memory

/-!
The index of tables in memory. It finds the last record with a primary key (`Table.Indexed`), whatever is inserted into
whichever table (`Memory.Indexed.insert`), and rows of a related entity are those with the keys asked for, in another
order (`Memory.relatedRows_eq_ok`).
-/

namespace Reporting

namespace Table
variable {t : Table} {primaryKey : String}

/-- The record has a primary key, and it is this one. -/
def bears (primaryKey : String) (id : Value) (record : Record) : Bool :=
  !(record.cell primaryKey).isNull && (record.cell primaryKey).key == id.key

/-- The last record with a primary key is found by it. -/
structure Indexed (t : Table) (primaryKey : String) : Prop where
  bounded : ∀ (key : String) (position : Nat), t.positions[key]? = some position → position < t.rows.size
  find?_eq : ∀ id, t.find? id = (t.rows.toList.filter (bears primaryKey id)).getLast?

theorem indexed_empty (primaryKey : String) : empty.Indexed primaryKey where
  bounded key position found := by simp [empty] at found
  find?_eq id := by simp [empty, find?]

theorem Indexed.insert (indexed : t.Indexed primaryKey) (record : Record) : (t.insert primaryKey record).Indexed primaryKey := by
  have rows : (t.insert primaryKey record).rows.toList = t.rows.toList ++ [record] := by simp [Table.insert]
  have size : (t.insert primaryKey record).rows.size = t.rows.size + 1 := by simp [Table.insert]
  -- What is found at a place that was there before is still found there.
  have kept : ∀ id, (t.insert primaryKey record).positions[id.key]? = t.positions[id.key]? →
      (t.insert primaryKey record).find? id = t.find? id := by
    intro id places
    have pushed : (t.insert primaryKey record).rows = t.rows.push record := by simp [Table.insert]
    unfold find?
    rw [places, pushed]
    cases found : t.positions[id.key]? with
    | none => rfl
    | some position =>
      have inside := indexed.bounded _ _ found
      show (t.rows.push record)[position]? = t.rows[position]?
      rw [Array.getElem?_push_lt inside, Array.getElem?_eq_getElem inside]
  cases missing : (record.cell primaryKey).isNull with
  | true =>
    have positions : (t.insert primaryKey record).positions = t.positions := by simp [Table.insert, missing]
    refine ⟨fun key position found => ?_, fun id => ?_⟩
    · rw [positions] at found
      have := indexed.bounded key position found
      omega
    · have bare : bears primaryKey id record = false := by simp [bears, missing]
      rw [rows, List.filter_append, List.filter_cons_of_neg (by simp [bare]), List.filter_nil, List.append_nil,
        ← indexed.find?_eq id]
      exact kept id (by rw [positions])
  | false =>
    have positions : (t.insert primaryKey record).positions =
        t.positions.insert (record.cell primaryKey).key t.rows.size := by simp [Table.insert, missing]
    refine ⟨fun key position found => ?_, fun id => ?_⟩
    · rw [positions, Std.TreeMap.getElem?_insert] at found
      split at found
      · cases found
        omega
      · have := indexed.bounded key position found
        omega
    · rw [rows, List.filter_append]
      by_cases same : (record.cell primaryKey).key = id.key
      · have bearing : bears primaryKey id record = true := by simp [bears, missing, same]
        rw [List.filter_cons_of_pos bearing, List.filter_nil, List.getLast?_concat]
        unfold find?
        rw [positions, Std.TreeMap.getElem?_insert, if_pos (by simp [same])]
        show (t.insert primaryKey record).rows[t.rows.size]? = some record
        simp [Table.insert]
      · have bare : bears primaryKey id record = false := by simp [bears, missing, same]
        rw [List.filter_cons_of_neg (by simp [bare]), List.filter_nil, List.append_nil, ← indexed.find?_eq id]
        exact kept id (by rw [positions, Std.TreeMap.getElem?_insert, if_neg (by simpa using same)])

/-- Where a record has the key, one is found, which has it, too. -/
theorem Indexed.find?_isSome (indexed : t.Indexed primaryKey) {record : Record} (member : record ∈ t.rows.toList) {id : Value}
    (bearing : bears primaryKey id record) : ∃ found ∈ t.rows.toList, t.find? id = some found ∧ bears primaryKey id found := by
  have among : record ∈ t.rows.toList.filter (bears primaryKey id) := List.mem_filter.2 ⟨member, bearing⟩
  rw [indexed.find?_eq]
  cases last : (t.rows.toList.filter (bears primaryKey id)).getLast? with
  | none =>
    rw [List.getLast?_eq_none_iff.1 last] at among
    cases among
  | some found =>
    obtain ⟨inside, has⟩ := List.mem_filter.1 (List.mem_of_getLast? last)
    exact ⟨found, inside, rfl, has⟩

end Table

/-- A cell that is not missing is there. -/
theorem Record.get?_of_cell {record : Record} {name : String} {v : Value} (cell : record.cell name = v)
    (present : v ≠ .null) : record.get? name = some v := by
  unfold Record.cell at cell
  cases there : record.get? name with
  | none =>
    rw [there] at cell
    exact absurd cell.symm present
  | some w =>
    rw [there] at cell
    exact congrArg some cell

namespace Memory
variable {m : Memory}

/-- All tables find the last record with a primary key. -/
def Indexed (m : Memory) : Prop :=
  ∀ name e, m.schema.entity name = .ok e → (m.tableOf name).Indexed e.primaryKey

theorem indexed_empty (schema : Schema) : (empty schema).Indexed := by
  intro name e _
  exact Table.indexed_empty e.primaryKey

theorem insert_eq_ok {m' : Memory} {entity : String} {record : Record} (inserted : m.insert entity record = .ok m') :
    ∃ e, m.schema.entity entity = .ok e ∧ m'.schema = m.schema ∧
      m'.tableOf entity = (m.tableOf entity).insert e.primaryKey record ∧
      ∀ other, other ≠ entity → m'.tableOf other = m.tableOf other := by
  unfold insert at inserted
  split at inserted
  · rename_i e known
    cases inserted
    refine ⟨e, known, rfl, ?_, fun other differ => ?_⟩
    · simp [tableOf]
    · simp [tableOf, Keyed.get?_insert_of_ne _ differ]
  · cases inserted

theorem Indexed.insert (indexed : m.Indexed) {m' : Memory} {entity : String} {record : Record}
    (inserted : m.insert entity record = .ok m') : m'.Indexed := by
  obtain ⟨e, known, schema, table, others⟩ := insert_eq_ok inserted
  intro name e' known'
  rw [schema] at known'
  by_cases same : name = entity
  · subst same
    obtain rfl : e = e' := Except.ok.inj (known.symm.trans known')
    rw [table]
    exact (indexed name e known).insert record
  · rw [others name same]
    exact indexed name e' known'

/-! ## Related rows -/

theorem insertById_perm (primaryKey : String) (record : Record) (sorted : List Record) :
    (insertById primaryKey record sorted).Perm (record :: sorted) := by
  induction sorted with
  | nil => exact .refl _
  | cons last before ih =>
    rw [insertById]
    split
    · exact (ih.cons last).trans (.swap ..)
    · exact .refl _

theorem sortById_perm (primaryKey : String) (records : List Record) : (sortById primaryKey records).Perm records := by
  have step : ∀ sorted : List Record,
      (records.foldl (fun sorted record => insertById primaryKey record sorted) sorted).Perm (records ++ sorted) := by
    induction records with
    | nil => exact fun sorted => .refl _
    | cons first rest ih =>
      intro sorted
      refine (ih _).trans ?_
      exact ((insertById_perm primaryKey first sorted).append_left rest).trans List.perm_middle
  unfold sortById
  refine (List.reverse_perm _).trans ?_
  simpa using step []

theorem filter_wants_nil (primaryKey : String) (records : List Record) :
    records.filter (wants primaryKey (some [])) = [] := by
  refine List.filter_eq_nil_iff.2 fun record _ => ?_
  unfold wants
  cases record.get? primaryKey <;> simp

theorem relatedRows_eq_ok_iff {entity : String} {ids : Option (List Value)} {fields : List String} {found : List Record} :
    m.relatedRows entity ids fields = .ok found ↔ ∃ e places, m.schema.entity entity = .ok e ∧
      m.resolveFields entity fields = .ok places ∧ found = (sortById e.primaryKey
        ((m.tableOf entity).rows.toList.filter (wants e.primaryKey ids))).map (m.projectRelated e.primaryKey places) := by
  unfold relatedRows relatedRowsBy
  constructor
  · intro answered
    obtain ⟨e, known, answered⟩ := Results.bind_eq_ok_iff.1 answered
    obtain ⟨places, resolved, answered⟩ := Results.bind_eq_ok_iff.1 answered
    cases answered
    exact ⟨e, places, known, resolved, rfl⟩
  · rintro ⟨e, places, known, resolved, rfl⟩
    rw [known, Results.bind_eq_ok_iff]
    refine ⟨e, rfl, ?_⟩
    rw [resolved, Results.bind_eq_ok_iff]
    exact ⟨places, rfl, rfl⟩

/-- The rows asked for are there, in another order. -/
theorem relatedRows_eq_ok {entity : String} {ids : Option (List Value)} {fields : List String} {found : List Record}
    (answered : m.relatedRows entity ids fields = .ok found) : ∃ e places, m.schema.entity entity = .ok e ∧
      m.resolveFields entity fields = .ok places ∧
      found.Perm (((m.tableOf entity).rows.toList.filter (wants e.primaryKey ids)).map
        (m.projectRelated e.primaryKey places)) := by
  obtain ⟨e, places, known, resolved, rfl⟩ := relatedRows_eq_ok_iff.1 answered
  exact ⟨e, places, known, resolved, (sortById_perm ..).map _⟩

/-- The primary key is read of a related record, unless a place of that name has another cell. -/
theorem get?_projectRelated_of_cell {primaryKey : String} {places : List (String × ResolvedPath)} {record : Record}
    (keeps : ∀ place, (primaryKey, place) ∈ places → m.cellAt record place = record.cell primaryKey) :
    (m.projectRelated primaryKey places record).get? primaryKey = some (record.cell primaryKey) := by
  unfold projectRelated
  dsimp only
  split
  · rename_i there
    obtain ⟨v, has⟩ := Option.isSome_iff_exists.1 there
    rcases Keyed.mem_of_get?_insertAll has with among | none_
    · obtain ⟨⟨name, place⟩, member, same⟩ := List.mem_map.1 among
      cases same
      rw [has, keeps place member]
    · cases none_
  · exact Keyed.get?_insert_self ..

/-- Where the primary key leads to itself, it is read of every related record. -/
theorem get?_projectRelated {target primaryKey : String} {k : Field} {fields : List String}
    {places : List (String × ResolvedPath)} (named : k.name = primaryKey)
    (own : m.schema.resolve target primaryKey = .ok ⟨target, target, k, []⟩)
    (resolved : m.resolveFields target fields = .ok places) (record : Record) :
    (m.projectRelated primaryKey places record).get? primaryKey = some (record.cell primaryKey) := by
  refine get?_projectRelated_of_cell fun place member => ?_
  have leads := resolve_of_mem_resolveFields resolved member
  rw [own] at leads
  cases leads
  rw [← named]
  rfl

/-- The cell of every record that matches is among the different ones, by its key. -/
theorem exists_key_of_distinctValues {entity path : String} {filters : FilterSet} {place : ResolvedPath}
    {records : List Record} {cells : List Value} (resolved : m.schema.resolve entity path = .ok place)
    (matched : m.matching entity filters = .ok records) (found : m.distinctValues entity filters path = .ok cells)
    {record : Record} (member : record ∈ records) :
    ∃ cell ∈ cells, cell.key = (m.cellAt record place).key ∧ ∃ other ∈ records, m.cellAt other place = cell := by
  obtain ⟨cells', found', keys⟩ := distinctValues_of_matching resolved matched
  obtain rfl : cells = cells' := Except.ok.inj (found.symm.trans found')
  have key : (m.cellAt record place).key ∈ cells.map Value.key := by
    rw [keys, List.mem_eraseDups]
    exact List.mem_map_of_mem (f := fun record => (m.cellAt record place).key) member
  obtain ⟨cell, inside, same⟩ := List.mem_map.1 key
  have given : cells = dedupByKey [] (records.map fun record => m.cellAt record place) := by
    unfold distinctValues at found
    rw [resolved, matched] at found
    exact (Except.ok.inj found).symm
  rw [given] at inside
  obtain ⟨other, among, cellAt⟩ := List.mem_map.1 (mem_of_mem_dedupByKey inside)
  exact ⟨cell, given ▸ inside, same, other, among, cellAt⟩

end Memory
end Reporting
