import Reporting.Proofs.Report.Grouped
import Reporting.Proofs.Sql.Agreement
import Reporting.Proofs.Sql.Numbers

/-!
The order in which sources that were given the same records answer. Memory keeps records as they were inserted, a database
by their primary keys, and both read rows and different values in the order in which they keep the records
(`Loaded.storage_order`).
-/

namespace Reporting

namespace Memory

/-- At the end of the path of each predicate the record passes the test. -/
def admits (m : Memory) (entity : String) (test : FieldKind → Predicate → Value → Bool) (filters : FilterSet)
    (record : Record) : Bool :=
  filters.all fun p =>
    match m.schema.resolve entity p.path with
    | .ok place => test place.field.kind p (m.cellAt record place)
    | .error _ => false

/-- The records of an entity in the order of their primary keys. -/
def sorted (m : Memory) (e : Entity) : List Record :=
  sortById e.primaryKey (m.tableOf e.name).rows.toList

variable {m : Memory} {entity : String} {filters : FilterSet}

theorem sorted_perm (m : Memory) (e : Entity) : (m.sorted e).Perm (m.tableOf e.name).rows.toList :=
  sortById_perm ..

theorem mem_table_of_sorted {e : Entity} : ∀ record ∈ m.sorted e, record ∈ (m.tableOf e.name).rows.toList :=
  fun _ => (m.sorted_perm e).mem_iff.1

theorem filter_admits_nil (test : FieldKind → Predicate → Value → Bool) (records : List Record) :
    records.filter (m.admits entity test []) = records :=
  List.filter_eq_self.2 fun _ _ => rfl

/-- The records that match are those of the table that pass the predicates, in its order. -/
theorem matching_eq_filter {records : List Record} (matched : m.matching entity filters = .ok records) :
    records = (m.tableOf entity).rows.toList.filter (m.admits entity (fun _ => Predicate.accepts) filters) := by
  obtain ⟨all, tests, rows, resolved, rfl⟩ := matching_eq_ok_iff.1 matched
  have same : all = (m.tableOf entity).rows.toList := by
    unfold Memory.records at rows
    split at rows
    · cases rows
      rfl
    · cases rows
  rw [same]
  refine List.filter_congr fun record _ => ?_
  clear rows matched same
  induction filters generalizing tests with
  | nil =>
    cases resolved
    rfl
  | cons p rest ih =>
    obtain ⟨place, others, found, later, rfl⟩ := resolveFilters_cons_eq_ok_iff.1 resolved
    have tail := ih others later
    unfold passes admits at tail ⊢
    rw [List.all_cons, List.all_cons, tail, found]

end Memory

/-- The source reads rows and different values off the records in this order, as far as they pass the test of predicates. -/
structure Source.Reads (s : Source) (m : Memory) (e : Entity) (test : FieldKind → Predicate → Value → Bool)
    (records : List Record) : Prop where
  rows : ∀ filters fields found, s.rows e.name filters fields = .ok found → ∃ places,
    m.resolveFields e.name fields = .ok places ∧
    found = (records.filter (m.admits e.name test filters)).map fun record => m.project record places
  distinctValues : ∀ filters path place found, m.schema.resolve e.name path = .ok place → place.field.kind.isTold →
    s.distinctValues e.name filters path = .ok found →
    found = Memory.dedupByKey [] ((records.filter (m.admits e.name test filters)).map fun record => m.cellAt record place)

theorem Memory.reads (m : Memory) (e : Entity) :
    m.source.Reads m e (fun _ => Predicate.accepts) (m.tableOf e.name).rows.toList where
  rows filters fields found answered := by
    obtain ⟨places, resolved, answered⟩ := Results.bind_eq_ok_iff.1 answered
    obtain ⟨records, matched, answered⟩ := Results.bind_eq_ok_iff.1 answered
    cases answered
    exact ⟨places, resolved, by rw [matching_eq_filter matched]⟩
  distinctValues filters path place found resolved _ answered := by
    obtain ⟨place', resolved', answered⟩ := Results.bind_eq_ok_iff.1 answered
    obtain rfl : place = place' := Except.ok.inj (resolved.symm.trans resolved')
    obtain ⟨records, matched, answered⟩ := Results.bind_eq_ok_iff.1 answered
    cases answered
    rw [matching_eq_filter matched]

/-! ## Rows of reports -/

namespace BaseRow
variable {s s' : Source} {m : Memory} {e : Entity} {test test' : FieldKind → Predicate → Value → Bool}
  {records : List Record} {o : ReportOptions} {shape : Shape} {w w' after after' : Workspace} {rows rows' : List BaseRow}

/-- Of sources that read off the same records in the same order, a report by no path over relations has the same rows. -/
theorem ask_of_reads (reads : s.Reads m e test records) (reads' : s'.Reads m e test' records) (entity : o.entity = e.name)
    (whole : o.groupSets = []) (unrelated : shape.relatedEntity = none)
    (told : ∀ path, o.groupBy = some path → ∃ place, m.schema.resolve e.name path = .ok place ∧ place.field.kind.isTold)
    (alike : ∀ record ∈ records, m.admits e.name test shape.rowFilters record =
      m.admits e.name test' shape.rowFilters record)
    (asked : ask o shape s w = (.ok rows, after)) (asked' : ask o shape s' w' = (.ok rows', after')) : rows = rows' := by
  have kept : records.filter (m.admits e.name test shape.rowFilters) =
      records.filter (m.admits e.name test' shape.rowFilters) := List.filter_congr alike
  unfold ask at asked asked'
  rw [if_neg (by simp [whole]), unrelated, entity] at asked asked'
  cases split : o.groupBy with
  | some path =>
    rw [split] at asked asked'
    obtain ⟨place, resolved, kind⟩ := told path split
    obtain ⟨cells, _, answered, asked⟩ := Session.bind_eq_ok asked
    obtain ⟨cells', _, answered', asked'⟩ := Session.bind_eq_ok asked'
    cases asked
    cases asked'
    rw [reads.distinctValues _ _ place _ resolved kind (Session.ask_eq_ok answered),
      reads'.distinctValues _ _ place _ resolved kind (Session.ask_eq_ok answered'), kept]
  | none =>
    rw [split] at asked asked'
    dsimp only at asked asked'
    split at asked
    · rename_i single
      rw [if_pos single] at asked'
      cases asked
      cases asked'
      rfl
    · rename_i several
      rw [if_neg several] at asked'
      obtain ⟨found, _, answered, asked⟩ := Session.bind_eq_ok asked
      obtain ⟨found', _, answered', asked'⟩ := Session.bind_eq_ok asked'
      cases asked
      cases asked'
      obtain ⟨places, resolved, rfl⟩ := reads.rows _ _ _ (Session.ask_eq_ok answered)
      obtain ⟨places', resolved', rfl⟩ := reads'.rows _ _ _ (Session.ask_eq_ok answered')
      obtain rfl : places = places' := Except.ok.inj (resolved.symm.trans resolved')
      rw [kept]

end BaseRow

namespace Sql

/-! ## Numbers of rows -/

/-- No field but the primary key has the name of row numbers. -/
def Unhidden (e : Entity) : Prop :=
  ∀ f ∈ e.fields, sameName f.name rowNumber.name → f.name = e.primaryKey

instance (e : Entity) : Decidable (Unhidden e) :=
  inferInstanceAs (Decidable (∀ f ∈ e.fields, sameName f.name rowNumber.name → f.name = e.primaryKey))

theorem StoredTable.columnIndex?_congr {t : StoredTable} {a b : String} (same : sameName a b) :
    t.columnIndex? a = t.columnIndex? b := by
  unfold columnIndex? sameName
  rw [beq_iff_eq.1 same]

/-- The test of a predicate is true of what a column of the kind keeps of the value. -/
def isTrueOf (kind : FieldKind) (p : Predicate) (v : Value) : Bool :=
  truthOf p kind (keptOperand kind v) == some true

/-- The records that pass, in the order of the numbers of their rows, whatever tables are joined to theirs. -/
structure ByNumber (db : Database) (m : Memory) (root : Entity) (filters : FilterSet) (records : List Record) : Prop where
  inside : ∀ record ∈ records, record ∈ (m.tableOf root.name).rows.toList
  sorted : ∀ walks : List (List String), sortRows rowNumber (((m.sorted root).filter
      (m.admits root.name isTrueOf filters)).map fun record => ([] :: walks).map (viewOf db m root record)) =
    records.map fun record => ([] :: walks).map (viewOf db m root record)

namespace Mirrors
variable {db : Database} {m : Memory} {root : Entity} {record : Record} {records : List Record} {walks : List (List String)}
  {filters : FilterSet}

theorem ascending_sorted (mirrors : Mirrors db m) (rootKnown : m.schema.entity root.name = .ok root) :
    Ascending root.primaryKey (m.sorted root) :=
  ascending_sortById fun record member => (mirrors.fits _ _ rootKnown record member).key (mirrors.tabular rootKnown)

/-- The records of a table are in the order of their primary keys in one way only. -/
theorem sorted_eq (mirrors : Mirrors db m) (rootKnown : m.schema.entity root.name = .ok root)
    (perm : records.Perm (m.tableOf root.name).rows.toList) (ascending : Ascending root.primaryKey records) :
    m.sorted root = records :=
  mirrors.eq_of_ascending rootKnown (fun _ => perm.mem_iff.1) ((m.sorted_perm root).trans perm.symm)
    (mirrors.ascending_sorted rootKnown) ascending

/-- The rows of a table stand in the order of the primary keys of the records. -/
theorem table_rows (mirrors : Mirrors db m) (numbered : db.Numbered) (rootKnown : m.schema.entity root.name = .ok root)
    {t : StoredTable} (found : db.store.table? root.name = some t) : t.rows.toList = (m.sorted root).map (rowOf root) := by
  obtain ⟨t', found', holds⟩ := mirrors.table rootKnown
  obtain rfl : t = t' := Option.some.inj (found.symm.trans found')
  have names := mirrors.holds.names root.name root (by rw [mirrors.schema, rootKnown])
  rw [Store.table?_of_unreserved _ names.unreserved] at found
  have ordered := numbered t (List.mem_of_find?_eq_some found)
  obtain ⟨records, perm, rows⟩ := Parts.exists_of_perm_map holds.rows
  unfold StoredTable.Numbered InOrder at ordered
  rw [rows, List.pairwise_map] at ordered
  rw [rows, mirrors.sorted_eq rootKnown perm (ordered.imp Int.le_of_lt)]

theorem cell_number {t : StoredTable} (found : db.store.table? root.name = some t) (record : Record)
    (walks : List (List String)) : Joined.cell (([] :: walks).map (viewOf db m root record)) rowNumber =
      t.cell (rowOf root record) rowNumber.name := by
  have entry : (([] :: walks).map (viewOf db m root record))[rowNumber.table]? = some (t, some (rowOf root record)) := by
    show some (viewOf db m root record []) = _
    simp [viewOf, Schema.follow, Memory.reach?, found]
  unfold Joined.cell
  rw [Joined.operand_eq entry]
  rfl

/-- Where a column has the name of row numbers, its cells are read as these. -/
theorem number_of_field (mirrors : Mirrors db m) (rootKnown : m.schema.entity root.name = .ok root) {f : Field}
    (field : f ∈ root.fields) (hides : sameName f.name rowNumber.name) (record : Record) (walks : List (List String)) :
    Joined.cell (([] :: walks).map (viewOf db m root record)) rowNumber = stored f.kind (record.cell f.name) := by
  obtain ⟨t, found, holds⟩ := mirrors.table rootKnown
  rw [cell_number found]
  unfold StoredTable.cell
  rw [← StoredTable.columnIndex?_congr hides]
  exact holds.cell_rowOf (mirrors.tabular rootKnown) field record

/-- The number of the row of a record is its primary key, unless another field has the name of row numbers. -/
theorem number_viewOf (mirrors : Mirrors db m) (rootKnown : m.schema.entity root.name = .ok root) (unhidden : Unhidden root)
    (member : record ∈ (m.tableOf root.name).rows.toList) (walks : List (List String)) :
    ∃ i, record.cell root.primaryKey = .int i ∧
      Joined.cell (([] :: walks).map (viewOf db m root record)) rowNumber = .integer i := by
  have tabular := mirrors.tabular rootKnown
  obtain ⟨k, field, named, kind⟩ := tabular.key
  obtain ⟨i, key⟩ := (mirrors.fits _ _ rootKnown record member).key tabular
  refine ⟨i, key, ?_⟩
  by_cases own : sameName k.name rowNumber.name
  · rw [mirrors.number_of_field rootKnown field own, kind, named, key]
    rfl
  · obtain ⟨t, found, holds⟩ := mirrors.table rootKnown
    have none_ : t.columnIndex? rowNumber.name = none := by
      refine List.findIdx?_eq_none_iff.2 fun c inside => ?_
      rw [holds.columns] at inside
      obtain ⟨f, among, rfl⟩ := List.mem_map.1 inside
      rw [← Bool.not_eq_true]
      intro hides
      exact own (named.trans (unhidden f among hides).symm ▸ hides)
    rw [cell_number found]
    unfold StoredTable.cell
    rw [none_]
    show Cell.integer (Int64.ofInt (keyNumber (record.cell root.primaryKey))) = _
    rw [key]
    exact congrArg Cell.integer (Int64.ofInt_toInt i)

/-- In the order of their primary keys, records have rows with ascending numbers. -/
theorem rising_viewOf (mirrors : Mirrors db m) (rootKnown : m.schema.entity root.name = .ok root) (unhidden : Unhidden root)
    (inside : records.Sublist (m.sorted root)) (walks : List (List String)) :
    Rising (records.map fun record => ([] :: walks).map (viewOf db m root record)) := by
  have number := fun {record : Record} (member : record ∈ records) =>
    mirrors.number_viewOf rootKnown unhidden (Memory.mem_table_of_sorted record (inside.subset member)) walks
  have ascending := (mirrors.ascending_sorted rootKnown).sublist inside
  have apart : (records.map fun record => record.cell root.primaryKey).Nodup :=
    (((m.sorted_perm root).map _).nodup_iff.2 (mirrors.told _ _ rootKnown)).sublist (inside.map _)
  refine ⟨fun row member => ?_, List.pairwise_map.2 ?_⟩
  · obtain ⟨record, among, rfl⟩ := List.mem_map.1 member
    obtain ⟨i, _, integer⟩ := number among
    exact ⟨i, integer⟩
  · refine (ascending.and (List.pairwise_map.1 apart)).imp_of_mem fun {a b} memberA memberB both => ?_
    obtain ⟨below, differ⟩ := both
    obtain ⟨i, keyA, integerA⟩ := number memberA
    obtain ⟨j, keyB, integerB⟩ := number memberB
    rw [keyA, keyB] at below differ
    rw [integerA, integerB]
    refine Int.compare_eq_lt.2 (Int.lt_iff_le_and_ne.2 ⟨below, fun same => differ ?_⟩)
    rw [Int64.toInt_inj.1 same]

/-! ## Statements -/

theorem passes_viewOf (mirrors : Mirrors db m) (rootKnown : m.schema.entity root.name = .ok root)
    (member : record ∈ (m.tableOf root.name).rows.toList) (filters : FilterSet) :
    (∀ p ∈ filters, (viewOf db m root record).Passes m.schema root p) ↔ m.admits root.name isTrueOf filters record := by
  unfold Memory.admits View.Passes
  rw [List.all_eq_true]
  refine forall₂_congr fun p _ => ?_
  cases resolved : m.schema.resolve root.name p.path with
  | error e => simp
  | ok place => simp [mirrors.operand_viewOf rootKnown member resolved, isTrueOf, keptOperand]

/-- A statement goes over the records that pass its tests, in the order of their primary keys. -/
theorem selected_eq (mirrors : Mirrors db m) (numbered : db.Numbered) (rootKnown : m.schema.entity root.name = .ok root)
    {tests : List Test} {out : Output} {j j' : Joins} (numbers : j.Numbers m.schema root walks)
    (ran : filters.mapM (compilePredicate m.schema root) j = .ok (tests, j')) {rows : List Joined}
    (selected : db.selected ⟨root.name, j'.joins, tests, out⟩ = .ok rows) :
    ∃ more, rows = ((m.sorted root).filter (m.admits root.name isTrueOf filters)).map fun record =>
      ([] :: (walks ++ more)).map (viewOf db m root record) := by
  obtain ⟨more, numbers', tested, _⟩ := tests_eq_ok mirrors.relational.named rootKnown numbers ran
  obtain ⟨⟨first, joins⟩, checked, rfl⟩ := Results.map_eq_ok_iff.1 selected
  refine ⟨more, ?_⟩
  dsimp only
  rw [mirrors.matching_of_rows rootKnown rfl (mirrors.schema ▸ numbers'.along) checked Memory.mem_table_of_sorted
    (mirrors.table_rows numbered rootKnown (Select.check_eq_ok checked).1), List.filter_map]
  refine congrArg (List.map _) (List.filter_congr fun record member => ?_)
  rw [Bool.eq_iff_iff, ← mirrors.passes_viewOf rootKnown (Memory.mem_table_of_sorted record member), ← tested]
  rfl

/-- What a statement for rows yields: those of the records that pass, sorted by the numbers of their rows. -/
theorem query_eq_of_sorted (mirrors : Mirrors db m) (numbered : db.Numbered) (rootKnown : m.schema.entity root.name = .ok root)
    {names : List String} {places : List (String × ResolvedPath)} (placed : m.schema.placesOf root.name names = .ok places)
    {compiled : Compiled} (compiles : compileRows m.schema root.name filters names none = .ok compiled)
    {read : List (List Value)} (queried : db.query compiled = .ok read) (sorted : ByNumber db m root filters records) :
    Database.named names read = records.map fun record => m.project record places := by
  obtain ⟨root', out, kinds, between, tests, j, known, first, second, rfl⟩ := compile_eq_ok compiles
  obtain rfl : root = root' := Except.ok.inj (rootKnown.symm.trans known)
  obtain ⟨columns, middle, ran, last⟩ := run_bind_eq_ok_iff.1 first
  cases last
  obtain ⟨columns', j', walks, ran', numbers, stand⟩ :=
    columnsAt_of_places mirrors.relational.named rootKnown (Joins.numbers_none m.schema root) placed
  cases ran.symm.trans ran'
  rw [List.nil_append] at numbers stand
  obtain ⟨_, yields, _⟩ := Results.map_eq_ok_iff.1 queried
  obtain ⟨⟨table, joins⟩, checked, _⟩ := Results.bind_eq_ok_iff.1 yields
  obtain ⟨more, matching⟩ := mirrors.selected_eq numbered rootKnown numbers second
    (Results.map_eq_ok_iff.2 ⟨_, checked, rfl⟩)
  dsimp only at matching
  rw [Database.query_of_rows rfl checked, matching, Option.getD_none, sorted.sorted] at queried
  cases queried
  exact mirrors.named_eq rootKnown sorted.inside (stand.imp fun c p here => ⟨here.1.mono more, here.2⟩) placed

/-- Rows that are read are those of the records that pass, sorted by the numbers of their rows. -/
theorem rows_of_sorted (mirrors : Mirrors db m) (numbered : db.Numbered) (rootKnown : m.schema.entity root.name = .ok root)
    {fields : List String} {found : List Record} (answered : db.rows root.name filters fields = .ok found)
    (sorted : ByNumber db m root filters records) : ∃ places, m.resolveFields root.name fields = .ok places ∧
      found = records.map fun record => m.project record places := by
  obtain ⟨names, paths, answered⟩ := Results.bind_eq_ok_iff.1 answered
  obtain ⟨compiled, compiles, answered⟩ := Results.bind_eq_ok_iff.1 answered
  obtain ⟨read, queried, rfl⟩ := Results.map_eq_ok_iff.1 answered
  rw [mirrors.schema] at paths compiles
  cases placed : m.schema.placesOf root.name names with
  | error e =>
    rw [compileRows_of_error rootKnown placed] at compiles
    cases compiles
  | ok places =>
    refine ⟨places, ?_, mirrors.query_eq_of_sorted numbered rootKnown placed compiles queried sorted⟩
    rw [m.resolveFields_eq, Results.bind_of_ok paths, placed]

/-- The different values that are read off the rows of records. -/
theorem distinctCells_viewOf (mirrors : Mirrors db m) (rootKnown : m.schema.entity root.name = .ok root)
    (unhidden : Unhidden root) (inside : records.Sublist (m.sorted root)) {path : String} {place : ResolvedPath}
    (resolved : m.schema.resolve root.name path = .ok place) {c : Column} (at_ : c.At walks place)
    (told : place.field.kind.isTold) :
    (distinctCells c (records.map fun record => ([] :: walks).map (viewOf db m root record))).map (decode place.field.kind) =
      Memory.dedupByKey [] (records.map fun record => m.cellAt record place) := by
  have among : ∀ record ∈ records, record ∈ (m.tableOf root.name).rows.toList := fun record member =>
    Memory.mem_table_of_sorted record (inside.subset member)
  have rising := mirrors.rising_viewOf rootKnown unhidden inside walks
  let cells := records.map fun record => Joined.cell (([] :: walks).map (viewOf db m root record)) c
  have keys : ∀ a ∈ cells, ∀ b ∈ cells, (decode place.field.kind a).key = (decode place.field.kind b).key → a = b := by
    intro a memberA b memberB same
    obtain ⟨r, insideR, rfl⟩ := List.mem_map.1 memberA
    obtain ⟨s, insideS, rfl⟩ := List.mem_map.1 memberB
    exact mirrors.cell_eq_of_told rootKnown among resolved at_ told _ (List.mem_map_of_mem insideR) _
      (List.mem_map_of_mem insideS) same
  have values : cells.map (decode place.field.kind) = records.map fun record => m.cellAt record place := by
    rw [List.map_map]
    exact List.map_congr_left fun record member => mirrors.value_viewOf rootKnown (among record member) resolved at_
  rw [distinctCells_eq (mirrors.isPlain_of_told rootKnown among resolved at_ told) rising, List.map_map, ← values,
    Memory.dedupByKey_map keys, List.filter_eq_self.2 fun _ _ => by simp]
  rfl

/-- The database reads off its records in the order of their primary keys. -/
theorem reads (mirrors : Mirrors db m) (numbered : db.Numbered) (rootKnown : m.schema.entity root.name = .ok root)
    (unhidden : Unhidden root) : db.source.Reads m root isTrueOf (m.sorted root) where
  rows filters fields found answered :=
    mirrors.rows_of_sorted numbered rootKnown answered
      ⟨fun record member => Memory.mem_table_of_sorted record (List.mem_filter.1 member).1,
        fun walks => sortRows_number (mirrors.rising_viewOf rootKnown unhidden List.filter_sublist walks)⟩
  distinctValues filters path place found resolved told answered := by
    obtain ⟨compiled, compiles, queried⟩ := Results.bind_eq_ok_iff.1 answered
    obtain ⟨read, yields, rfl⟩ := Results.map_eq_ok_iff.1 queried
    obtain ⟨yielded, ran, rfl⟩ := Results.map_eq_ok_iff.1 yields
    rw [mirrors.schema] at compiles
    obtain ⟨root', out, kinds, between, tests, j, known, first, second, rfl⟩ := compile_eq_ok compiles
    obtain rfl : root = root' := Except.ok.inj (rootKnown.symm.trans known)
    obtain ⟨⟨c, kind⟩, middle, toColumn, last⟩ := run_bind_eq_ok_iff.1 first
    cases last
    obtain ⟨place', walks, resolved', rfl, numbers, at_, _⟩ :=
      columnAt_eq_ok mirrors.relational.named rootKnown (Joins.numbers_none m.schema root) toColumn
    obtain rfl : place = place' := Except.ok.inj (resolved.symm.trans resolved')
    obtain ⟨rows, selected, rfl⟩ := Select.run_distinct_eq_ok rfl ran
    obtain ⟨more, rfl⟩ := mirrors.selected_eq numbered rootKnown numbers second selected
    rw [filterMap_head?_decode]
    exact mirrors.distinctCells_viewOf rootKnown unhidden List.filter_sublist resolved (at_.mono more) told

/-- Within the limits, whatever leads to fields is read. -/
theorem exists_rows (mirrors : Mirrors db m) (rootKnown : m.schema.entity root.name = .ok root) {fields : List String}
    {places : List (String × ResolvedPath)} (resolved : m.resolveFields root.name fields = .ok places)
    (within : db.Within (.rows root.name [] fields)) : ∃ found, db.rows root.name [] fields = .ok found := by
  have both := mirrors.rows_both within
  unfold Memory.rows at both
  rw [Results.bind_of_ok resolved, Results.bind_of_ok (Memory.matching_nil rootKnown)] at both
  generalize db.rows root.name [] fields = answer at both ⊢
  cases both with
  | ok _ => exact ⟨_, rfl⟩

theorem rows_eq (mirrors : Mirrors db m) (numbered : db.Numbered) (rootKnown : m.schema.entity root.name = .ok root)
    (unhidden : Unhidden root) {fields : List String} {places : List (String × ResolvedPath)}
    (resolved : m.resolveFields root.name fields = .ok places) (within : db.Within (.rows root.name [] fields)) :
    db.rows root.name [] fields = .ok ((m.sorted root).map fun record => m.project record places) := by
  obtain ⟨found, answered⟩ := mirrors.exists_rows rootKnown resolved within
  obtain ⟨places', resolved', rfl⟩ := (mirrors.reads numbered rootKnown unhidden).rows [] fields found answered
  obtain rfl : places = places' := Except.ok.inj (resolved.symm.trans resolved')
  rw [answered, Memory.filter_admits_nil]

theorem distinctValues_eq (mirrors : Mirrors db m) (numbered : db.Numbered) (rootKnown : m.schema.entity root.name = .ok root)
    (unhidden : Unhidden root) {path : String} {place : ResolvedPath} (resolved : m.schema.resolve root.name path = .ok place)
    (told : place.field.kind.isTold) (within : db.Within (.distinct root.name [] path)) :
    db.distinctValues root.name [] path =
      .ok (Memory.dedupByKey [] ((m.sorted root).map fun record => m.cellAt record place)) := by
  obtain ⟨_, found, _, answered, _⟩ := mirrors.exists_distinctValues rootKnown resolved told within
  rw [answered, (mirrors.reads numbered rootKnown unhidden).distinctValues [] path place found resolved told answered,
    Memory.filter_admits_nil]

end Mirrors

/-! ## Sources that were given the same records -/

theorem Database.Numbered.insertBatches {db db' : Database} {batches : List (String × List Record)} (numbered : db.Numbered)
    (ran : db.insertBatches batches = .ok db') : db'.Numbered :=
  Results.of_foldlM (fun _ _ _ _ numbered inserted => numbered.insert inserted) numbered ran

/-- Memory answers from the records in the one order and the database in the other, which is that of their primary keys.
Where both are the same, so are the rows of reports that are not grouped over relations. -/
structure StorageOrder (m : Memory) (db : Database) (e : Entity) (given sorted : List Record) : Prop where
  perm : sorted.Perm given
  ascending : Ascending e.primaryKey sorted
  rows : ∀ fields places, m.resolveFields e.name fields = .ok places →
    m.rows e.name [] fields = .ok (given.map fun record => m.project record places) ∧
    (db.Within (.rows e.name [] fields) → db.rows e.name [] fields = .ok (sorted.map fun record => m.project record places))
  distinctValues : ∀ path place, m.schema.resolve e.name path = .ok place → place.field.kind.isTold →
    m.distinctValues e.name [] path = .ok (Memory.dedupByKey [] (given.map fun record => m.cellAt record place)) ∧
    (db.Within (.distinct e.name [] path) →
      db.distinctValues e.name [] path = .ok (Memory.dedupByKey [] (sorted.map fun record => m.cellAt record place)))
  memory : m.source.Reads m e (fun _ => Predicate.accepts) given
  database : db.source.Reads m e isTrueOf sorted
  same : Ascending e.primaryKey given → sorted = given
  reports : Ascending e.primaryKey given → ∀ (o : ReportOptions) now w w' report report' after after',
    o.build m.source now w = (.ok report, after) → o.build db.source now w' = (.ok report', after') →
    o.entity = e.name → o.groupSets = [] →
    (∀ path, o.groupBy = some path → ∃ place, m.schema.resolve e.name path = .ok place ∧ place.isRelation = false ∧
      place.field.kind.isTold) →
    (∀ record ∈ given, m.admits e.name (fun _ => Predicate.accepts) report.shape.rowFilters record =
      m.admits e.name isTrueOf report.shape.rowFilters record) →
    report.baseRows = report'.baseRows

namespace Loaded
variable {schema : Schema} {inserts : List (String × Record)} {m : Memory} {db : Database} {e : Entity}

theorem numbered (loaded : Loaded schema inserts m db) : db.Numbered := by
  obtain ⟨created, batches, tables, _, batched⟩ := loaded.database
  exact (Database.numbered_createTables tables).insertBatches batched

/-- In whatever order records are inserted, memory answers in that order and the database in that of the primary keys. -/
theorem storage_order (loaded : Loaded schema inserts m db) (known : schema.entity e.name = .ok e)
    (unhidden : Unhidden e) :
    StorageOrder m db e (recordsOf inserts e.name) (Memory.sortById e.primaryKey (recordsOf inserts e.name)) := by
  have mirrors := loaded.mirrors
  obtain ⟨memorySchema, _, rows⟩ := loaded.in_memory
  have known : m.schema.entity e.name = .ok e := memorySchema ▸ known
  have matched : m.matching e.name [] = .ok (recordsOf inserts e.name) := rows e.name ▸ Memory.matching_nil known
  have memory := Memory.reads m e
  have database := mirrors.reads loaded.numbered known unhidden
  have sorted : m.sorted e = Memory.sortById e.primaryKey (recordsOf inserts e.name) := congrArg _ (rows e.name)
  have same : Ascending e.primaryKey (recordsOf inserts e.name) → m.sorted e = recordsOf inserts e.name := fun given => by
    rw [← rows] at given ⊢
    exact mirrors.sorted_eq known (.refl _) given
  rw [rows] at memory
  rw [← sorted]
  refine ⟨rows e.name ▸ m.sorted_perm e, mirrors.ascending_sorted known,
    fun fields places resolved => ⟨?_, fun within => ?_⟩, fun path place resolved told => ⟨?_, fun within => ?_⟩,
    memory, database, same, ?_⟩
  · unfold Memory.rows
    rw [Results.bind_of_ok resolved, Results.bind_of_ok matched]
  · exact mirrors.rows_eq loaded.numbered known unhidden resolved within
  · unfold Memory.distinctValues
    rw [Results.bind_of_ok resolved, Results.bind_of_ok matched]
  · exact mirrors.distinctValues_eq loaded.numbered known unhidden resolved told within
  · intro given o now w w' report report' after after' built built' entity whole plain alike
    obtain ⟨rows, between, shaped, asked, _, limited, _⟩ := ReportOptions.build_eq_ok built
    obtain ⟨rows', between', shaped', asked', _, limited', _⟩ := ReportOptions.build_eq_ok built'
    have shape : report'.shape = report.shape := by
      rw [show db.source.schema = m.source.schema from mirrors.schema, shaped] at shaped'
      exact (Except.ok.inj shaped').symm
    have unrelated := ReportOptions.relatedEntity_eq_none shaped fun path split => by
      obtain ⟨place, resolved, direct, _⟩ := plain path split
      exact ⟨place, entity ▸ resolved, direct⟩
    rw [same given] at database
    rw [shape] at asked'
    have told : ∀ path, o.groupBy = some path → ∃ place, m.schema.resolve e.name path = .ok place ∧ place.field.kind.isTold :=
      fun path split => by
        obtain ⟨place, resolved, _, told⟩ := plain path split
        exact ⟨place, resolved, told⟩
    rw [limited, limited', BaseRow.ask_of_reads memory database entity whole unrelated told alike asked asked']

end Loaded

/-- A record that has nothing but a primary key. -/
def ofKey (id : Int64) : Record :=
  Keyed.ofList [("id", .int id)]

namespace Shop
variable {m : Memory} {db : Database}

theorem schema_of_loaded (loaded : Loaded schema inserts m db) : db.schema = schema :=
  loaded.mirrors.schema.trans loaded.in_memory.1

/-- The sale with the larger key was inserted first. -/
theorem stored_apart : ∃ m db, Loaded schema inserts m db ∧
    m.rows "sale" [] ["id"] = .ok [ofKey 2, ofKey 1] ∧ db.rows "sale" [] ["id"] = .ok [ofKey 1, ofKey 2] ∧
    m.distinctValues "sale" [] "client" = .ok [.int 9, .int 7] ∧
    db.distinctValues "sale" [] "client" = .ok [.int 7, .int 9] := by
  obtain ⟨m, db, filled, loaded⟩ := exists_loaded
  have schema := schema_of_loaded loaded
  have rowsWithin : db.Within (.rows "sale" [] ["id"]) := Database.within_of_schema schema (by decide +kernel)
  have valuesWithin : db.Within (.distinct "sale" [] "client") := Database.within_of_schema schema (by decide +kernel)
  have mirrors := loaded.mirrors
  have known : m.schema.entity sale.name = .ok sale := loaded.in_memory.1 ▸ rfl
  have numbered := loaded.numbered
  obtain rfl := Except.ok.inj (filled.symm.trans rfl)
  have rows := mirrors.rows_eq numbered known (by decide) rfl rowsWithin
  have values := mirrors.distinctValues_eq numbered known (by decide) rfl rfl valuesWithin
  exact ⟨_, db, loaded, rfl, rows.trans rfl, rfl, values.trans rfl⟩

end Shop

/-- The sale with the larger key was inserted first, and the database has it second. -/
theorem Loaded.sales_stored : ∃ m db, Loaded Shop.schema Shop.inserts m db ∧ Unhidden Shop.sale ∧
    StorageOrder m db Shop.sale [Shop.saleTo 2 9, Shop.saleTo 1 7] [Shop.saleTo 1 7, Shop.saleTo 2 9] ∧
    db.rows "sale" [] ["id"] = .ok [ofKey 1, ofKey 2] ∧
    db.distinctValues "sale" [] "client" = .ok [.int 7, .int 9] := by
  obtain ⟨m, db, filled, loaded⟩ := Shop.exists_loaded
  have schema := Shop.schema_of_loaded loaded
  have order := storage_order loaded (e := Shop.sale) rfl (by decide)
  obtain rfl := Except.ok.inj (filled.symm.trans rfl)
  have rows := (order.rows ["id"] _ rfl).2 (Database.within_of_schema schema (by decide +kernel))
  have values := (order.distinctValues "client" _ rfl rfl).2 (Database.within_of_schema schema (by decide +kernel))
  exact ⟨_, db, loaded, by decide, order, rows.trans rfl, values.trans rfl⟩

namespace Tickets

/-- The second field has the name of row numbers. -/
def ticket : Entity :=
  (Entity.new "ticket").withField ⟨"RowId", none, .integer, none⟩

def schema : Schema :=
  .ofEntities [ticket]

def numbered (id number : Int64) : Record :=
  Keyed.ofList [("id", .int id), ("RowId", .int number)]

def inserts : List (String × Record) :=
  [("ticket", numbered 1 5), ("ticket", numbered 2 3)]

theorem fits_numbered (i j : Int64) : Fits ticket (numbered i j) :=
  fits_pair (f := ⟨"RowId", none, .integer, none⟩) i j rfl (by decide) (by decide) (.integer j)

theorem exists_loaded : ∃ m db, (Memory.empty schema).insertEach inserts = .ok m ∧ Loaded schema inserts m db := by
  obtain ⟨db, stored⟩ : ∃ db, (Database.empty schema).createTables.1.insertBatches
      [("ticket", [numbered 1 5, numbered 2 3])] = .ok db := Results.exists_of_isSome (by decide +kernel)
  refine ⟨_, db, rfl, relational_ofEntities (by decide) (by decide), fun name e found record member => ?_, fun name e found => ?_,
    rfl, _, _, rfl, .refl _, stored⟩
  · obtain ⟨inside, rfl⟩ := Schema.mem_of_entity_ofEntities found
    rw [List.mem_singleton.1 inside]
    simp only [inserts, List.mem_cons, Prod.mk.injEq, List.not_mem_nil, or_false] at member
    rcases member with ⟨_, rfl⟩ | ⟨_, rfl⟩
    · exact fits_numbered 1 5
    · exact fits_numbered 2 3
  · obtain ⟨inside, rfl⟩ := Schema.mem_of_entity_ofEntities found
    rw [List.mem_singleton.1 inside]
    have cells : (recordsOf inserts ticket.name).map (fun record => record.cell ticket.primaryKey) = [.int 1, .int 2] := rfl
    rw [cells]
    simp

/-- The rows come by the second field, whatever the order of their primary keys. -/
theorem stored_apart : ∃ m db, Loaded schema inserts m db ∧
    m.rows "ticket" [] ["id"] = .ok [ofKey 1, ofKey 2] ∧
    db.rows "ticket" [] ["id"] = .ok [ofKey 2, ofKey 1] := by
  obtain ⟨m, db, filled, loaded⟩ := exists_loaded
  obtain ⟨same, _, rows⟩ := loaded.in_memory
  have mirrors := loaded.mirrors
  have known : m.schema.entity ticket.name = .ok ticket := same ▸ rfl
  have number : ∀ i j walks, Joined.cell (([] :: walks).map (viewOf db m ticket (numbered i j))) rowNumber = .integer j := by
    intro i j walks
    have cell : (numbered i j).cell "RowId" = .int j := (cell_pair i j (by decide)).2
    rw [mirrors.number_of_field known (f := ⟨"RowId", none, .integer, none⟩) (by decide) (by decide)]
    exact congrArg (stored .integer) cell
  have stored : m.sorted ticket = [numbered 1 5, numbered 2 3] := congrArg (Memory.sortById _) (rows "ticket")
  have sorted : ByNumber db m ticket [] [numbered 2 3, numbered 1 5] := by
    refine ⟨fun record member => rows "ticket" ▸ (List.Perm.swap ..).mem_iff.1 member, fun walks => ?_⟩
    rw [Memory.filter_admits_nil, stored]
    refine mergeSort_eq_of_perm (.swap ..) (fun row member => ?_) ?_
    · obtain ⟨_, here, rfl⟩ := List.mem_map.1 member
      rcases List.mem_pair.1 here with rfl | rfl
      · rw [number]
        rfl
      · rw [number]
        rfl
    · refine List.pairwise_pair.2 ?_
      rw [number, number]
      rfl
  have within : db.Within (.rows "ticket" [] ["id"]) :=
    Database.within_of_schema (mirrors.schema.trans same) (by decide +kernel)
  obtain rfl := Except.ok.inj (filled.symm.trans rfl)
  obtain ⟨found, answered⟩ := mirrors.exists_rows known rfl within
  obtain ⟨places, resolved, rfl⟩ := mirrors.rows_of_sorted loaded.numbered known answered sorted
  obtain rfl := Except.ok.inj (resolved.symm.trans rfl)
  exact ⟨_, db, loaded, rfl, answered.trans rfl⟩

end Tickets

namespace Bills

/-- The names differ in case only, so that both are kept in one table. -/
def schema : Schema :=
  .ofEntities [Entity.new "bill", Entity.new "BILL"]

def inserts : List (String × Record) :=
  [("bill", ofKey 1)]

def database? : Except SourceError Database :=
  (Database.empty schema).createTables.1.insertBatches [("bill", [ofKey 1])]

/-- A row of the one entity is a row of the other. -/
theorem shared : ∃ m db found, (Memory.empty schema).insertEach inserts = .ok m ∧ database? = .ok db ∧
    m.rows "BILL" [] ["id"] = .ok [] ∧ db.rows "BILL" [] ["id"] = .ok found ∧ found.length = 1 := by
  obtain ⟨db, stored⟩ : ∃ db, database? = .ok db := Results.exists_of_isSome (by decide +kernel)
  have counted : (database? >>= fun db => db.rows "BILL" [] ["id"]).toOption.map List.length = some 1 := by decide +kernel
  rw [Results.bind_of_ok stored] at counted
  obtain ⟨found, answered, length⟩ := Option.map_eq_some_iff.1 counted
  cases rows : db.rows "BILL" [] ["id"] with
  | error e =>
    rw [rows] at answered
    cases answered
  | ok found' =>
    rw [rows] at answered
    cases answered
    exact ⟨_, db, _, rfl, stored, rfl, rows, length⟩

end Bills

/-- The orders differ where keys are not inserted in ascending order, where another field has the name of row numbers, and
what is stored does where entities share a table. -/
theorem Loaded.orders_differ :
    (∃ m db, Loaded Shop.schema Shop.inserts m db ∧
      m.rows "sale" [] ["id"] = .ok [ofKey 2, ofKey 1] ∧
      db.rows "sale" [] ["id"] = .ok [ofKey 1, ofKey 2] ∧
      m.distinctValues "sale" [] "client" = .ok [.int 9, .int 7] ∧
      db.distinctValues "sale" [] "client" = .ok [.int 7, .int 9]) ∧
    (∃ m db, Loaded Tickets.schema Tickets.inserts m db ∧
      m.rows "ticket" [] ["id"] = .ok [ofKey 1, ofKey 2] ∧
      db.rows "ticket" [] ["id"] = .ok [ofKey 2, ofKey 1]) ∧
    ∃ m db found, (Memory.empty Bills.schema).insertEach Bills.inserts = .ok m ∧ Bills.database? = .ok db ∧
      m.rows "BILL" [] ["id"] = .ok [] ∧ db.rows "BILL" [] ["id"] = .ok found ∧ found.length = 1 :=
  ⟨Shop.stored_apart, Tickets.stored_apart, Bills.shared⟩

end Sql
end Reporting
