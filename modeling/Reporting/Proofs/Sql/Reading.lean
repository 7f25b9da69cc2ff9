import Reporting.Proofs.Sql.Checks
import Reporting.Proofs.Sql.Groups
import Reporting.Proofs.Sql.Tests

/-!
Rows read from a database that mirrors tables in memory. At every list of paths both read the same records
(`Mirrors.rows_both`).
-/

namespace Reporting

/-! ## Places of paths -/

/-- The names and the places of the paths. -/
def Schema.placesOf (s : Schema) (entity : String) (names : List String) : Except SourceError (List (String × ResolvedPath)) :=
  names.mapM fun name => (s.resolve entity name).map fun path => (name, path)

namespace Schema
variable {s : Schema} {entity name : String} {names : List String} {places : List (String × ResolvedPath)}

theorem resolve_of_error {e : SourceError} (failed : s.entity entity = .error e) : s.resolve entity name = .error e := by
  unfold resolve
  rw [failed]

theorem exists_of_resolve {place : ResolvedPath} (resolved : s.resolve entity name = .ok place) :
    ∃ e, s.entity entity = .ok e := by
  cases known : s.entity entity with
  | error e =>
    rw [resolve_of_error known] at resolved
    cases resolved
  | ok e => exact ⟨e, rfl⟩

theorem placesOf_cons_eq_ok_iff : s.placesOf entity (name :: names) = .ok places ↔
    ∃ place rest, s.resolve entity name = .ok place ∧ s.placesOf entity names = .ok rest ∧ places = (name, place) :: rest := by
  unfold placesOf
  rw [Results.mapM_cons_eq_ok_iff]
  constructor
  · rintro ⟨_, rest, found, others, rfl⟩
    obtain ⟨place, resolved, rfl⟩ := Results.map_eq_ok_iff.1 found
    exact ⟨place, rest, resolved, others, rfl⟩
  · rintro ⟨place, rest, resolved, others, rfl⟩
    exact ⟨_, rest, Results.map_eq_ok_iff.2 ⟨place, resolved, rfl⟩, others, rfl⟩

theorem placesOf_cons_of_error {e : SourceError} (failed : s.resolve entity name = .error e) :
    s.placesOf entity (name :: names) = .error e := by
  unfold placesOf
  rw [List.mapM_cons, failed]
  rfl

theorem placesOf_cons_of_later {e : SourceError} {place : ResolvedPath} (resolved : s.resolve entity name = .ok place)
    (failed : s.placesOf entity names = .error e) : s.placesOf entity (name :: names) = .error e := by
  unfold placesOf at failed ⊢
  rw [List.mapM_cons, resolved, failed]
  rfl

theorem map_fst_placesOf (found : s.placesOf entity names = .ok places) :
    places.map Prod.fst = names ∧ ∀ p ∈ places, s.resolve entity p.1 = .ok p.2 := by
  induction names generalizing places with
  | nil =>
    cases found
    simp
  | cons name rest ih =>
    obtain ⟨place, others, resolved, later, rfl⟩ := placesOf_cons_eq_ok_iff.1 found
    obtain ⟨same, reach⟩ := ih later
    exact ⟨by rw [List.map_cons, same], List.forall_mem_cons.2 ⟨resolved, reach⟩⟩

end Schema

namespace Memory
variable {m : Memory} {entity : String} {fields : List String}

theorem resolveFields_eq (m : Memory) (entity : String) (fields : List String) :
    m.resolveFields entity fields = (Sql.fieldsOf m.schema entity fields >>= m.schema.placesOf entity) := by
  unfold resolveFields Sql.fieldsOf Schema.placesOf
  by_cases empty : fields.isEmpty
  · rw [if_pos empty, if_pos empty]
  · rw [if_neg empty, if_neg empty]

theorem matching_nil {e : Entity} (known : m.schema.entity entity = .ok e) :
    m.matching entity [] = .ok (m.tableOf entity).rows.toList := by
  refine matching_eq_ok_iff.2 ⟨(m.tableOf entity).rows.toList, [], ?_, rfl, ?_⟩
  · unfold records
    rw [known]
  · rw [List.filter_eq_self.2]
    exact fun record _ => rfl

end Memory

namespace Sql

/-! ## Columns of paths -/

section Columns
variable {schema : Schema} {root : Entity} {walks : List (List String)} {names : List String}
  {places : List (String × ResolvedPath)} {j : Joins}

/-- Each column stands at the end of its path, and is read as the kind of the field there. -/
def Stand (walks : List (List String)) (columns : List (Column × FieldKind)) (places : List (String × ResolvedPath)) : Prop :=
  List.Forall₂ (fun c p => c.1.At walks p.2 ∧ c.2 = p.2.field.kind) columns places

theorem columnsAt_of_places (named : schema.Named) (known : schema.entity root.name = .ok root)
    (numbers : j.Numbers schema root walks) (found : schema.placesOf root.name names = .ok places) :
    ∃ columns j' more, columnsAt schema root names j = .ok (columns, j') ∧ j'.Numbers schema root (walks ++ more) ∧
      Stand (walks ++ more) columns places := by
  induction names generalizing places walks j with
  | nil =>
    cases found
    exact ⟨[], j, [], rfl, by rwa [List.append_nil], .nil⟩
  | cons name rest ih =>
    obtain ⟨place, others, resolved, later, rfl⟩ := Schema.placesOf_cons_eq_ok_iff.1 found
    obtain ⟨table, between, ran⟩ := columnAt_of_resolve known resolved j
    obtain ⟨place', more, resolved', kind, numbers', at_, _⟩ := columnAt_eq_ok named known numbers ran
    obtain rfl : place = place' := Except.ok.inj (resolved.symm.trans resolved')
    obtain ⟨columns, j', further, ran', numbers'', stand⟩ := ih numbers' later
    refine ⟨(⟨table, place.field.name⟩, place.field.kind) :: columns, j', more ++ further, ?_, ?_, ?_⟩
    · unfold columnsAt at ran' ⊢
      rw [List.mapM_cons]
      exact run_bind_eq_ok_iff.2 ⟨_, between, ran, run_bind_eq_ok_iff.2 ⟨columns, j', ran', rfl⟩⟩
    · rwa [← List.append_assoc]
    · rw [← List.append_assoc]
      exact .cons ⟨at_.mono further, rfl⟩ stand

theorem columnAt_of_error {path : String} {e : SourceError} (failed : schema.resolve root.name path = .error e) (j : Joins) :
    columnAt schema root path j = .error e := by
  unfold columnAt
  rw [failed]
  rfl

theorem columnsAt_of_error {e : SourceError} (failed : schema.placesOf root.name names = .error e)
    (known : schema.entity root.name = .ok root) (j : Joins) : columnsAt schema root names j = .error e := by
  induction names generalizing j with
  | nil => cases failed
  | cons name rest ih =>
    unfold columnsAt at ih ⊢
    rw [List.mapM_cons]
    cases resolved : schema.resolve root.name name with
    | error e' =>
      rw [Schema.placesOf_cons_of_error resolved] at failed
      cases failed
      exact run_bind_of_error (columnAt_of_error resolved j)
    | ok place =>
      have later : schema.placesOf root.name rest = .error e := by
        cases others : schema.placesOf root.name rest with
        | error e' =>
          rw [Schema.placesOf_cons_of_later resolved others] at failed
          exact failed
        | ok others' =>
          rw [Schema.placesOf_cons_eq_ok_iff.2 ⟨place, others', resolved, others, rfl⟩] at failed
          cases failed
      obtain ⟨table, between, ran⟩ := columnAt_of_resolve known resolved j
      exact (Results.bind_of_ok ran).trans (run_bind_of_error (ih later between))

theorem ne_nil_of_fieldsOf {entity : String} {fields : List String} (paths : fieldsOf schema entity fields = .ok names)
    (some_ : ∀ e, schema.entity entity = .ok e → e.fields ≠ []) : names ≠ [] := by
  rintro rfl
  unfold fieldsOf at paths
  split at paths
  · obtain ⟨e, known, none_⟩ := Results.map_eq_ok_iff.1 paths
    exact some_ e known (List.map_eq_nil_iff.1 none_)
  · rename_i given
    cases paths
    exact given rfl

theorem compileRows_of_columns (known : schema.entity root.name = .ok root) {filters : FilterSet} {order : Option Column}
    {columns : List (Column × FieldKind)} {tests : List Test} {j' : Joins}
    (ran : columnsAt schema root names Joins.none = .ok (columns, j))
    (tested : filters.mapM (compilePredicate schema root) j = .ok (tests, j')) :
    compileRows schema root.name filters names order =
      .ok ⟨⟨root.name, j'.joins, tests, .rows (columns.map Prod.fst) order⟩, columns.map Prod.snd⟩ := by
  refine Results.bind_eq_ok_iff.2 ⟨root, known, Results.bind_eq_ok_iff.2 ⟨⟨⟨_, _, tests⟩, j'⟩, ?_, rfl⟩⟩
  refine run_bind_eq_ok_iff.2 ⟨⟨_, _⟩, j, run_bind_eq_ok_iff.2 ⟨columns, j, ran, rfl⟩, ?_⟩
  exact run_bind_eq_ok_iff.2 ⟨tests, j', tested, rfl⟩

theorem compileRows_of_error (known : schema.entity root.name = .ok root) {filters : FilterSet} {order : Option Column}
    {e : SourceError} (failed : schema.placesOf root.name names = .error e) :
    compileRows schema root.name filters names order = .error e := by
  have ran := columnsAt_of_error failed known Joins.none
  exact (Results.bind_of_ok known).trans (Results.bind_of_error (run_bind_of_error (run_bind_of_error ran)))

end Columns

/-- The statements of the query keep to the limits. -/
def Database.Within (db : Database) (query : Query) : Prop :=
  ∀ s, db.statement? query = some s → s.Within

theorem Database.query_of_rows {db : Database} {s : Select} {columns : List Column} {order : Option Column}
    (output : s.output = .rows columns order) {first : StoredTable} {joins : List (StoredTable × Join)}
    (checked : s.check db.store = .ok (first, joins)) (kinds : List FieldKind) :
    db.query ⟨s, kinds⟩ = .ok ((sortRows (order.getD rowNumber) (s.matching first joins)).map fun joined =>
      kinds.zipWith decode (columns.map joined.cell)) := by
  have ran : s.run db.store = .ok ((sortRows (order.getD rowNumber) (s.matching first joins)).map fun joined =>
      columns.map joined.cell) := by
    unfold Select.run
    rw [Results.bind_of_ok checked]
    dsimp only
    rw [output]
  unfold query
  rw [ran, Except.map, List.map_map]
  rfl

namespace Mirrors
variable {db : Database} {m : Memory} {root : Entity} {walks : List (List String)} {names : List String}
  {places : List (String × ResolvedPath)} {columns : List (Column × FieldKind)} {record : Record}

/-- What the row of a record has in the column at the end of a path. -/
theorem cell_viewOf (mirrors : Mirrors db m) (rootKnown : m.schema.entity root.name = .ok root)
    (member : record ∈ (m.tableOf root.name).rows.toList) {path : String} {place : ResolvedPath}
    (resolved : m.schema.resolve root.name path = .ok place) {c : Column} (at_ : c.At walks place) :
    Joined.cell (([] :: walks).map (viewOf db m root record)) c = stored place.field.kind (m.cellAt record place) := by
  unfold Joined.cell
  rw [at_.operand_eq, mirrors.operand_viewOf rootKnown member resolved]

/-- What is read of the row of a record is what memory reads of the record. -/
theorem read_eq (mirrors : Mirrors db m) (rootKnown : m.schema.entity root.name = .ok root)
    (member : record ∈ (m.tableOf root.name).rows.toList) (stand : Stand walks columns places)
    (reach : ∀ p ∈ places, m.schema.resolve root.name p.1 = .ok p.2) :
    (columns.map Prod.snd).zipWith decode
        ((columns.map Prod.fst).map (Joined.cell (([] :: walks).map (viewOf db m root record)))) =
      places.map fun p => m.cellAt record p.2 := by
  induction stand with
  | nil => rfl
  | @cons c p columns places here _ ih =>
    obtain ⟨at_, kind⟩ := here
    have resolved := reach p (List.mem_cons_self ..)
    have others := ih fun q inside => reach q (List.mem_cons_of_mem p inside)
    show decode c.2 (Joined.cell _ c.1) :: (columns.map Prod.snd).zipWith decode ((columns.map Prod.fst).map _) =
      m.cellAt record p.2 :: _
    rw [others, mirrors.cell_viewOf rootKnown member resolved at_, kind, decode_stored_of_keeps (mirrors.keeps_cellAt rootKnown member resolved)]

theorem named_eq (mirrors : Mirrors db m) (rootKnown : m.schema.entity root.name = .ok root) {records : List Record}
    (inside : ∀ record ∈ records, record ∈ (m.tableOf root.name).rows.toList) (stand : Stand walks columns places)
    (found : m.schema.placesOf root.name names = .ok places) :
    Database.named names ((records.map fun record => ([] :: walks).map (viewOf db m root record)).map fun joined =>
        (columns.map Prod.snd).zipWith decode ((columns.map Prod.fst).map (Joined.cell joined))) =
      records.map fun record => m.project record places := by
  obtain ⟨same, reach⟩ := Schema.map_fst_placesOf found
  unfold Database.named
  rw [List.map_map, List.map_map]
  refine List.map_congr_left fun record member => ?_
  simp only [Function.comp_apply]
  rw [mirrors.read_eq rootKnown (inside record member) stand reach, ← same]
  unfold Memory.project
  rw [List.zip_map']

/-- The columns at the ends of paths are fields. -/
theorem reads_of_stand (rootKnown : m.schema.entity root.name = .ok root) (stand : Stand walks columns places)
    (reach : ∀ p ∈ places, m.schema.resolve root.name p.1 = .ok p.2) :
    ∀ c ∈ columns.map Prod.fst, c.Reads m.schema root walks := by
  induction stand with
  | nil => simp
  | cons here _ ih =>
    exact List.forall_mem_cons.2 ⟨here.1.reads rootKnown (reach _ (List.mem_cons_self ..)),
      ih fun q inside => reach q (List.mem_cons_of_mem _ inside)⟩

/-- The row of a record passes the tests. -/
def Kept (db : Database) (m : Memory) (root : Entity) (walks : List (List String)) (tests : List Test) (record : Record) : Bool :=
  tests.all fun test => test.eval (Joined.operand (([] :: walks).map (viewOf db m root record))) == some true

/-- What a statement for cells of rows yields: those of the records that pass, in the order of a column. -/
theorem query_rows (mirrors : Mirrors db m) (rootKnown : m.schema.entity root.name = .ok root) {filters : FilterSet}
    {order : Option Column} {tests : List Test} {j : Joins} (some_ : names ≠ [])
    (found : m.schema.placesOf root.name names = .ok places)
    (ran : columnsAt m.schema root names Joins.none = .ok (columns, j)) (along : Along m.schema root j.joins walks)
    (stand : Stand walks columns places) (tested : filters.mapM (compilePredicate m.schema root) j = .ok (tests, j))
    (single : tests.length ≤ 1) (flat : ∀ t ∈ tests, ∃ c operands, t = .isAmong c operands ∧ c.Reads m.schema root walks)
    (ordered : ∀ c ∈ order, c.Reads m.schema root walks)
    (within : ∀ compiled, compileRows m.schema root.name filters names order = .ok compiled → compiled.select.Within) :
    ∃ (compiled : Compiled) (sorted : List Record) (rows : List Joined),
      compileRows m.schema root.name filters names order = .ok compiled ∧
      sorted.Perm ((m.tableOf root.name).rows.toList.filter (Kept db m root walks tests)) ∧
      sortRows (order.getD rowNumber) rows = sorted.map (fun record => ([] :: walks).map (viewOf db m root record)) ∧
      (db.query compiled).map (Database.named names) = .ok (sorted.map fun record => m.project record places) := by
  have compiled : compileRows m.schema root.name filters names order = .ok _ := compileRows_of_columns rootKnown ran tested
  obtain ⟨same, reach⟩ := Schema.map_fst_placesOf found
  have wide : (columns.map Prod.fst).length ≠ 0 := by
    intro empty
    rw [List.length_map, stand.length_eq, List.length_eq_zero_iff] at empty
    rw [empty] at same
    exact some_ same.symm
  have fields := reads_of_stand rootKnown stand reach
  have proper : (Select.mk root.name j.joins tests (.rows (columns.map Prod.fst) order)).Proper m.schema root walks := by
    refine ⟨rfl, along, fun c inside => ?_, flat, single, wide⟩
    rcases List.mem_append.1 inside with cell | last
    · exact fields c cell
    · exact ordered c (by simpa using last)
  obtain ⟨first, joins, checked⟩ := mirrors.check_eq_ok rootKnown proper (within _ compiled)
  obtain ⟨records, perm, matching⟩ := mirrors.matching_eq rootKnown rfl (mirrors.schema ▸ along) checked
  rw [List.filter_map] at matching
  obtain ⟨sorted, permSorted, rows⟩ := Parts.exists_of_perm_map
    (matching ▸ sortRows_perm (order.getD rowNumber) (Select.matching _ first joins))
  have inside : sorted.Perm ((m.tableOf root.name).rows.toList.filter (Kept db m root walks tests)) :=
    permSorted.trans (perm.filter _)
  refine ⟨_, sorted, _, compiled, inside, rows, ?_⟩
  rw [Database.query_of_rows rfl checked, matching, rows]
  show Except.ok (Database.named names _) = _
  rw [mirrors.named_eq rootKnown (fun record member => (List.mem_filter.1 (inside.mem_iff.1 member)).1) stand found]

/-- At every list of paths both read the same records. -/
theorem rows_both (mirrors : Mirrors db m) {entity : String} {fields : List String}
    (within : db.Within (.rows entity [] fields)) :
    Results.Both List.Perm (m.rows entity [] fields) (db.rows entity [] fields) := by
  have named := mirrors.relational.named
  have resolveFields := m.resolveFields_eq entity fields
  cases paths : fieldsOf m.schema entity fields with
  | error e =>
    rw [Results.bind_of_error paths] at resolveFields
    refine .of_error (Results.bind_of_error resolveFields) ?_
    unfold Database.rows
    rw [mirrors.schema, Results.bind_of_error paths]
  | ok names =>
    rw [Results.bind_of_ok paths] at resolveFields
    cases rootKnown : m.schema.entity entity with
    | error e =>
      obtain ⟨name, rest, rfl⟩ := List.exists_cons_of_ne_nil (ne_nil_of_fieldsOf paths fun root known => by
        rw [rootKnown] at known
        cases known)
      rw [Schema.placesOf_cons_of_error (Schema.resolve_of_error rootKnown)] at resolveFields
      refine .of_error (Results.bind_of_error resolveFields) ?_
      unfold Database.rows
      rw [mirrors.schema, Results.bind_of_ok paths]
      exact Results.bind_of_error (Results.bind_of_error rootKnown)
    | ok root =>
      obtain rfl := named _ _ rootKnown
      cases found : m.schema.placesOf root.name names with
      | error e =>
        rw [found] at resolveFields
        refine .of_error (Results.bind_of_error resolveFields) ?_
        unfold Database.rows
        rw [mirrors.schema, Results.bind_of_ok paths]
        exact Results.bind_of_error (compileRows_of_error rootKnown found)
      | ok places =>
        rw [found] at resolveFields
        obtain ⟨columns, j, walks, ran, numbers, stand⟩ :=
          columnsAt_of_places named rootKnown (Joins.numbers_none m.schema root) found
        rw [List.nil_append] at numbers stand
        have some_ := ne_nil_of_fieldsOf paths fun root known => (mirrors.relational.tabular _ _ known).fields_ne_nil
        obtain ⟨compiled, sorted, _, compiles, perm, _, answered⟩ := mirrors.query_rows rootKnown some_ found ran
          numbers.along stand (show ([] : FilterSet).mapM (compilePredicate m.schema root) j = .ok ([], j) from rfl)
          (by simp) (by simp) (fun c (none_ : (none : Option Column) = some c) => nomatch none_) fun compiled compiles => within compiled.select (by
            unfold Database.statement?
            rw [mirrors.schema]
            simp only [paths, compiles]
            rfl)
        have memory : m.rows root.name [] fields =
            .ok ((m.tableOf root.name).rows.toList.map fun record => m.project record places) := by
          unfold Memory.rows
          rw [Results.bind_of_ok resolveFields, Results.bind_of_ok (Memory.matching_nil rootKnown)]
        have database : db.rows root.name [] fields = .ok (sorted.map fun record => m.project record places) := by
          unfold Database.rows
          rw [mirrors.schema, Results.bind_of_ok paths, Results.bind_of_ok compiles, answered]
        have all : (m.tableOf root.name).rows.toList.filter (Kept db m root walks []) = (m.tableOf root.name).rows.toList :=
          List.filter_eq_self.2 fun _ _ => rfl
        rw [all] at perm
        exact .of_ok memory database (perm.symm.map _)

end Mirrors
end Sql
end Reporting
