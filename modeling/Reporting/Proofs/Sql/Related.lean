import Reporting.Proofs.Memory.Sorting
import Reporting.Proofs.Sql.Reading

/-!
Related rows of a database that mirrors tables in memory: both read the records with the primary keys, sorted by them
(`Mirrors.relatedRows_both`).
-/

namespace Reporting

/-! ## The primary key among the paths -/

namespace Memory
variable {m : Memory} {root : Entity} {k : Field} {primaryKey : String} {places : List (String × ResolvedPath)}

theorem projectRelated_eq (m : Memory) (record : Record) (there : primaryKey ∈ places.map Prod.fst) :
    m.projectRelated primaryKey places record = m.project record places := by
  have contained : (m.project record places).contains primaryKey := by
    refine (Keyed.contains_insertAll_iff _).2 (Or.inl ?_)
    rw [List.map_map]
    exact there
  unfold projectRelated
  dsimp only
  rw [if_pos contained]

/-- The primary key could be read first. -/
theorem projectRelated_eq_cons (m : Memory) (record : Record) (absent : primaryKey ∉ places.map Prod.fst)
    {own : ResolvedPath} (cell : m.cellAt record own = record.cell primaryKey) :
    m.projectRelated primaryKey places record = m.project record ((primaryKey, own) :: places) := by
  have names : primaryKey ∉ (places.map fun p => (p.1, m.cellAt record p.2)).map Prod.fst := by
    rw [List.map_map]
    exact absent
  have missing : ¬(m.project record places).contains primaryKey := by
    intro contained
    rcases (Keyed.contains_insertAll_iff _).1 contained with inside | none_
    · exact names inside
    · cases none_
  unfold projectRelated
  dsimp only
  rw [if_neg missing, ← cell]
  exact (Keyed.insertAll_insert _ _ names).symm

/-- With the primary key among them, the paths lead to what is read of related records. -/
theorem exists_places (m : Memory) (named : k.name = root.primaryKey)
    (own : m.schema.resolve root.name root.primaryKey = .ok ⟨root.name, root.name, k, []⟩) {names : List String}
    (found : m.schema.placesOf root.name names = .ok places) :
    ∃ places', m.schema.placesOf root.name (if root.primaryKey ∈ names then names else root.primaryKey :: names) = .ok places' ∧
      ∀ record, m.projectRelated root.primaryKey places record = m.project record places' := by
  obtain ⟨same, _⟩ := Schema.map_fst_placesOf found
  by_cases inside : root.primaryKey ∈ names
  · rw [if_pos inside]
    exact ⟨places, found, fun record => m.projectRelated_eq record (same ▸ inside)⟩
  · rw [if_neg inside]
    refine ⟨_, Schema.placesOf_cons_eq_ok_iff.2 ⟨_, places, own, found, rfl⟩, fun record => ?_⟩
    refine m.projectRelated_eq_cons record (same ▸ inside) ?_
    show record.cell k.name = _
    rw [named]

end Memory

namespace Sql

/-! ## Sorting by primary key -/

section Sorting
variable {primaryKey : String}

/-- The records are in the order of their primary keys. -/
def Ascending (primaryKey : String) (records : List Record) : Prop :=
  records.Pairwise fun a b => keyNumber (a.cell primaryKey) ≤ keyNumber (b.cell primaryKey)

/-- Records with integers as primary keys are sorted by them. -/
theorem ascending_sortById {records : List Record} (ints : ∀ r ∈ records, ∃ i, r.cell primaryKey = .int i) :
    Ascending primaryKey (Memory.sortById primaryKey records) := by
  have ranked : ∀ row ∈ records, FieldKind.integer.ranks (row.cell primaryKey) := by
    intro row member
    obtain ⟨i, key⟩ := ints row member
    rw [key]
    rfl
  have perm := Memory.sortById_perm primaryKey records
  refine (Memory.sortedById_sortById (.of_ranks ranked)).imp_of_mem fun {a b} memberA memberB notBefore => ?_
  obtain ⟨i, keyA⟩ := ints a (perm.mem_iff.1 memberA)
  obtain ⟨j, keyB⟩ := ints b (perm.mem_iff.1 memberB)
  rw [keyA, keyB] at notBefore ⊢
  exact Int.not_lt.1 fun less => notBefore (congrArg some (Int.compare_eq_lt.2 less))

end Sorting

/-! ## Statements for related rows -/

/-- The filters of the statement. -/
def relatedFilters (primaryKey : String) (ids : Option (List Value)) : FilterSet :=
  ids.elim [] fun list => [.of primaryKey (.within list)]

section Statements
variable {schema : Schema} {root : Entity} {fields names : List String}

theorem relatedNames_eq (known : schema.entity root.name = .ok root) (paths : fieldsOf schema root.name fields = .ok names) :
    relatedNames schema root.name fields =
      .ok (root.primaryKey, if root.primaryKey ∈ names then names else root.primaryKey :: names) :=
  (Results.bind_of_ok known).trans (Results.bind_of_ok paths)

theorem compileRelated_eq (known : schema.entity root.name = .ok root) (paths : fieldsOf schema root.name fields = .ok names)
    {ids : Option (List Value)} (some_ : ids ≠ some []) :
    compileRelated schema root.name ids fields =
      (compileRows schema root.name (relatedFilters root.primaryKey ids)
        (if root.primaryKey ∈ names then names else root.primaryKey :: names) (some ⟨0, root.primaryKey⟩)).map fun c =>
        some (if root.primaryKey ∈ names then names else root.primaryKey :: names, c) := by
  refine (Results.bind_of_ok (relatedNames_eq known paths)).trans ?_
  cases ids with
  | none => rfl
  | some list => exact if_neg some_

theorem compileRelated_nil (known : schema.entity root.name = .ok root) (paths : fieldsOf schema root.name fields = .ok names) :
    compileRelated schema root.name (some []) fields = .ok none :=
  Results.bind_of_ok (relatedNames_eq known paths)

theorem compileRelated_of_error (known : schema.entity root.name = .ok root)
    (paths : fieldsOf schema root.name fields = .ok names) {ids : Option (List Value)} (some_ : ids ≠ some [])
    {own : ResolvedPath} (resolved : schema.resolve root.name root.primaryKey = .ok own) {e : SourceError}
    (failed : schema.placesOf root.name names = .error e) : compileRelated schema root.name ids fields = .error e := by
  rw [compileRelated_eq known paths some_, compileRows_of_error (e := e) known]
  · rfl
  · split
    · exact failed
    · exact Schema.placesOf_cons_of_later resolved failed

/-- The number of a row equals an operand just if their keys are the same. -/
theorem compareOperand_integer_iff {id : Value} (isInt : id.isIntOrNull) (i : Int64) :
    compareOperand ⟨.integer i, .integer⟩ .equal (encode .integer id) = some true ↔ id.key = (Value.int i).key := by
  rw [Value.key_inj (v := .int i) rfl isInt]
  cases id with
  | null => simp [encode, compareOperand, Cell.isNull]
  | int j =>
    have same : compareOperand ⟨.integer i, .integer⟩ .equal (encode .integer (.int j)) =
        some (compare i.toInt j.toInt == .eq) := rfl
    rw [same, Option.some.injEq, beq_iff_eq, Int.compare_eq_eq, Int64.toInt_inj, Value.int.injEq]
    exact eq_comm
  | _ => cases isInt

/-- A name without a pair of underscores is the path to the field. -/
theorem resolve_primaryKey (known : schema.entity root.name = .ok root) (tabular : Tabular root)
    (whole : Path.parts root.primaryKey = [root.primaryKey]) :
    ∃ k ∈ root.fields, k.name = root.primaryKey ∧ k.kind = .integer ∧
      schema.resolve root.name root.primaryKey = .ok ⟨root.name, root.name, k, []⟩ := by
  obtain ⟨k, member, named, kind⟩ := tabular.key
  have found : root.field? root.primaryKey = some k := by
    unfold Entity.field?
    rw [← named, find?_of_pairwise (r := fun f g : Field => f.name == g.name) tabular.names_apart member (beq_self_eq_true _)]
  refine ⟨k, member, named, kind, ?_⟩
  unfold Schema.resolve
  rw [known, whole]
  dsimp only
  rw [Schema.walk, found]
  rfl

end Statements

namespace Mirrors
variable {db : Database} {m : Memory} {root : Entity} {record : Record} {k : Field} {ids : Option (List Value)}

/-- What the row of a record has as its primary key. -/
theorem operand_key (mirrors : Mirrors db m) (rootKnown : m.schema.entity root.name = .ok root)
    (member : record ∈ (m.tableOf root.name).rows.toList) (named : k.name = root.primaryKey) (kind : k.kind = .integer)
    (own : m.schema.resolve root.name root.primaryKey = .ok ⟨root.name, root.name, k, []⟩) (walks : List (List String)) :
    ∃ i, record.cell root.primaryKey = .int i ∧
      Joined.operand (([] :: walks).map (viewOf db m root record)) ⟨0, root.primaryKey⟩ = ⟨.integer i, .integer⟩ := by
  obtain ⟨i, key⟩ := (mirrors.fits _ _ rootKnown record member).key (mirrors.tabular rootKnown)
  have at_ : Column.At ⟨0, root.primaryKey⟩ walks ⟨root.name, root.name, k, []⟩ := ⟨named.symm, rfl⟩
  have cell : m.cellAt record ⟨root.name, root.name, k, []⟩ = .int i := by
    show record.cell k.name = _
    rw [named, key]
  refine ⟨i, key, ?_⟩
  rw [at_.operand_eq, mirrors.operand_viewOf rootKnown member own, cell, kind]
  rfl

/-- The test of the statement is true of the rows of the records that memory takes. -/
theorem exists_tests (mirrors : Mirrors db m) (rootKnown : m.schema.entity root.name = .ok root) (field : k ∈ root.fields)
    (named : k.name = root.primaryKey) (kind : k.kind = .integer)
    (own : m.schema.resolve root.name root.primaryKey = .ok ⟨root.name, root.name, k, []⟩) (some_ : ids ≠ some [])
    (ints : ∀ list, ids = some list → ∀ id ∈ list, id.isIntOrNull) :
    ∃ tests, (∀ j, (relatedFilters root.primaryKey ids).mapM (compilePredicate m.schema root) j = .ok (tests, j)) ∧
      tests.length ≤ 1 ∧
      (∀ walks, ∀ t ∈ tests, ∃ c operands, t = .isAmong c operands ∧ c.Reads m.schema root walks) ∧
      ∀ walks, ∀ record ∈ (m.tableOf root.name).rows.toList,
        Kept db m root walks tests record = Memory.wants root.primaryKey ids record := by
  cases ids with
  | none => exact ⟨[], fun j => rfl, by simp, by simp, fun walks record _ => rfl⟩
  | some list =>
    obtain ⟨first, rest, rfl⟩ := List.exists_cons_of_ne_nil fun empty => some_ (congrArg some empty)
    refine ⟨[.isAmong ⟨0, root.primaryKey⟩ ((first :: rest).map (encode .integer))], fun j => ?_, by simp,
      fun walks t member => ?_, fun walks record member => ?_⟩
    · have column : columnAt m.schema root root.primaryKey j = .ok ((⟨0, root.primaryKey⟩, .integer), j) := by
        rw [← kind]
        refine run_bind_eq_ok_iff.2 ⟨_, j, run_liftM_eq_ok_iff.2 ⟨own, rfl⟩, ?_⟩
        rw [← named]
        rfl
      have test : compilePredicate m.schema root (.of root.primaryKey (.within (first :: rest))) j =
          .ok (.isAmong ⟨0, root.primaryKey⟩ ((first :: rest).map (encode .integer)), j) :=
        run_bind_eq_ok_iff.2 ⟨_, j, column, rfl⟩
      unfold relatedFilters
      rw [Option.elim_some, List.mapM_cons]
      exact run_bind_eq_ok_iff.2 ⟨_, j, test, rfl⟩
    · rw [List.mem_singleton.1 member]
      exact ⟨_, _, rfl, [], root, k, rfl, rfl, field, named.symm⟩
    · obtain ⟨i, key, operand⟩ := mirrors.operand_key rootKnown member named kind own walks
      have there : record.get? root.primaryKey = some (.int i) := by
        unfold Record.cell at key
        cases given : record.get? root.primaryKey with
        | none =>
          rw [given] at key
          cases key
        | some v =>
          rw [given] at key
          exact congrArg some key
      rw [Bool.eq_iff_iff]
      unfold Kept Memory.wants
      rw [there]
      simp only [List.all_cons, List.all_nil, Bool.and_true, beq_iff_eq, Test.eval, operand, List.any_eq_true]
      rw [among_eq_true_iff]
      constructor
      · rintro ⟨c, member, holds⟩
        obtain ⟨id, inside, rfl⟩ := List.mem_map.1 member
        exact ⟨id, inside, (compareOperand_integer_iff (ints _ rfl id inside) i).1 holds⟩
      · rintro ⟨id, inside, holds⟩
        exact ⟨_, List.mem_map_of_mem inside, (compareOperand_integer_iff (ints _ rfl id inside) i).2 holds⟩

/-- The order of the primary keys is the only one in which the records stand in it. -/
theorem eq_of_ascending (mirrors : Mirrors db m) (rootKnown : m.schema.entity root.name = .ok root) {given sorted : List Record}
    (inside : ∀ record ∈ sorted, record ∈ (m.tableOf root.name).rows.toList) (perm : given.Perm sorted)
    (left : Ascending root.primaryKey given) (right : Ascending root.primaryKey sorted) : given = sorted := by
  refine perm.eq_of_pairwise (fun a b memberA memberB below above => ?_) left right
  have insideA := inside a (perm.mem_iff.1 memberA)
  have insideB := inside b memberB
  have tabular := mirrors.tabular rootKnown
  obtain ⟨i, keyA⟩ := (mirrors.fits _ _ rootKnown a insideA).key tabular
  obtain ⟨j, keyB⟩ := (mirrors.fits _ _ rootKnown b insideB).key tabular
  refine List.inj_on_of_nodup_map (mirrors.told _ _ rootKnown) insideA insideB ?_
  rw [keyA, keyB] at below above ⊢
  exact congrArg Value.int (Int64.toInt_inj.1 (Int.le_antisymm below above))

/-- Rows that are sorted by the primary key are those of records in the order of their keys. -/
theorem ascending_of_sortRows (mirrors : Mirrors db m) (rootKnown : m.schema.entity root.name = .ok root)
    (named : k.name = root.primaryKey) (kind : k.kind = .integer)
    (own : m.schema.resolve root.name root.primaryKey = .ok ⟨root.name, root.name, k, []⟩) {walks : List (List String)}
    {sorted : List Record} (inside : ∀ record ∈ sorted, record ∈ (m.tableOf root.name).rows.toList) {rows : List Joined}
    (ordered : sortRows ⟨0, root.primaryKey⟩ rows = sorted.map fun record => ([] :: walks).map (viewOf db m root record)) :
    Ascending root.primaryKey sorted := by
  have cell : ∀ record ∈ sorted, ∃ i, record.cell root.primaryKey = .int i ∧
      Joined.cell (([] :: walks).map (viewOf db m root record)) ⟨0, root.primaryKey⟩ = .integer i := by
    intro record member
    obtain ⟨i, key, operand⟩ := mirrors.operand_key rootKnown (inside record member) named kind own walks
    exact ⟨i, key, congrArg Operand.cell operand⟩
  have plain : ∀ row ∈ rows, (row.cell ⟨0, root.primaryKey⟩).isPlain := by
    intro row member
    rw [← (sortRows_perm ⟨0, root.primaryKey⟩ rows).mem_iff, ordered] at member
    obtain ⟨record, among, rfl⟩ := List.mem_map.1 member
    obtain ⟨i, _, integer⟩ := cell record among
    rw [integer]
    rfl
  have pairs := pairwise_sortRows plain
  rw [ordered, List.pairwise_map] at pairs
  refine pairs.imp_of_mem fun {a b} memberA memberB le => ?_
  obtain ⟨i, keyA, cellA⟩ := cell a memberA
  obtain ⟨j, keyB, cellB⟩ := cell b memberB
  rw [rowLe_iff, cellA, cellB, ← Cell.order_eq_rankOrder rfl rfl] at le
  rw [keyA, keyB]
  exact Int.isLE_compare.1 le

/-- Where the paths lead somewhere and something is asked for, both read the same records. -/
theorem relatedRows_eq (mirrors : Mirrors db m) (rootKnown : m.schema.entity root.name = .ok root)
    (whole : Path.parts root.primaryKey = [root.primaryKey]) {fields names : List String} {places : List (String × ResolvedPath)}
    (paths : fieldsOf m.schema root.name fields = .ok names) (found : m.schema.placesOf root.name names = .ok places)
    (some_ : ids ≠ some []) (ints : ∀ list, ids = some list → ∀ id ∈ list, id.isIntOrNull)
    (within : db.Within (.related root.name ids fields)) :
    db.relatedRows root.name ids fields = .ok ((Memory.sortById root.primaryKey
      ((m.tableOf root.name).rows.toList.filter (Memory.wants root.primaryKey ids))).map
        (m.projectRelated root.primaryKey places)) := by
  have relational := mirrors.relational
  have tabular := mirrors.tabular rootKnown
  obtain ⟨k, field, named, kind, own⟩ := resolve_primaryKey rootKnown tabular whole
  obtain ⟨places', found', project⟩ := m.exists_places named own found
  obtain ⟨tests, tested, single, flat, kept⟩ := mirrors.exists_tests rootKnown field named kind own some_ ints
  obtain ⟨columns, j, walks, ran, numbers, stand⟩ :=
    columnsAt_of_places relational.named rootKnown (Joins.numbers_none m.schema root) found'
  rw [List.nil_append] at numbers stand
  have compiles := compileRelated_eq rootKnown paths some_
  have columned : (if root.primaryKey ∈ names then names else root.primaryKey :: names) ≠ [] := by
    split
    · rename_i inside
      exact List.ne_nil_of_mem inside
    · exact List.cons_ne_nil _ _
  have ordered : ∀ c ∈ some (Column.mk 0 root.primaryKey), c.Reads m.schema root walks := by
    intro c same
    cases same
    exact ⟨[], root, k, rfl, rfl, field, named.symm⟩
  have limits : ∀ compiled, compileRows m.schema root.name (relatedFilters root.primaryKey ids)
      (if root.primaryKey ∈ names then names else root.primaryKey :: names) (some ⟨0, root.primaryKey⟩) = .ok compiled →
      compiled.select.Within := by
    intro compiled ran
    refine within compiled.select ?_
    unfold Database.statement?
    rw [mirrors.schema]
    simp only [compiles, ran]
    rfl
  obtain ⟨compiled, sorted, rows, compiled_, perm, order, answered⟩ :=
    mirrors.query_rows rootKnown columned found' ran numbers.along stand (tested j) single (flat walks) ordered limits
  rw [List.filter_congr (kept walks)] at perm
  let wanted := (m.tableOf root.name).rows.toList.filter (Memory.wants root.primaryKey ids)
  have inside : ∀ r ∈ wanted, r ∈ (m.tableOf root.name).rows.toList := fun r member => (List.mem_filter.1 member).1
  have insideSorted : ∀ r ∈ sorted, r ∈ (m.tableOf root.name).rows.toList := fun r member => inside r (perm.mem_iff.1 member)
  -- Both lists are of the records that are wanted, and sorted by the same keys.
  have same : Memory.sortById root.primaryKey wanted = sorted := by
    refine mirrors.eq_of_ascending rootKnown insideSorted ((Memory.sortById_perm ..).trans perm.symm)
      (ascending_sortById fun r member => ?_) (mirrors.ascending_of_sortRows rootKnown named kind own insideSorted order)
    exact (mirrors.fits _ _ rootKnown r (inside r member)).key tabular
  unfold Database.relatedRows
  rw [mirrors.schema, compiles, compiled_, funext project]
  exact answered.trans (by rw [← same])

/-- Both read the same related records, in the same order. -/
theorem relatedRows_both (mirrors : Mirrors db m) {entity : String} {fields : List String}
    (whole : ∀ e, m.schema.entity entity = .ok e → Path.parts e.primaryKey = [e.primaryKey])
    (ints : ∀ list, ids = some list → ∀ id ∈ list, id.isIntOrNull)
    (lead : ids = some [] → ∃ places, m.resolveFields entity fields = .ok places)
    (within : db.Within (.related entity ids fields)) :
    Results.Both Eq (m.relatedRows entity ids fields) (db.relatedRows entity ids fields) := by
  have failure : ∀ {e}, compileRelated m.schema entity ids fields = .error e → db.relatedRows entity ids fields = .error e := by
    intro e failed
    unfold Database.relatedRows
    rw [mirrors.schema]
    exact Results.bind_of_error failed
  have resolveFields := m.resolveFields_eq entity fields
  cases rootKnown : m.schema.entity entity with
  | error e =>
    have related : relatedNames m.schema entity fields = .error e := Results.bind_of_error rootKnown
    exact .of_error (Results.bind_of_error rootKnown) (failure (Results.bind_of_error related))
  | ok root =>
    obtain rfl := mirrors.relational.named _ _ rootKnown
    cases paths : fieldsOf m.schema root.name fields with
    | error e =>
      rw [Results.bind_of_error paths] at resolveFields
      have related : relatedNames m.schema root.name fields = .error e :=
        (Results.bind_of_ok rootKnown).trans (Results.bind_of_error paths)
      exact .of_error ((Results.bind_of_ok rootKnown).trans (Results.bind_of_error resolveFields))
        (failure (Results.bind_of_error related))
    | ok names =>
      rw [Results.bind_of_ok paths] at resolveFields
      cases found : m.schema.placesOf root.name names with
      | error e =>
        rw [found] at resolveFields
        have some_ : ids ≠ some [] := by
          intro none_
          obtain ⟨places, found'⟩ := lead none_
          rw [resolveFields] at found'
          cases found'
        obtain ⟨k, _, _, _, own⟩ := resolve_primaryKey rootKnown (mirrors.tabular rootKnown) (whole root rootKnown)
        exact .of_error ((Results.bind_of_ok rootKnown).trans (Results.bind_of_error resolveFields))
          (failure (compileRelated_of_error rootKnown paths some_ own found))
      | ok places =>
        rw [found] at resolveFields
        have memory : m.relatedRows root.name ids fields = .ok ((Memory.sortById root.primaryKey
            ((m.tableOf root.name).rows.toList.filter (Memory.wants root.primaryKey ids))).map
              (m.projectRelated root.primaryKey places)) :=
          Memory.relatedRows_eq_ok_iff.2 ⟨root, places, rootKnown, resolveFields, rfl⟩
        by_cases none_ : ids = some []
        · subst none_
          -- No statement is run where nothing is asked for.
          have database : db.relatedRows root.name (some []) fields = .ok [] := by
            unfold Database.relatedRows
            rw [mirrors.schema]
            exact Results.bind_of_ok (compileRelated_nil rootKnown paths)
          rw [Memory.filter_wants_nil] at memory
          exact .of_ok memory database rfl
        · exact .of_ok memory (mirrors.relatedRows_eq rootKnown (whole root rootKnown) paths found none_ ints within) rfl

end Mirrors
end Sql
end Reporting
