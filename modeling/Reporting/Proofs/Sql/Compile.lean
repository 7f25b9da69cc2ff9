import Mathlib.Data.List.Infix
import Reporting.Proofs.Sql.Joins

/-!
What statements are compiled to. A compiled column stands at the end of its path (`columnAt_eq_ok`), and the rows that
pass are those of the views that pass the filters (`Compiles.mem_matching`), whatever else a statement joins.
-/

namespace Reporting

/-- The names of the relations that the path crosses. -/
def ResolvedPath.walk (p : ResolvedPath) : List String :=
  p.hops.map fun hop => hop.relation.name

namespace Sql
variable {schema : Schema} {root : Entity} {walks : List (List String)}

theorem run_bind_eq_ok_iff {α β : Type} {x : Building α} {f : α → Building β} {j j' : Joins} {b : β} :
    (x >>= f) j = .ok (b, j') ↔ ∃ a between, x j = .ok (a, between) ∧ f a between = .ok (b, j') := by
  constructor
  · intro ran
    obtain ⟨⟨a, between⟩, first, rest⟩ := Results.bind_eq_ok_iff.1 ran
    exact ⟨a, between, first, rest⟩
  · rintro ⟨a, between, first, rest⟩
    exact Results.bind_eq_ok_iff.2 ⟨(a, between), first, rest⟩

theorem run_bind_of_error {α β : Type} {x : Building α} {f : α → Building β} {j : Joins} {e : SourceError}
    (failed : x j = .error e) : (x >>= f) j = .error e :=
  Results.bind_of_error failed

theorem run_liftM_eq_ok_iff {α : Type} {x : Except SourceError α} {j j' : Joins} {a : α} :
    (liftM x : Building α) j = .ok (a, j') ↔ x = .ok a ∧ j = j' := by
  cases x with
  | error e =>
    constructor
    · intro ran
      cases ran
    · rintro ⟨ran, _⟩
      cases ran
  | ok found =>
    constructor
    · intro ran
      cases ran
      exact ⟨rfl, rfl⟩
    · rintro ⟨same, rfl⟩
      cases same
      rfl

/-! ## Joins along a path -/

/-- The joins lead along the walks, whose tables are numbered in order. -/
structure Joins.Numbers (j : Joins) (schema : Schema) (root : Entity) (walks : List (List String)) : Prop where
  along : Along schema root j.joins walks
  tables : j.tables = walks.zipIdx 1

theorem Joins.numbers_none (schema : Schema) (root : Entity) : Joins.none.Numbers schema root [] :=
  ⟨.none, rfl⟩

namespace Joins.Numbers
variable {j : Joins}

theorem getElem?_of_lookup (numbers : j.Numbers schema root walks) {walk : List String} {n : Nat}
    (found : j.tables.lookup walk = some n) : ([] :: walks)[n]? = some walk := by
  obtain ⟨before, after, split, _⟩ := List.lookup_eq_some_iff.1 found
  have member : (walk, n) ∈ walks.zipIdx 1 := by
    rw [← numbers.tables, split]
    simp
  obtain ⟨positive, _, there⟩ := List.mem_zipIdx member
  rw [List.getElem?_cons, if_neg (by omega), there, List.getElem?_eq_getElem]

theorem not_mem_of_lookup (numbers : j.Numbers schema root walks) {walk : List String}
    (absent : j.tables.lookup walk = Option.none) : walk ∉ walks := by
  intro member
  obtain ⟨i, bound, rfl⟩ := List.mem_iff_getElem.1 member
  have entry : (walks[i], 1 + i) ∈ j.tables := by
    rw [numbers.tables]
    exact List.mem_zipIdx_iff_le_and_getElem?_sub.2 ⟨by omega, by simp⟩
  have differ := List.lookup_eq_none_iff.1 absent _ entry
  simp at differ

end Joins.Numbers

section Hops
variable {name : String} {hop : Hop} {hops : List Hop} {before : List String} {table n : Nat} {j : Joins}

theorem joinHops_of_known {next : Nat} (known : j.tables.lookup (before ++ [hop.relation.name]) = some next) :
    joinHops schema name (hop :: hops) before table j =
      joinHops schema name hops (before ++ [hop.relation.name]) next j := by
  rw [joinHops]
  simp only [bind, StateT.bind, get, getThe, MonadStateOf.get, StateT.get, pure, Except.pure, Except.bind, known]

theorem joinHops_of_new (fresh : j.tables.lookup (before ++ [hop.relation.name]) = none) {target : String}
    (points : hop.relation.target = some target) {e : Entity} (reached : schema.entity target = .ok e) :
    joinHops schema name (hop :: hops) before table j =
      joinHops schema name hops (before ++ [hop.relation.name]) (j.joins.length + 1)
        ⟨j.joins ++ [⟨target, ⟨table, hop.relation.name⟩, e.primaryKey⟩],
          j.tables ++ [(before ++ [hop.relation.name], j.joins.length + 1)]⟩ := by
  rw [joinHops]
  simp only [bind, StateT.bind, get, getThe, MonadStateOf.get, StateT.get, pure, Except.pure, Except.bind, fresh, points,
    reached]
  rfl

/-- There are joins for every way over relations. -/
theorem joinHops_of_leads {e last : Entity} (leads : schema.Leads e hops last) :
    ∃ n j', joinHops schema name hops before table j = .ok (n, j') := by
  induction leads generalizing before table j with
  | here e => exact ⟨table, j, rfl⟩
  | @cross e next last hop hops target relation points reached rest ih =>
    cases known : j.tables.lookup (before ++ [hop.relation.name]) with
    | some there =>
      rw [joinHops_of_known known]
      exact ih
    | none =>
      rw [joinHops_of_new known points reached]
      exact ih

end Hops

/-- A walk on from an end is the first step alone, or goes on from there. -/
theorem longer_prefix_iff {before rest walk : List String} {name : String} :
    before.length < walk.length ∧ walk <+: before ++ name :: rest ↔
      walk = before ++ [name] ∨ (before ++ [name]).length < walk.length ∧ walk <+: before ++ [name] ++ rest := by
  rw [List.append_cons, List.length_append, List.length_singleton]
  have front : before ++ [name] <+: before ++ [name] ++ rest := List.prefix_append ..
  constructor
  · rintro ⟨longer, inside⟩
    by_cases same : before.length + 1 < walk.length
    · exact Or.inr ⟨same, inside⟩
    · have length : walk.length = (before ++ [name]).length := by
        rw [List.length_append, List.length_singleton]
        omega
      exact Or.inl ((List.prefix_of_prefix_length_le inside front length.le).eq_of_length length)
  · rintro (rfl | ⟨longer, inside⟩)
    · exact ⟨by simp, front⟩
    · exact ⟨by omega, inside⟩

theorem joinHops_eq_ok (named : schema.Named) {name : String} {hops : List Hop} {before : List String} {table n : Nat}
    {j j' : Joins} {walks : List (List String)} {e last : Entity} (numbers : j.Numbers schema root walks)
    (starts : ([] :: walks)[table]? = some before) (here : schema.follow root before = some e)
    (leads : schema.Leads e hops last) (ran : joinHops schema name hops before table j = .ok (n, j')) :
    ∃ more, j'.Numbers schema root (walks ++ more) ∧
      ([] :: (walks ++ more))[n]? = some (before ++ hops.map fun hop => hop.relation.name) ∧
      ∀ walk, walk ∈ walks ++ more ↔ walk ∈ walks ∨
        before.length < walk.length ∧ walk <+: before ++ hops.map fun hop => hop.relation.name := by
  induction leads generalizing before table j walks with
  | here e =>
    cases ran
    refine ⟨[], ?_, ?_, fun walk => ?_⟩
    · rwa [List.append_nil]
    · rwa [List.append_nil, List.map_nil, List.append_nil]
    · rw [List.append_nil, List.map_nil, List.append_nil]
      refine ⟨Or.inl, fun either => either.resolve_right ?_⟩
      rintro ⟨longer, front⟩
      have := front.length_le
      omega
  | @cross e next last hop hops target relation points reached rest ih =>
    have further : schema.follow root (before ++ [hop.relation.name]) = some next := by
      rw [Schema.follow_append_singleton, here]
      simp [Schema.next?, relation, points, Schema.entity_eq_ok_iff.1 reached]
    rw [List.map_cons]
    cases known : j.tables.lookup (before ++ [hop.relation.name]) with
    | some there =>
      -- The walk is known, so that no join is added for it.
      rw [joinHops_of_known known] at ran
      have place := numbers.getElem?_of_lookup known
      have member : before ++ [hop.relation.name] ∈ walks := by
        rcases List.mem_cons.1 (List.mem_of_getElem? place) with none_ | member
        · simp at none_
        · exact member
      obtain ⟨more, numbers', ends, mem_iff⟩ := ih numbers place further ran
      refine ⟨more, numbers', ?_, fun walk => ?_⟩
      · rw [ends, List.append_cons before _ (hops.map _)]
      · rw [mem_iff, longer_prefix_iff]
        constructor
        · exact fun either => either.imp_right Or.inr
        · rintro (earlier | rfl | later)
          · exact Or.inl earlier
          · exact Or.inl member
          · exact Or.inr later
    | none =>
      -- The new join goes on from the table at the end of the walk so far, and is the last one.
      rw [joinHops_of_new known points reached] at ran
      have fresh := numbers.not_mem_of_lookup known
      have extended : Joins.Numbers ⟨j.joins ++ [⟨target, ⟨table, hop.relation.name⟩, next.primaryKey⟩],
          j.tables ++ [(before ++ [hop.relation.name], j.joins.length + 1)]⟩ schema root
          (walks ++ [before ++ [hop.relation.name]]) := by
        refine ⟨?_, ?_⟩
        · have joined := numbers.along.join starts further fresh
          rwa [named _ _ reached] at joined
        · rw [numbers.tables, numbers.along.length_eq, List.zipIdx_append, Nat.add_comm]
          rfl
      have place : ([] :: (walks ++ [before ++ [hop.relation.name]]))[j.joins.length + 1]? =
          some (before ++ [hop.relation.name]) := by
        rw [numbers.along.length_eq]
        simp
      obtain ⟨more, numbers', ends, mem_iff⟩ := ih extended place further ran
      refine ⟨(before ++ [hop.relation.name]) :: more, ?_, ?_, fun walk => ?_⟩
      · rwa [List.append_cons]
      · rw [List.append_cons walks, ends, List.append_cons before _ (hops.map _)]
      · rw [List.append_cons walks, mem_iff, longer_prefix_iff, List.mem_append, List.mem_singleton, or_assoc]

/-! ## Columns -/

/-- The column stands at the end of the path. -/
structure Column.At (c : Column) (walks : List (List String)) (place : ResolvedPath) : Prop where
  name : c.name = place.field.name
  table : ([] :: walks)[c.table]? = some place.walk

theorem Column.At.mono {c : Column} {place : ResolvedPath} (at_ : c.At walks place) (more : List (List String)) :
    c.At (walks ++ more) place := by
  refine ⟨at_.name, ?_⟩
  rw [← List.cons_append, List.getElem?_append_left (List.getElem?_eq_some_iff.1 at_.table).1, at_.table]

/-- The walk is a part of the way that the path goes. -/
def Visits (schema : Schema) (root : Entity) (path : String) (walk : List String) : Prop :=
  ∃ place, schema.resolve root.name path = .ok place ∧ walk ≠ [] ∧ walk <+: place.walk

theorem columnAt_eq_ok (named : schema.Named) (known : schema.entity root.name = .ok root) {path : String} {c : Column}
    {kind : FieldKind} {j j' : Joins} (numbers : j.Numbers schema root walks)
    (ran : columnAt schema root path j = .ok ((c, kind), j')) :
    ∃ place more, schema.resolve root.name path = .ok place ∧ kind = place.field.kind ∧
      j'.Numbers schema root (walks ++ more) ∧ c.At (walks ++ more) place ∧
      ∀ walk, walk ∈ walks ++ more ↔ walk ∈ walks ∨ Visits schema root path walk := by
  obtain ⟨place, between, found, ran⟩ := run_bind_eq_ok_iff.1 ran
  obtain ⟨resolved, rfl⟩ := run_liftM_eq_ok_iff.1 found
  obtain ⟨table, after, joined, ran⟩ := run_bind_eq_ok_iff.1 ran
  cases ran
  obtain ⟨last, leads, _⟩ := Schema.leads_of_resolve known resolved
  obtain ⟨more, numbers', ends, mem_iff⟩ := joinHops_eq_ok named numbers rfl rfl leads joined
  refine ⟨place, more, resolved, rfl, numbers', ⟨rfl, ends⟩, fun walk => ?_⟩
  rw [mem_iff, List.length_nil, List.length_pos_iff_ne_nil, List.nil_append]
  refine or_congr_right ⟨fun further => ⟨place, resolved, further⟩, ?_⟩
  rintro ⟨place', resolved', further⟩
  obtain rfl : place = place' := Except.ok.inj (resolved.symm.trans resolved')
  exact further

/-- There is a column for every path that leads to a field. -/
theorem columnAt_of_resolve (known : schema.entity root.name = .ok root) {path : String} {place : ResolvedPath}
    (resolved : schema.resolve root.name path = .ok place) (j : Joins) :
    ∃ table j', columnAt schema root path j = .ok ((⟨table, place.field.name⟩, place.field.kind), j') := by
  obtain ⟨last, leads, _⟩ := Schema.leads_of_resolve known resolved
  have ways : ∃ table j', joinHops schema root.name place.hops [] 0 j = .ok (table, j') := joinHops_of_leads leads
  obtain ⟨table, j', joined⟩ := ways
  exact ⟨table, j', run_bind_eq_ok_iff.2 ⟨place, j, run_liftM_eq_ok_iff.2 ⟨resolved, rfl⟩,
    run_bind_eq_ok_iff.2 ⟨table, j', joined, rfl⟩⟩⟩

/-! ## Tests -/

/-- The truth of a predicate of a cell in a column of the kind. -/
def truthOf (p : Predicate) (kind : FieldKind) (operand : Operand) : Truth :=
  (predicateTest rowNumber kind p.condition p.negated).eval fun _ => operand

theorem eval_predicateTest (p : Predicate) (kind : FieldKind) (c : Column) (cellAt : Column → Operand) :
    (predicateTest c kind p.condition p.negated).eval cellAt = truthOf p kind (cellAt c) := by
  have test : ∀ condition, (testOf c kind condition).eval cellAt =
      (testOf rowNumber kind condition).eval fun _ => cellAt c := by
    intro condition
    cases condition with
    | exact operand => cases operand <;> rfl
    | within operands => cases operands <;> rfl
    | isNull absent => cases absent <;> rfl
    | _ => rfl
  unfold truthOf predicateTest
  cases p.negated with
  | false => exact test p.condition
  | true =>
    cases p.condition.isNullTest with
    | true => exact congrArg Truth.not (test p.condition)
    | false => exact congrArg (fun truth => Truth.or _ (Truth.not truth)) (test p.condition)

namespace View

/-- What the path leads to in the view. -/
def operand (v : View) (place : ResolvedPath) : Operand :=
  operandOf (v place.walk) place.field.name

/-- The predicate is true of what its path leads to. -/
def Passes (v : View) (schema : Schema) (root : Entity) (p : Predicate) : Prop :=
  ∃ place, schema.resolve root.name p.path = .ok place ∧ truthOf p place.field.kind (v.operand place) = some true

end View

theorem Column.At.operand_eq {c : Column} {place : ResolvedPath} (at_ : c.At walks place) (v : View) :
    Joined.operand (([] :: walks).map v) c = v.operand place := by
  have entry : (([] :: walks).map v)[c.table]? = some (v place.walk) := by
    rw [List.getElem?_map, at_.table]
    rfl
  rw [Joined.operand_eq entry, at_.name]
  rfl

/-- The tests are those of the filters, each at the end of its path. -/
theorem tests_eq_ok (named : schema.Named) (known : schema.entity root.name = .ok root) {filters : FilterSet}
    {tests : List Test} {j j' : Joins} {walks : List (List String)} (numbers : j.Numbers schema root walks)
    (ran : filters.mapM (compilePredicate schema root) j = .ok (tests, j')) :
    ∃ more, j'.Numbers schema root (walks ++ more) ∧
      (∀ v : View, (tests.all fun test => test.eval (Joined.operand (([] :: (walks ++ more)).map v)) == some true) ↔
        ∀ p ∈ filters, v.Passes schema root p) ∧
      ∀ walk, walk ∈ walks ++ more ↔ walk ∈ walks ∨ ∃ p ∈ filters, Visits schema root p.path walk := by
  induction filters generalizing tests j walks with
  | nil =>
    cases ran
    refine ⟨[], by rwa [List.append_nil], fun v => by simp, fun walk => by simp⟩
  | cons p rest ih =>
    rw [List.mapM_cons] at ran
    obtain ⟨test, between, first, ran⟩ := run_bind_eq_ok_iff.1 ran
    obtain ⟨others, after, later, ran⟩ := run_bind_eq_ok_iff.1 ran
    cases ran
    obtain ⟨⟨c, kind⟩, reached, column, first⟩ := run_bind_eq_ok_iff.1 first
    cases first
    obtain ⟨place, more, resolved, rfl, numbers', at_, mem_iff⟩ := columnAt_eq_ok named known numbers column
    -- The joins of later tests come after, and leave the column where it stands.
    obtain ⟨further, numbers'', tested, mem_iff'⟩ := ih numbers' later
    refine ⟨more ++ further, by rwa [← List.append_assoc], fun v => ?_, fun walk => ?_⟩
    · have here : v.Passes schema root p ↔ truthOf p place.field.kind (v.operand place) = some true := by
        constructor
        · rintro ⟨place', resolved', true_⟩
          obtain rfl : place = place' := Except.ok.inj (resolved.symm.trans resolved')
          exact true_
        · exact fun true_ => ⟨place, resolved, true_⟩
      rw [← List.append_assoc, List.all_cons, Bool.and_eq_true, tested, eval_predicateTest, (at_.mono further).operand_eq,
        List.forall_mem_cons, here, beq_iff_eq]
    · rw [← List.append_assoc, mem_iff', mem_iff, or_assoc]
      simp

/-! ## Statements -/

theorem compile_eq_ok {entity : String} {filters : FilterSet} {output : Entity → Building (Output × List FieldKind)}
    {compiled : Compiled} (ran : compile schema entity filters output = .ok compiled) :
    ∃ e out kinds between tests j, schema.entity entity = .ok e ∧ output e Joins.none = .ok ((out, kinds), between) ∧
      filters.mapM (compilePredicate schema e) between = .ok (tests, j) ∧
      compiled = ⟨⟨e.name, j.joins, tests, out⟩, kinds⟩ := by
  obtain ⟨e, known, ran⟩ := Results.bind_eq_ok_iff.1 ran
  obtain ⟨⟨⟨out, kinds, tests⟩, j⟩, worked, ran⟩ := Results.bind_eq_ok_iff.1 ran
  cases ran
  obtain ⟨⟨out', kinds'⟩, between, first, worked⟩ := run_bind_eq_ok_iff.1 worked
  obtain ⟨tests', after, second, worked⟩ := run_bind_eq_ok_iff.1 worked
  cases worked
  exact ⟨e, out, kinds, between, tests, j, known, first, second, rfl⟩

namespace Select
variable {store : Store} {s : Select} {first : StoredTable} {joins : List (StoredTable × Join)}

theorem joinedTables_eq_ok {given : List Join} (found : joinedTables store given = .ok joins) :
    joins.map Prod.snd = given ∧ ∀ p ∈ joins, store.table? p.2.table = some p.1 := by
  induction given generalizing joins with
  | nil =>
    cases found
    exact ⟨rfl, by simp⟩
  | cons join rest ih =>
    unfold joinedTables at found
    split at found
    · cases found
    · rename_i table there
      obtain ⟨others, later, rfl⟩ := Results.map_eq_ok_iff.1 found
      obtain ⟨same, tables⟩ := ih later
      refine ⟨by rw [List.map_cons, same], fun p member => ?_⟩
      rcases List.mem_cons.1 member with rfl | member
      · exact there
      · exact tables p member

theorem check_eq_ok (checked : s.check store = .ok (first, joins)) :
    store.table? s.table = some first ∧ joinedTables store s.joins = .ok joins := by
  obtain ⟨_, _, checked⟩ := Results.bind_eq_ok_iff.1 checked
  split at checked
  · cases checked
  · rename_i table there
    obtain ⟨joins', found, checked⟩ := Results.bind_eq_ok_iff.1 checked
    split at checked
    · cases checked
    · cases checked
      exact ⟨there, found⟩

theorem map_join_boundJoins (s : Select) (joins : List (StoredTable × Join)) :
    (s.boundJoins joins).map BoundJoin.join = joins.map Prod.snd := by
  refine List.ext_getElem? fun i => ?_
  simp only [boundJoins, List.getElem?_map, List.getElem?_mapIdx]
  cases joins[i]? <;> rfl

theorem table?_of_mem_boundJoins {given : List Join} (found : joinedTables store given = .ok joins) :
    ∀ b ∈ s.boundJoins joins, store.table? b.join.table = some b.table := by
  intro b member
  obtain ⟨i, bound, rfl⟩ := List.mem_mapIdx.1 member
  exact (joinedTables_eq_ok found).2 _ (List.getElem_mem bound)

end Select

/-- The rows that pass the tests of a statement. -/
def Database.selected (db : Database) (s : Select) : Except SourceError (List Joined) :=
  (s.check db.store).map fun (first, joins) => s.matching first joins

/-- The record of the table is in one joined row at most: each of the walks from it leads on to one row at most. -/
def LeadsOnce (db : Database) (root : Entity) (walks : List (List String)) (table : StoredTable) (record : StoredRow) : Prop :=
  ∀ v : View, v.Follows db root walks → v [] = (table, some record) → v.Once db root walks

/-- The rows are those that each record of the table fans out to, one record after another: those of the views from it that
pass the filters. A record from which each walk leads on to one row at most has one row alone, if it has any. -/
structure FansOut (db : Database) (root : Entity) (filters : FilterSet) (walks : List (List String)) (table : StoredTable)
    (fan : StoredRow → List Joined) (rows : List Joined) : Prop where
  rows_eq : rows = table.rows.toList.flatMap fan
  mem_iff : ∀ record ∈ table.rows.toList, ∀ row, row ∈ fan record ↔ ∃ v : View, v.Follows db root walks ∧
    v [] = (table, some record) ∧ (∀ p ∈ filters, v.Passes db.schema root p) ∧ row = ([] :: walks).map v
  alone : ∀ record ∈ table.rows.toList, LeadsOnce db root walks table record → ∀ row ∈ fan record, fan record = [row]

/-- The rows are those of the views along the walks that pass the filters, and every record of the entity is in a view. -/
structure Selects (db : Database) (root : Entity) (filters : FilterSet) (walks : List (List String)) (rows : List Joined) :
    Prop where
  mem_iff : ∀ row, row ∈ rows ↔ ∃ v : View, v.Follows db root walks ∧ (∀ p ∈ filters, v.Passes db.schema root p) ∧
    row = ([] :: walks).map v
  kept : ∀ table, db.store.table? root.name = some table → ∀ record ∈ table.rows.toList,
    ∃ v : View, v.Follows db root walks ∧ v [] = (table, some record)
  fans : ∃ table fan, db.store.table? root.name = some table ∧ FansOut db root filters walks table fan rows

/-- What passes the tests of what is joined to some of the table's rows. -/
def Select.passing (s : Select) (table : StoredTable) (joins : List (StoredTable × Join)) (starts : List StoredRow) :
    List Joined :=
  (joinAll (s.boundJoins joins) (starts.map fun start => [(table, some start)])).filter fun joined =>
    s.tests.all fun test => test.eval (Joined.operand joined) == some true

/-- A statement goes over its table's records one after another. -/
theorem Select.matching_eq_flatMap (s : Select) (table : StoredTable) (joins : List (StoredTable × Join)) :
    s.matching table joins = table.rows.toList.flatMap fun record => s.passing table joins [record] := by
  unfold matching passing
  rw [joinAll_eq_flatMap, List.filter_flatMap, List.flatMap_map]
  rfl

/-- A statement goes over views along the walks of its output and its filters. -/
theorem selects_of_compiled {db : Database} (named : db.schema.Named) (known : db.schema.entity root.name = .ok root)
    {filters : FilterSet} {tests : List Test} {out : Output} {j j' : Joins} (numbers : j.Numbers db.schema root walks)
    (ran : filters.mapM (compilePredicate db.schema root) j = .ok (tests, j')) {rows : List Joined}
    (selected : db.selected ⟨root.name, j'.joins, tests, out⟩ = .ok rows) :
    ∃ more, (∀ walk, walk ∈ walks ++ more ↔ walk ∈ walks ∨ ∃ p ∈ filters, Visits db.schema root p.path walk) ∧
      Selects db root filters (walks ++ more) rows := by
  obtain ⟨more, numbers', tested, mem_iff⟩ := tests_eq_ok named known numbers ran
  obtain ⟨⟨first, joins⟩, checked, rfl⟩ := Results.map_eq_ok_iff.1 selected
  obtain ⟨table, joined⟩ := Select.check_eq_ok checked
  let s : Select := ⟨root.name, j'.joins, tests, out⟩
  have bound : (s.boundJoins joins).map BoundJoin.join = j'.joins :=
    (s.map_join_boundJoins joins).trans (Select.joinedTables_eq_ok joined).1
  have there := Select.table?_of_mem_boundJoins (s := s) joined
  have passing_iff : ∀ starts ⊆ first.rows.toList, ∀ row, row ∈ s.passing first joins starts ↔ ∃ v : View,
      v.Follows db root (walks ++ more) ∧ (∃ start ∈ starts, v [] = (first, some start)) ∧
        (∀ p ∈ filters, v.Passes db.schema root p) ∧ row = ([] :: (walks ++ more)).map v := by
    intro starts inside row
    unfold Select.passing
    rw [List.mem_filter, numbers'.along.mem_joinAll table inside bound there]
    constructor
    · rintro ⟨⟨v, follows, begun, rfl⟩, passed⟩
      exact ⟨v, follows, begun, (tested v).1 passed, rfl⟩
    · rintro ⟨v, follows, begun, passes, rfl⟩
      exact ⟨⟨v, follows, begun, rfl⟩, (tested v).2 passes⟩
  have kept : ∀ record ∈ first.rows.toList, ∃ v : View, v.Follows db root (walks ++ more) ∧ v [] = (first, some record) := by
    intro record member
    obtain ⟨rest, extended⟩ := exists_mem_joinAll (s.boundJoins joins)
      (List.mem_map_of_mem (f := fun row => [(first, some row)]) member)
    obtain ⟨v, follows, _, row⟩ := (numbers'.along.mem_joinAll table (List.Subset.refl _) bound there _).1 extended
    exact ⟨v, follows, (List.cons.inj row).1.symm⟩
  refine ⟨more, mem_iff, fun row => ?_, fun table' found => ?_, first, fun record => s.passing first joins [record], table, ?_⟩
  · refine (passing_iff _ (List.Subset.refl _) row).trans ⟨?_, ?_⟩
    · rintro ⟨v, follows, _, rest⟩
      exact ⟨v, follows, rest⟩
    · rintro ⟨v, follows, rest⟩
      obtain ⟨table', found, start, member, here⟩ := id follows.start
      obtain rfl : first = table' := Option.some.inj (table.symm.trans found)
      exact ⟨v, follows, ⟨start, member, here⟩, rest⟩
  · obtain rfl : first = table' := Option.some.inj (table.symm.trans found)
    exact kept
  · refine ⟨s.matching_eq_flatMap first joins, fun record member row => ?_, fun record member leads row among => ?_⟩
    · simpa using passing_iff [record] (by simpa using member) row
    -- What is joined to the record is its one view, so that what passes is that or nothing.
    · obtain ⟨v, follows, begun⟩ := kept record member
      have one : joinAll (s.boundJoins joins) [[(first, some record)]] = [([] :: (walks ++ more)).map v] := by
        have sole : ∀ u ∈ [v], u.Sole db root (walks ++ more) := by
          simpa using follows.sole (leads v follows begun)
        simpa [begun] using numbers'.along.joinAll_eq bound there sole
      have few : (s.passing first joins [record]).length ≤ 1 := by
        unfold Select.passing
        refine (List.length_filter_le _ _).trans (le_of_eq ?_)
        rw [List.map_singleton, one, List.length_singleton]
      obtain ⟨only, split⟩ := List.length_eq_one_iff.1 (le_antisymm few (List.length_pos_of_mem among))
      rw [split, List.mem_singleton] at among
      rw [split, among]

end Sql
end Reporting
