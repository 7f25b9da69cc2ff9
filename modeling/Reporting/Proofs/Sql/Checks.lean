import Reporting.Proofs.Sql.Mirror

/-!
Statements that a database accepts. A statement whose columns are fields at the ends of its walks is run, unless it goes
beyond a limit on tables, operands or cells of a row (`Mirrors.check_eq_ok`).
-/

namespace Reporting.Sql

/-- The statement keeps to the limits on the tables it joins, on the cells of a row and on operands. -/
structure Select.Within (s : Select) : Prop where
  joins : s.joins.length < Select.maxJoined
  width : s.output.width ≤ Select.maxWidth
  operands : (Part.all s.parts).count .operand ≤ maxOperands

instance (s : Select) : Decidable s.Within :=
  decidable_of_iff (s.joins.length < Select.maxJoined ∧ s.output.width ≤ Select.maxWidth ∧
    (Part.all s.parts).count .operand ≤ maxOperands) ⟨fun ⟨j, w, o⟩ => ⟨j, w, o⟩, fun w => ⟨w.joins, w.width, w.operands⟩⟩

/-- The column is a field of the entity at the end of one of the walks. -/
def Column.Reads (c : Column) (schema : Schema) (root : Entity) (walks : List (List String)) : Prop :=
  ∃ walk e f, ([] :: walks)[c.table]? = some walk ∧ schema.follow root walk = some e ∧ f ∈ e.fields ∧ c.name = f.name

section Columns
variable {schema : Schema} {root : Entity} {walks : List (List String)} {c : Column}

theorem Column.Reads.mono (reads : c.Reads schema root walks) (more : List (List String)) : c.Reads schema root (walks ++ more) := by
  obtain ⟨walk, e, f, place, reached, field, named⟩ := reads
  refine ⟨walk, e, f, ?_, reached, field, named⟩
  rw [← List.cons_append, List.getElem?_append_left (List.getElem?_eq_some_iff.1 place).1, place]

theorem Column.At.reads {place : ResolvedPath} (at_ : c.At walks place) {path : String}
    (known : schema.entity root.name = .ok root) (resolved : schema.resolve root.name path = .ok place) :
    c.Reads schema root walks := by
  obtain ⟨last, leads, field⟩ := Schema.leads_of_resolve known resolved
  exact ⟨place.walk, last, place.field, at_.table, leads.follow_eq, field, at_.name⟩

/-- A join is of the table of the entity that its walk leads to, and by a relation at the end of a walk before. -/
theorem Along.getElem? {joins : List Join} (along : Along schema root joins walks) {i : Nat} {join : Join}
    (there : joins[i]? = some join) : join.column.Reads schema root walks ∧
      ∃ walk e, walks[i]? = some walk ∧ schema.follow root walk = some e ∧ join.table = e.name ∧ join.key = e.primaryKey := by
  induction along generalizing i with
  | none => simp at there
  | @join joins walks place before name e along starts reached fresh ih =>
    rw [List.getElem?_append] at there
    split at there
    · rename_i earlier
      obtain ⟨reads, walk, d, found, others⟩ := ih there
      refine ⟨reads.mono _, walk, d, ?_, others⟩
      rw [List.getElem?_append_left (List.getElem?_eq_some_iff.1 found).1, found]
    · rename_i later
      obtain ⟨last, rfl⟩ : i - joins.length = 0 ∧ _ = join := by
        simpa [List.getElem?_singleton] using there
      have here : i = walks.length := by
        rw [← along.length_eq]
        omega
      refine ⟨?_, before ++ [name], e, by simp [here], reached, rfl, rfl⟩
      rw [Schema.follow_append_singleton] at reached
      obtain ⟨d, start, next⟩ := Option.bind_eq_some_iff.1 reached
      obtain ⟨f, relation, _⟩ := Option.bind_eq_some_iff.1 next
      have named : f.name = name := by
        have passed := List.find?_some relation
        simp only [Bool.and_eq_true, beq_iff_eq] at passed
        exact passed.1
      have reads : Column.Reads ⟨place, name⟩ schema root walks :=
        ⟨before, d, f, starts, start, List.mem_of_find?_eq_some relation, named.symm⟩
      exact reads.mono _

end Columns

/-- The columns that the statement's output names. -/
def Output.columns : Output → List Column
  | rows columns order => columns ++ order.toList
  | aggregate _ c => [c]
  | groups g _ c => [g, c]
  | distinct c => [c]

/-- The piece is no name of something else. -/
def Piece.isPlain : Piece → Bool
  | fixed _ => true
  | operand => true
  | _ => false

theorem Piece.mem_commas {p : Piece} {pieces : List Piece} (member : p ∈ commas pieces) : p = fixed ", " ∨ p ∈ pieces := by
  unfold commas at member
  match pieces with
  | [] => cases member
  | [q] => exact Or.inr member
  | q :: next :: rest =>
    rcases List.mem_cons.1 member with rfl | member
    · exact Or.inr (List.mem_cons_self ..)
    rcases List.mem_cons.1 member with rfl | later
    · exact Or.inl rfl
    · exact (mem_commas later).imp_right (List.mem_cons_of_mem q)

/-- The text of an output is of fixed words and its columns. -/
theorem Output.mem_pieces {out : Output} {p : Piece} (member : p ∈ out.pieces ++ out.tailPieces) :
    (∃ word, p = .fixed word) ∨ ∃ c ∈ out.columns, p = .column c := by
  cases out with
  | rows cols order =>
    rcases List.mem_append.1 member with cell | tail
    · rcases Piece.mem_commas cell with rfl | column
      · exact Or.inl ⟨_, rfl⟩
      · obtain ⟨c, inside, rfl⟩ := List.mem_map.1 column
        exact Or.inr ⟨c, List.mem_append_left _ inside, rfl⟩
    · cases order with
      | none =>
        rw [List.mem_singleton.1 tail]
        exact Or.inl ⟨_, rfl⟩
      | some c =>
        simp only [tailPieces, List.mem_cons, List.not_mem_nil, or_false] at tail
        rcases tail with rfl | rfl
        · exact Or.inl ⟨_, rfl⟩
        · exact Or.inr ⟨c, by simp [columns], rfl⟩
  | aggregate method c =>
    simp only [pieces, aggregatePieces, tailPieces, List.append_nil, List.mem_cons, List.not_mem_nil, or_false] at member
    rcases member with rfl | rfl | rfl <;> simp [columns]
  | groups g method c =>
    simp only [pieces, aggregatePieces, tailPieces, List.cons_append, List.nil_append, List.mem_cons, List.not_mem_nil,
      or_false] at member
    rcases member with rfl | rfl | rfl | rfl | rfl | rfl | rfl <;> simp [columns]
  | distinct c =>
    simp only [pieces, tailPieces, List.cons_append, List.nil_append, List.mem_cons, List.not_mem_nil, or_false] at member
    rcases member with rfl | rfl | rfl | rfl <;> simp [columns]

/-- The columns of the statement are fields, it yields something, and has one test at most, which is not nested. -/
structure Select.Proper (s : Select) (schema : Schema) (root : Entity) (walks : List (List String)) : Prop where
  table : s.table = root.name
  along : Along schema root s.joins walks
  columns : ∀ c ∈ s.output.columns, c.Reads schema root walks
  tests : ∀ t ∈ s.tests, ∃ c operands, t = .isAmong c operands ∧ c.Reads schema root walks
  single : s.tests.length ≤ 1
  width : s.output.width ≠ 0

theorem Select.Proper.flat {s : Select} {schema : Schema} {root : Entity} {walks : List (List String)}
    (proper : s.Proper schema root walks) : ∀ t ∈ s.tests, t.depth ≤ 3 := by
  intro t member
  obtain ⟨c, operands, rfl, _⟩ := proper.tests t member
  exact Nat.le_refl 3

/-- The text of a test for one of the operands names no other column. -/
theorem Test.mem_pieces_isAmong {c : Column} {operands : List Cell} {p : Piece} (member : p ∈ (isAmong c operands).pieces) :
    p = .column c ∨ p.isPlain := by
  simp only [pieces, List.mem_append, List.mem_cons, List.not_mem_nil, or_false] at member
  rcases member with ((rfl | rfl) | operand) | rfl
  · exact Or.inl rfl
  · exact Or.inr rfl
  · rcases Piece.mem_commas operand with rfl | operand
    · exact Or.inr rfl
    · obtain ⟨_, _, rfl⟩ := List.mem_map.1 operand
      exact Or.inr rfl
  · exact Or.inr rfl

/-! ## Parts of the text -/

namespace Select
variable {s : Select}

theorem depths_le (single : s.tests.length ≤ 1) (flat : ∀ t ∈ s.tests, t.depth ≤ 3) : ∀ depth ∈ Test.depths s.tests, depth ≤ 3 := by
  match tests : s.tests with
  | [] => simp [Test.depths]
  | [t] =>
    rw [tests] at flat
    simpa [Test.depths, Test.depthsTogether] using flat
  | a :: b :: rest =>
    rw [tests] at single
    simp at single

theorem mem_joinParts {joins : List Join} {place : Nat} {part : Part} (member : part ∈ joinParts place joins) :
    ∃ i join, joins[i]? = some join ∧ part = joinPart (place + i) join := by
  induction joins generalizing place with
  | nil => cases member
  | cons join rest ih =>
    rcases List.mem_cons.1 member with rfl | later
    · exact ⟨0, join, rfl, rfl⟩
    · obtain ⟨i, join', there, rfl⟩ := ih later
      exact ⟨i + 1, join', there, by rw [Nat.add_assoc, Nat.add_comm 1 i]⟩

theorem mem_testParts {part : Part} (member : part ∈ s.testParts) :
    ∃ t ∈ s.tests, ∃ word depth, depth ∈ Test.depths s.tests ∧
      part = ⟨.fixed word :: t.pieces, if depth ≤ maxDepth then none else some (.whole tooDeep)⟩ := by
  obtain ⟨i, bound, rfl⟩ := List.mem_mapIdx.1 member
  have inside := List.of_mem_zip (List.getElem_mem bound)
  exact ⟨_, inside.1, _, _, inside.2, rfl⟩

theorem mem_of_mem_placedColumns {place n : Nat} {c : Column} {pieces : List Piece}
    (member : (n, c) ∈ Piece.placedColumns place pieces) : .column c ∈ pieces := by
  obtain ⟨⟨place', p⟩, inside, same⟩ := List.mem_filterMap.1 member
  have among : p ∈ pieces := by
    clear member same
    induction pieces generalizing place with
    | nil => cases inside
    | cons first rest ih =>
      rcases List.mem_cons.1 inside with here | later
      · cases here
        exact List.mem_cons_self ..
      · exact List.mem_cons_of_mem _ (ih later)
  cases p with
  | column c' =>
    cases same
    exact among
  | _ => cases same

theorem mem_placedTests {place : Nat} {pairs : List (Test × Part)} {t : Test} {columns : List (Nat × Column)}
    (member : (t, columns) ∈ placedTests place pairs) :
    ∃ part place', (t, part) ∈ pairs ∧ columns = Piece.placedColumns place' part.pieces := by
  induction pairs generalizing place with
  | nil => cases member
  | cons pair rest ih =>
    obtain ⟨t', part⟩ := pair
    rcases List.mem_cons.1 member with here | later
    · cases here
      exact ⟨part, place, List.mem_cons_self .., rfl⟩
    · obtain ⟨part', place', inside, same⟩ := ih later
      exact ⟨part', place', List.mem_cons_of_mem _ inside, same⟩

/-- Each join nests the conditions by one more. -/
theorem depth_le (single : s.tests.length ≤ 1) (flat : ∀ t ∈ s.tests, t.depth ≤ 3) : s.depth ≤ 3 + s.joins.length := by
  have step : ∀ (joins : List Join) (depth : Nat),
      joins.foldl (fun joint _ => if joint = 0 then 3 else max joint 3 + 1) depth ≤ max depth 3 + joins.length := by
    intro joins
    induction joins with
    | nil =>
      intro depth
      simp
    | cons join rest ih =>
      intro depth
      have one : (if depth = 0 then 3 else max depth 3 + 1) ≤ max depth 3 + 1 := by split <;> omega
      have later := ih (if depth = 0 then 3 else max depth 3 + 1)
      rw [List.foldl_cons, List.length_cons]
      omega
  have start : (Test.depths s.tests).getLast?.getD 0 ≤ 3 := by
    cases last : (Test.depths s.tests).getLast? with
    | none => simp
    | some depth => exact depths_le single flat depth (List.mem_of_getLast? last)
  have all := step s.joins ((Test.depths s.tests).getLast?.getD 0)
  unfold depth
  omega

theorem joinedTables_of_known {store : Store} {given : List Join} (known : ∀ join ∈ given, ∃ t, store.table? join.table = some t) :
    ∃ joins, joinedTables store given = .ok joins := by
  induction given with
  | nil => exact ⟨[], rfl⟩
  | cons join rest ih =>
    obtain ⟨t, there⟩ := known join (List.mem_cons_self ..)
    obtain ⟨joins, later⟩ := ih fun other member => known other (List.mem_cons_of_mem join member)
    refine ⟨(t, join) :: joins, ?_⟩
    unfold joinedTables
    rw [there, later]
    rfl

/-- The column is one of its table. -/
def Present (tables : List StoredTable) (c : Column) : Prop :=
  ∃ t, tables[c.table]? = some t ∧ t.has c.name

theorem missing?_eq_none {α : Type} {tables : List StoredTable} {columnOf : α → Column} {columns : List α}
    (present : ∀ a ∈ columns, Present tables (columnOf a)) : missing? tables columnOf columns = none := by
  refine List.find?_eq_none.2 fun a member => ?_
  obtain ⟨t, there, has⟩ := present a member
  simp [there, has]

theorem missingInTests?_eq_none {tables : List StoredTable} {tests : List (Test × List (Nat × Column))}
    (present : ∀ t ∈ tests, ∀ p ∈ t.2, Present tables p.2) : missingInTests? tables none tests = none := by
  induction tests with
  | nil => rfl
  | cons first rest ih =>
    obtain ⟨t, columns⟩ := first
    have here : missing? tables Prod.snd columns = none := missing?_eq_none (present _ (List.mem_cons_self ..))
    have later := ih fun other member => present other (List.mem_cons_of_mem _ member)
    simp [missingInTests?, here, later]

end Select

/-! ## Statements of a database -/

namespace Mirrors
variable {db : Database} {m : Memory} {root : Entity} {walks : List (List String)} {s : Select} {c : Column}

theorem isReadable_of_reads (mirrors : Mirrors db m) (rootKnown : m.schema.entity root.name = .ok root)
    (reads : c.Reads m.schema root walks) : (Piece.column c).isReadable := by
  obtain ⟨walk, e, f, _, reached, field, named⟩ := reads
  have known := Schema.entity_of_follow mirrors.relational.named rootKnown reached
  rw [← mirrors.schema] at known
  have names := (mirrors.holds.names _ _ known).columns f field
  rwa [← named] at names

theorem isReadable_of_output (mirrors : Mirrors db m) (rootKnown : m.schema.entity root.name = .ok root)
    (proper : s.Proper m.schema root walks) : ∀ p ∈ s.output.pieces ++ s.output.tailPieces, p.isReadable := by
  intro p member
  rcases Output.mem_pieces member with ⟨word, rfl⟩ | ⟨c, inside, rfl⟩
  · rfl
  · exact mirrors.isReadable_of_reads rootKnown (proper.columns c inside)

/-- The tables of a statement are those of the entities at the ends of its walks. -/
theorem present_of_reads (mirrors : Mirrors db m) (rootKnown : m.schema.entity root.name = .ok root)
    (along : Along m.schema root s.joins walks) {first : StoredTable} {joins : List (StoredTable × Join)}
    (table : db.store.table? root.name = some first) (joined : Select.joinedTables db.store s.joins = .ok joins)
    (reads : c.Reads m.schema root walks) : Select.Present (first :: joins.map Prod.fst) c := by
  obtain ⟨walk, e, f, place, reached, field, named⟩ := reads
  have known := Schema.entity_of_follow mirrors.relational.named rootKnown reached
  obtain ⟨t, found, holds⟩ := mirrors.table known
  refine ⟨t, ?_, named ▸ holds.has_of_mem (mirrors.tabular known) field⟩
  obtain ⟨same, tables⟩ := Select.joinedTables_eq_ok joined
  cases at_ : c.table with
  | zero =>
    rw [at_] at place
    cases place
    cases reached
    exact table.symm.trans found
  | succ i =>
    rw [at_, List.getElem?_cons_succ] at place
    rw [List.getElem?_cons_succ, List.getElem?_map]
    have bound : i < s.joins.length := by
      rw [along.length_eq]
      exact (List.getElem?_eq_some_iff.1 place).1
    obtain ⟨_, walk', e', place', reached', own, _⟩ := along.getElem? (List.getElem?_eq_getElem bound)
    obtain rfl : walk = walk' := Option.some.inj (place.symm.trans place')
    obtain rfl : e = e' := Option.some.inj (reached.symm.trans reached')
    have lengths : joins.length = s.joins.length := by rw [← same, List.length_map]
    have there : joins[i]? = some joins[i] := List.getElem?_eq_getElem (by omega)
    have given : joins[i].2 = s.joins[i] := by
      have entry : (joins.map Prod.snd)[i]? = some joins[i].2 := by rw [List.getElem?_map, there]; rfl
      rw [same, List.getElem?_eq_getElem bound] at entry
      exact (Option.some.inj entry).symm
    have stored := tables joins[i] (List.getElem_mem _)
    rw [given, own, found] at stored
    rw [there]
    exact congrArg some (Option.some.inj stored).symm

section Accepted
variable {join : Join} {i : Nat}

/-- Where a join comes from and leads to. -/
theorem exists_end (mirrors : Mirrors db m) (rootKnown : m.schema.entity root.name = .ok root)
    (along : Along m.schema root s.joins walks) (there : s.joins[i]? = some join) :
    ∃ e, join.column.Reads m.schema root walks ∧ Column.Reads ⟨i + 1, join.key⟩ m.schema root walks ∧
      m.schema.entity e.name = .ok e ∧ join.table = e.name := by
  obtain ⟨reads, walk, e, place, reached, own, key⟩ := along.getElem? there
  have known := Schema.entity_of_follow mirrors.relational.named rootKnown reached
  obtain ⟨k, field, name, _⟩ := (mirrors.tabular known).key
  exact ⟨e, reads, ⟨walk, e, k, place, reached, field, by rw [name, key]⟩, known, own⟩

theorem isReadable_table (mirrors : Mirrors db m) {e : Entity} (known : m.schema.entity e.name = .ok e) :
    (Piece.name e.name).isReadable := by
  rw [← mirrors.schema] at known
  exact (mirrors.holds.names _ _ known).own

/-- The text of a proper statement can be read. -/
theorem read_parts (mirrors : Mirrors db m) (rootKnown : m.schema.entity root.name = .ok root)
    (proper : s.Proper m.schema root walks) (within : s.Within) : Part.read s.parts = .ok () := by
  have output := mirrors.isReadable_of_output rootKnown proper
  refine read_eq_ok_iff.2 ⟨fun part member => ?_, within.operands⟩
  simp only [Select.parts, Select.tableParts, List.mem_append, List.mem_cons, List.not_mem_nil, or_false] at member
  rcases member with ((rfl | rfl | among) | among) | rfl
  · -- The output.
    refine ⟨if_neg proper.width, ?_⟩
    intro p member
    simp only [Select.outputPart, List.cons_append, List.mem_cons, List.mem_append, List.not_mem_nil, or_false] at member
    rcases member with rfl | inside | rfl
    · rfl
    · exact output p (List.mem_append_left _ inside)
    · rfl
  · -- The first table.
    refine ⟨rfl, ?_⟩
    have own := mirrors.isReadable_table rootKnown
    rw [← proper.table] at own
    simpa [Piece.isReadable] using own
  · -- The joins.
    obtain ⟨i, join, there, rfl⟩ := Select.mem_joinParts among
    have bound := (List.getElem?_eq_some_iff.1 there).1
    have few := within.joins
    obtain ⟨e, reads, readsKey, known, own⟩ := mirrors.exists_end rootKnown proper.along there
    refine ⟨if_pos ?_, ?_⟩
    · unfold Select.maxNamed Select.maxJoined at *
      omega
    · have table := mirrors.isReadable_table known
      rw [← own] at table
      have column := mirrors.isReadable_of_reads rootKnown reads
      have key := mirrors.isReadable_of_reads rootKnown readsKey
      rw [Nat.add_comm 1 i]
      simp only [Select.joinPart, Select.joinPieces, List.forall_mem_cons]
      exact ⟨rfl, table, rfl, column, rfl, key, by simp⟩
  · -- The tests.
    obtain ⟨t, inside, word, depth, nested, rfl⟩ := Select.mem_testParts among
    have shallow := Select.depths_le proper.single proper.flat depth nested
    refine ⟨if_pos (by unfold maxDepth; omega), List.forall_mem_cons.2 ⟨rfl, fun p member => ?_⟩⟩
    obtain ⟨c, operands, rfl, reads⟩ := proper.tests t inside
    rcases Test.mem_pieces_isAmong member with rfl | plain
    · exact mirrors.isReadable_of_reads rootKnown reads
    · cases p with
      | fixed word => rfl
      | operand => rfl
      | _ => cases plain
  · -- The end.
    exact ⟨rfl, fun p member => output p (List.mem_append_right _ member)⟩

/-- Nothing is wrong with a proper statement on its tables. -/
theorem tablesFailure?_eq_none (mirrors : Mirrors db m) (rootKnown : m.schema.entity root.name = .ok root)
    (proper : s.Proper m.schema root walks) (within : s.Within) {first : StoredTable} {joins : List (StoredTable × Join)}
    (table : db.store.table? root.name = some first) (joined : Select.joinedTables db.store s.joins = .ok joins) :
    s.tablesFailure? (first :: joins.map Prod.fst) = none := by
  have present : ∀ {c : Column}, c.Reads m.schema root walks → Select.Present (first :: joins.map Prod.fst) c :=
    fun reads => mirrors.present_of_reads rootKnown proper.along table joined reads
  have output : Select.missing? (first :: joins.map Prod.fst) Prod.snd s.outputColumns = none := by
    refine Select.missing?_eq_none fun p member => present (proper.columns p.2 ?_)
    have among := Select.mem_of_mem_placedColumns member
    simp only [Select.outputPart, List.cons_append, List.mem_cons, List.mem_append, List.not_mem_nil, or_false,
      reduceCtorEq, false_or] at among
    rcases Output.mem_pieces (List.mem_append_left _ among) with ⟨word, none_⟩ | ⟨c, inside, same⟩
    · cases none_
    · rw [Piece.column.inj same]
      exact inside
  have tests : Select.missingInTests? (first :: joins.map Prod.fst) none s.testColumns = none := by
    refine Select.missingInTests?_eq_none fun pair member p inside => ?_
    unfold Select.testColumns at member
    split at member
    · cases member
    · obtain ⟨part, place, pairs, columns⟩ := Select.mem_placedTests member
      rw [columns] at inside
      obtain ⟨t, among, word, depth, _, rfl⟩ := Select.mem_testParts (List.of_mem_zip pairs).2
      obtain ⟨c, operands, rfl, reads⟩ := proper.tests t among
      have column : .column p.2 ∈ Piece.fixed word :: (Test.isAmong c operands).pieces :=
        Select.mem_of_mem_placedColumns inside
      rcases Test.mem_pieces_isAmong ((List.mem_cons.1 column).resolve_left nofun) with same | plain
      · rw [Piece.column.inj same]
        exact present reads
      · cases plain
  have keys : ∀ c ∈ s.joins.zipIdx.flatMap fun p => [p.1.column, Column.mk (p.2 + 1) p.1.key],
      Select.Present (first :: joins.map Prod.fst) c := by
    intro c member
    obtain ⟨p, inside, among⟩ := List.mem_flatMap.1 member
    obtain ⟨e, reads, readsKey, _⟩ := mirrors.exists_end rootKnown proper.along (List.mk_mem_zipIdx_iff_getElem?.1 inside)
    rcases List.mem_cons.1 among with rfl | last
    · exact present reads
    · rw [List.mem_singleton.1 last]
      exact present readsKey
  have joinColumns : Select.missing? (first :: joins.map Prod.fst) id
      (s.joins.zipIdx.flatMap fun p => [p.1.column, Column.mk (p.2 + 1) p.1.key]) = none :=
    Select.missing?_eq_none keys
  have depth := Select.depth_le proper.single proper.flat
  have few := within.joins
  have lengths : joins.length = s.joins.length := by rw [← (Select.joinedTables_eq_ok joined).1, List.length_map]
  unfold Select.tablesFailure?
  unfold Select.maxJoined at few
  rw [if_neg (by unfold maxDepth; omega), if_neg (Nat.not_lt.2 within.width), output, tests]
  simp only [Option.orElse_eq_orElse, Option.orElse_eq_or, Option.or_none, joinColumns]
  rw [if_neg]
  rw [List.length_cons, List.length_map]
  unfold Select.maxJoined
  omega

/-- A proper statement within the limits is accepted. -/
theorem check_eq_ok (mirrors : Mirrors db m) (rootKnown : m.schema.entity root.name = .ok root)
    (proper : s.Proper m.schema root walks) (within : s.Within) : ∃ first joins, s.check db.store = .ok (first, joins) := by
  obtain ⟨first, table, _⟩ := mirrors.table rootKnown
  obtain ⟨joins, joined⟩ : ∃ joins, Select.joinedTables db.store s.joins = .ok joins := by
    refine Select.joinedTables_of_known fun join member => ?_
    obtain ⟨i, there⟩ := List.mem_iff_getElem?.1 member
    obtain ⟨e, _, _, known, own⟩ := mirrors.exists_end rootKnown proper.along there
    obtain ⟨t, found, _⟩ := mirrors.table known
    exact ⟨t, by rw [own, found]⟩
  refine ⟨first, joins, Results.bind_eq_ok_iff.2 ⟨(), mirrors.read_parts rootKnown proper within, ?_⟩⟩
  rw [proper.table, table]
  refine Results.bind_eq_ok_iff.2 ⟨joins, joined, ?_⟩
  rw [mirrors.tablesFailure?_eq_none rootKnown proper within table joined]

end Accepted
end Mirrors
end Reporting.Sql
