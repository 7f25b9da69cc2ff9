import Reporting.Csv.Load
import Reporting.Proofs.Memory.Index
import Reporting.Proofs.Walks

/-!
Tables loaded from delimited text. A record that can be read is in its table (`Csv.mem_of_loadAll`), with the cells that
its texts are read as (`Csv.Entry.parsed`). A relation reads a text as the key that an integer has, or that a text has if
it is not written like another integer than it reads as (`Csv.parseCell_relation`).
-/

namespace Reporting.Csv

/-! ## Cells -/

/-- A text that reads as an integer is written as the integer is. -/
def Canonical (cell : String) : Prop :=
  ∀ i, Decimal.readInt64? (Text.trimChars cell.toList) = some i → toString i.toInt = Text.trim cell

theorem parseCell_relation_of_integer {cell : String} {v : Value} (read : parseCell cell .integer = .ok v) :
    parseCell cell .relation = .ok v := by
  unfold parseCell at read ⊢
  dsimp only at read ⊢
  split at read
  · rename_i none_
    rw [if_pos none_]
    exact read
  · rename_i some_
    rw [if_neg some_]
    unfold readCell? at read ⊢
    cases number : Decimal.readInt64? (Text.trimChars cell.toList) with
    | none =>
      rw [number] at read
      cases read
    | some i =>
      rw [number] at read
      exact read

theorem parseCell_text {cell : String} {v : Value} (read : parseCell cell .text = .ok v) (present : v ≠ .null) :
    v = .text (Text.trim cell) ∧ (Text.trimChars cell.toList).isEmpty = false := by
  unfold parseCell at read
  dsimp only at read
  split at read
  · cases read
    exact absurd rfl present
  · rename_i some_
    cases read
    exact ⟨rfl, by simpa using some_⟩

theorem parseCell_relation_of_text {cell : String} {v : Value} (read : parseCell cell .text = .ok v) (present : v ≠ .null) :
    ∃ w, parseCell cell .relation = .ok w ∧ w ≠ .null ∧ (w.key = v.key ↔ Canonical cell) := by
  obtain ⟨rfl, some_⟩ := parseCell_text read present
  unfold parseCell Canonical
  dsimp only
  rw [some_, if_neg Bool.false_ne_true]
  unfold readCell?
  dsimp only
  cases number : Decimal.readInt64? (Text.trimChars cell.toList) with
  | none => exact ⟨_, rfl, nofun, by simp [Value.key, Value.display, Text.trim]⟩
  | some i => exact ⟨_, rfl, nofun, by simp [Value.key, Value.display]⟩

/-- The key of the relation is always that of an integer, and that of a text just if the text is canonical. -/
theorem parseCell_relation {cell : String} {kind : FieldKind} {v : Value} (which : kind = .integer ∨ kind = .text)
    (read : parseCell cell kind = .ok v) (present : v ≠ .null) :
    ∃ w, parseCell cell .relation = .ok w ∧ w ≠ .null ∧ (w.key = v.key ↔ kind = .integer ∨ Canonical cell) := by
  rcases which with rfl | rfl
  · exact ⟨v, parseCell_relation_of_integer read, present, by simp⟩
  · obtain ⟨w, reads, some_, key⟩ := parseCell_relation_of_text read present
    exact ⟨w, reads, some_, by simp [key]⟩

/-! ## Records -/

/-- The record is one of the text's, and the cell of the field in it is this. Where the header names a field twice, the
last place counts. -/
structure Entry (delimiter : UInt8) (bytes : List UInt8) (e : Entity) (f : Field) (cell : String) (record : Record) :
    Prop where
  found : ∃ header rest names raw cells front place back, records delimiter bytes = header :: rest ∧
    header.text = .ok names ∧ raw ∈ rest ∧ raw.text = .ok cells ∧ coerceRow e (columnsOf e names) cells = .ok record ∧
    columnsOf e names = front ++ (place, f) :: back ∧ (∀ p ∈ back, p.2.name ≠ f.name) ∧ cells[place]?.getD "" = cell

section Columns
variable {columns : List (Nat × Field)} {cells : List String} {record start : Record}

/-- A cell that no column is for stays. -/
theorem get?_coerceColumns_of_ne {name : String} (others : ∀ p ∈ columns, p.2.name ≠ name)
    (ran : columns.foldlM (fun record (place, f) =>
      (parseCell (cells[place]?.getD "") f.kind).map fun v => Keyed.insert record f.name v) start = .ok record) :
    record.get? name = start.get? name := by
  refine Results.of_foldlM (P := fun record => Keyed.get? record name = start.get? name)
    (fun p member before after kept step => ?_) rfl ran
  obtain ⟨w, _, rfl⟩ := Results.map_eq_ok_iff.1 step
  rw [Keyed.get?_insert_of_ne _ (others p member).symm, kept]

/-- What is read into the last place of a field is its cell. -/
theorem get?_coerceColumns {f : Field} {front back : List (Nat × Field)} {place : Nat}
    (split : columns = front ++ (place, f) :: back) (last : ∀ p ∈ back, p.2.name ≠ f.name)
    (ran : columns.foldlM (fun record (place, f) =>
      (parseCell (cells[place]?.getD "") f.kind).map fun v => Keyed.insert record f.name v) start = .ok record) :
    ∃ v, parseCell (cells[place]?.getD "") f.kind = .ok v ∧ record.get? f.name = some v := by
  subst split
  rw [List.foldlM_append] at ran
  obtain ⟨before, _, ran⟩ := Results.bind_eq_ok_iff.1 ran
  rw [List.foldlM_cons] at ran
  obtain ⟨here, read, ran⟩ := Results.bind_eq_ok_iff.1 ran
  obtain ⟨v, parsed, rfl⟩ := Results.map_eq_ok_iff.1 read
  refine ⟨v, parsed, ?_⟩
  rw [get?_coerceColumns_of_ne last ran]
  exact Keyed.get?_insert_self ..

end Columns

section Entry
variable {delimiter : UInt8} {bytes : List UInt8} {e : Entity} {f : Field} {cell : String} {record : Record}

theorem Entry.parsed (entry : Entry delimiter bytes e f cell record) :
    ∃ v, parseCell cell f.kind = .ok v ∧ record.get? f.name = some v := by
  obtain ⟨_, _, names, _, cells, _, place, _, _, _, _, _, read, split, last, rfl⟩ := entry.found
  exact get?_coerceColumns split last read

theorem Entry.cell_eq {v : Value} (entry : Entry delimiter bytes e f cell record) (read : parseCell cell f.kind = .ok v) :
    record.cell f.name = v := by
  obtain ⟨w, reads, there⟩ := entry.parsed
  obtain rfl : v = w := Except.ok.inj (read.symm.trans reads)
  simp [Record.cell, there]

end Entry

/-! ## Tables -/

variable {m m' : Memory} {e : Entity} {columns : List (Nat × Field)} {line : Nat} {result result' : LoadResult}

/-- What a load leaves of the tables: it adds to that of the entity, and each keeps its index. -/
structure Extends (m m' : Memory) (entity : String) : Prop where
  schema : m'.schema = m.schema
  others : ∀ other, other ≠ entity → m'.tableOf other = m.tableOf other
  kept : (m.tableOf entity).rows.toList ⊆ (m'.tableOf entity).rows.toList
  indexed : m.Indexed → m'.Indexed

theorem Extends.refl (m : Memory) (entity : String) : Extends m m entity :=
  ⟨rfl, fun _ _ => rfl, List.Subset.refl _, id⟩

theorem Extends.trans {m'' : Memory} {entity : String} (first : Extends m m' entity) (second : Extends m' m'' entity) :
    Extends m m'' entity where
  schema := second.schema.trans first.schema
  others other differ := (second.others other differ).trans (first.others other differ)
  kept := List.Subset.trans first.kept second.kept
  indexed whole := second.indexed (first.indexed whole)

theorem Extends.subset {entity : String} (more : Extends m m' entity) (other : String) :
    (m.tableOf other).rows.toList ⊆ (m'.tableOf other).rows.toList := by
  by_cases same : other = entity
  · subst same
    exact more.kept
  · rw [more.others other same]
    exact List.Subset.refl _

theorem extends_insert {entity : String} {record : Record} (inserted : m.insert entity record = .ok m') :
    Extends m m' entity ∧ record ∈ (m'.tableOf entity).rows.toList := by
  obtain ⟨e, known, schema, table, others⟩ := Memory.insert_eq_ok inserted
  have rows : (m'.tableOf entity).rows.toList = (m.tableOf entity).rows.toList ++ [record] := by
    rw [table]
    simp [Table.insert]
  refine ⟨⟨schema, others, ?_, fun indexed => indexed.insert inserted⟩, ?_⟩
  · rw [rows]
    exact List.subset_append_left ..
  · rw [rows]
    simp

/-- All records that can be read are taken in. -/
theorem extends_loadRecords {given : List (Except String (List String))}
    (loaded : loadRecords e columns line m result given = .ok (m', result')) : Extends m m' e.name ∧
      ∀ cells row, .ok cells ∈ given → coerceRow e columns cells = .ok row → row ∈ (m'.tableOf e.name).rows.toList := by
  induction given generalizing m line result with
  | nil =>
    cases loaded
    exact ⟨.refl m' e.name, by simp⟩
  | cons record rest ih =>
    unfold loadRecords at loaded
    dsimp only at loaded
    split at loaded
    · obtain ⟨more, members⟩ := ih loaded
      refine ⟨more, fun cells row member read => ?_⟩
      rcases List.mem_cons.1 member with same | later
      · cases same
      · exact members cells row later read
    · rename_i cells'
      split at loaded
      · rename_i problem failed
        obtain ⟨more, members⟩ := ih loaded
        refine ⟨more, fun cells row member read => ?_⟩
        rcases List.mem_cons.1 member with same | later
        · cases same
          rw [failed] at read
          cases read
        · exact members cells row later read
      · rename_i row' read'
        split at loaded
        · rename_i between inserted
          obtain ⟨here, inside⟩ := extends_insert inserted
          obtain ⟨more, members⟩ := ih loaded
          refine ⟨here.trans more, fun cells row member read => ?_⟩
          rcases List.mem_cons.1 member with same | later
          · cases same
            obtain rfl : row' = row := Except.ok.inj (read'.symm.trans read)
            exact more.kept inside
          · exact members cells row later read
        · cases loaded

theorem extends_loadEntity {delimiter : UInt8} {entity : String} {file : Except String (List UInt8)} (named : m.schema.Named)
    (loaded : loadEntity delimiter m entity file = .ok (m', result)) : Extends m m' entity ∧
      ∀ bytes e f cell record, m.schema.entity entity = .ok e → file = .ok bytes →
        Entry delimiter bytes e f cell record → record ∈ (m'.tableOf entity).rows.toList := by
  obtain ⟨e, known, read⟩ := Results.bind_eq_ok_iff.1 loaded
  obtain rfl : e.name = entity := named entity e known
  split at read
  · cases read
  · rename_i bytes
    unfold loadText at read
    split at read
    · rename_i blank
      cases read
      refine ⟨.refl m e.name, fun bytes' e' f cell record _ same entry => ?_⟩
      cases same
      obtain ⟨header, rest, _, _, _, _, _, _, split, _⟩ := entry.found
      rw [blank] at split
      cases split
    · rename_i header rest records
      split at read
      · cases read
      · rename_i names decoded
        obtain ⟨more, members⟩ := extends_loadRecords read
        refine ⟨more, fun bytes' e' f cell record known' same entry => ?_⟩
        cases same
        obtain rfl : e = e' := Except.ok.inj (known.symm.trans known')
        obtain ⟨header', rest', names', raw, cells, _, _, _, split, decoded', inside, text, read, _⟩ := entry.found
        rw [records] at split
        cases split
        rw [decoded] at decoded'
        cases decoded'
        exact members cells record (List.mem_map.2 ⟨raw, inside, text⟩) read

section Files
variable {delimiter : UInt8} {schema : Schema} {file? : String → Option (Except String (List UInt8))}

variable (delimiter file?) in
/-- One entity after another, loads keep what is there and take in what is in the files. -/
theorem extends_loads {load : Memory → Entity → Except SourceError Memory} {es : List Entity} {start : Memory}
    (absent : ∀ m e, file? (fileName e.name) = none → load m e = .ok m)
    (given : ∀ m e file, file? (fileName e.name) = some file → load m e = (loadEntity delimiter m e.name file).map Prod.fst)
    (named : schema.Named) (same : start.schema = schema) (indexed : start.Indexed) (ran : es.foldlM load start = .ok m) :
    m.schema = schema ∧ m.Indexed ∧ (∀ other, (start.tableOf other).rows.toList ⊆ (m.tableOf other).rows.toList) ∧
      ∀ e ∈ es, ∀ bytes f cell record, schema.entity e.name = .ok e → file? (fileName e.name) = some (.ok bytes) →
        Entry delimiter bytes e f cell record → record ∈ (m.tableOf e.name).rows.toList := by
  induction es generalizing start with
  | nil =>
    cases ran
    exact ⟨same, indexed, fun _ => List.Subset.refl _, by simp⟩
  | cons first rest ih =>
    rw [List.foldlM_cons] at ran
    obtain ⟨between, here, ran⟩ := Results.bind_eq_ok_iff.1 ran
    cases there : file? (fileName first.name) with
    | none =>
      rw [absent start first there] at here
      cases here
      obtain ⟨schema', indexed', more, members⟩ := ih same indexed ran
      refine ⟨schema', indexed', more, fun e member bytes f cell record known file entry => ?_⟩
      rcases List.mem_cons.1 member with rfl | later
      · rw [there] at file
        cases file
      · exact members e later bytes f cell record known file entry
    | some file =>
      rw [given start first file there] at here
      obtain ⟨⟨m', result⟩, read, rfl⟩ := Results.map_eq_ok_iff.1 here
      obtain ⟨extended, inside⟩ := extends_loadEntity (same ▸ named) read
      obtain ⟨schema', indexed', more, members⟩ := ih (extended.schema.trans same) (extended.indexed indexed) ran
      refine ⟨schema', indexed', fun other => List.Subset.trans (extended.subset other) (more other),
        fun e member bytes f cell record known file' entry => ?_⟩
      rcases List.mem_cons.1 member with rfl | later
      · rw [there] at file'
        exact more _ (inside bytes e f cell record (same ▸ known) (Option.some.inj file') entry)
      · exact members e later bytes f cell record known file' entry

/-- Of the files that are there, every record that can be read is in the table of its entity. -/
theorem loadAll_eq_ok (named : schema.Named) (loaded : loadAll delimiter schema file? = .ok m) : m.schema = schema ∧
    m.Indexed ∧ ∀ e bytes f cell record, schema.entity e.name = .ok e → file? (fileName e.name) = some (.ok bytes) →
      Entry delimiter bytes e f cell record → record ∈ (m.tableOf e.name).rows.toList := by
  unfold loadAll at loaded
  obtain ⟨schema', indexed, _, members⟩ := extends_loads delimiter file?
    (fun m e absent => by simp only [absent]) (fun m e file given => by simp only [given]) named rfl
    (Memory.indexed_empty schema) loaded
  refine ⟨schema', indexed, fun e bytes f cell record known => members e ?_ bytes f cell record known⟩
  exact List.mem_map_of_mem (f := Prod.snd) (Keyed.mem_of_get? (Schema.entity_eq_ok_iff.1 known))

end Files

end Reporting.Csv
