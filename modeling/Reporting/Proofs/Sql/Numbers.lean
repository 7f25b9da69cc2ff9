import Reporting.Proofs.Sql.Groups
import Reporting.Proofs.Sql.Tables

/-!
Row numbers. Every table keeps its rows in ascending order of their numbers, whatever the order in which they were added
(`Database.Numbered.insert`). What is sorted by the numbers stays as it is (`sortRows_number`), and different cells
come in the order in which the rows first have them (`distinctCells_eq`).
-/

namespace Reporting.Sql

/-! ## Tables -/

/-- The rows stand in the order of their numbers, which differ. -/
def InOrder (rows : List StoredRow) : Prop :=
  rows.Pairwise fun a b => a.number < b.number

section Rows
variable {rows : List StoredRow} {row : StoredRow}

theorem exists_of_back? {rows : Array StoredRow} {last : StoredRow} (back : rows.back? = some last) :
    ∃ before, rows.toList = before ++ [last] := by
  rw [← Array.getLast?_toList] at back
  exact List.getLast?_eq_some_iff.1 back

/-- The last row has the largest number. -/
theorem InOrder.number_le (ordered : InOrder (rows ++ [row])) : ∀ r ∈ rows ++ [row], r.number ≤ row.number := by
  intro r member
  rcases List.mem_append.1 member with before | last
  · exact Int.le_of_lt ((List.pairwise_append.1 ordered).2.2 r before row (List.mem_singleton_self row))
  · rw [List.mem_singleton.1 last]

theorem InOrder.append_singleton (ordered : InOrder rows) (largest : ∀ r ∈ rows, r.number < row.number) :
    InOrder (rows ++ [row]) := by
  refine List.pairwise_append.2 ⟨ordered, List.pairwise_singleton .., fun r member other last => ?_⟩
  rw [List.mem_singleton.1 last]
  exact largest r member

/-- A row with a number of its own fits in after all that have smaller ones. -/
theorem InOrder.between (ordered : InOrder rows) (fresh : ∀ r ∈ rows, r.number ≠ row.number) :
    InOrder (rows.takeWhile (fun r => r.number < row.number) ++ row :: rows.dropWhile (fun r => r.number < row.number)) := by
  induction rows with
  | nil => exact List.pairwise_singleton ..
  | cons first rest ih =>
    obtain ⟨below, later⟩ := List.pairwise_cons.1 ordered
    by_cases less : first.number < row.number
    · rw [List.takeWhile_cons_of_pos (by simpa using less), List.dropWhile_cons_of_pos (by simpa using less), List.cons_append]
      refine List.pairwise_cons.2 ⟨fun r member => ?_, ih later fun r member => fresh r (List.mem_cons_of_mem first member)⟩
      rw [List.perm_middle.mem_iff, List.takeWhile_append_dropWhile] at member
      rcases List.mem_cons.1 member with rfl | inside
      · exact less
      · exact below r inside
    · rw [List.takeWhile_cons_of_neg (by simpa using less), List.dropWhile_cons_of_neg (by simpa using less), List.nil_append]
      have greater : row.number < first.number :=
        Int.lt_iff_le_and_ne.2 ⟨Int.not_lt.1 less, (fresh first (List.mem_cons_self ..)).symm⟩
      refine List.pairwise_cons.2 ⟨fun r member => ?_, ordered⟩
      rcases List.mem_cons.1 member with rfl | inside
      · exact greater
      · exact Int.lt_trans greater (below r inside)

end Rows

/-- The table keeps its rows in the order of their numbers. -/
def StoredTable.Numbered (t : StoredTable) : Prop :=
  InOrder t.rows.toList

namespace StoredTable
variable {t t' : StoredTable}

theorem inOrder_placeRow {rows : Array StoredRow} {row : StoredRow} (ordered : InOrder rows.toList)
    (fresh : ∀ r ∈ rows.toList, r.number ≠ row.number) : InOrder (placeRow rows row).toList := by
  unfold placeRow
  split
  · rename_i last back
    obtain ⟨before, rows_eq⟩ := exists_of_back? back
    split
    · rename_i greater
      rw [Array.toList_push]
      refine ordered.append_singleton fun r member => ?_
      rw [rows_eq] at ordered member
      exact Int.lt_of_le_of_lt (ordered.number_le r member) greater
    · exact ordered.between fresh
  · exact List.pairwise_singleton ..

/-- The number of a new row is no other's. -/
theorem ne_of_number (numbered : t.Numbered) {given : Cell} {n : Int} (ran : t.number given = .ok n) :
    ∀ r ∈ t.rows.toList, r.number ≠ n := by
  intro r member
  unfold number at ran
  split at ran
  · cases ran
    unfold nextNumber
    split
    · rename_i last back
      obtain ⟨before, rows_eq⟩ := exists_of_back? back
      unfold Numbered at numbered
      rw [rows_eq] at numbered member
      exact Int.ne_of_lt (Int.lt_add_one_of_le (numbered.number_le r member))
    · rename_i none_
      rw [Array.back?_eq_none_iff.1 none_] at member
      cases member
  · split at ran
    · cases ran
    · rename_i unused
      cases ran
      intro same
      refine unused (Array.any_eq_true'.2 ⟨r, Array.mem_toList_iff.1 member, ?_⟩)
      exact beq_iff_eq.2 same
  · cases ran

theorem Numbered.insert (numbered : t.Numbered) {given : Cell} {cells : List Cell} (ran : t.insert given cells = .ok t') :
    t'.Numbered := by
  obtain ⟨n, number, ran⟩ := Results.bind_eq_ok_iff.1 ran
  have fresh := ne_of_number numbered number
  cases keyed : t.holdsKey cells with
  | true =>
    rw [keyed, if_pos rfl] at ran
    cases ran
  | false =>
    rw [keyed, if_neg Bool.false_ne_true] at ran
    cases ran
    exact inOrder_placeRow numbered fresh

theorem Numbered.insertRecords {e : Entity} {records : List Record} (numbered : t.Numbered)
    (ran : records.foldlM (Store.insertRecord e) t = .ok t') : t'.Numbered :=
  Results.of_foldlM (fun _ _ _ _ numbered inserted => numbered.insert inserted) numbered ran

end StoredTable

/-! ## Databases -/

/-- All tables keep their rows in the order of their numbers. -/
def Store.Numbered (store : Store) : Prop :=
  ∀ t ∈ store, t.Numbered

/-- Records are not added to what the database itself keeps. -/
theorem Store.mem_of_target {store : Store} {e : Entity} {t : StoredTable} (ran : store.target e = .ok t) : t ∈ store := by
  obtain ⟨_, _, ran⟩ := Results.bind_eq_ok_iff.1 ran
  split at ran
  · cases ran
  · cases ran
  · rename_i ordinary there
    split at ran
    · cases ran
    · cases ran
      unfold Store.table? at there
      rw [ordinary] at there
      exact List.mem_of_find?_eq_some there

namespace Store.Numbered
variable {store store' : Store} {e : Entity}

theorem create (numbered : store.Numbered) (ran : store.create e = .ok store') : store'.Numbered := by
  obtain ⟨_, _, ran⟩ := Results.bind_eq_ok_iff.1 ran
  cases ran
  split
  · refine List.forall_mem_append.2 ⟨numbered, List.forall_mem_singleton.2 ?_⟩
    exact List.Pairwise.nil
  · exact numbered

theorem createAll {es : List Entity} {problem : Option SourceError} (numbered : store.Numbered)
    (ran : store.createAll es = (store', problem)) : store'.Numbered := by
  induction es generalizing store with
  | nil =>
    cases ran
    exact numbered
  | cons e rest ih =>
    unfold Store.createAll at ran
    split at ran
    · rename_i between created
      exact ih (numbered.create created) ran
    · cases ran
      exact numbered

theorem insertAll {records : List Record} (numbered : store.Numbered) (ran : store.insertAll e records = .ok store') :
    store'.Numbered := by
  obtain ⟨t, targeted, ran⟩ := Results.bind_eq_ok_iff.1 ran
  obtain ⟨t', inserted, rfl⟩ := Results.map_eq_ok_iff.1 ran
  intro other member
  obtain ⟨given, among, rfl⟩ := List.mem_map.1 member
  split
  · exact (numbered t (mem_of_target targeted)).insertRecords inserted
  · exact numbered given among

end Store.Numbered

namespace Database
variable {db db' : Database}

def Numbered (db : Database) : Prop :=
  db.store.Numbered

theorem numbered_createTables {schema : Schema} {problem : Option SourceError}
    (ran : (empty schema).createTables = (db, problem)) : db.Numbered := by
  cases ran
  have none_ : Store.Numbered [] := List.forall_mem_nil _
  exact none_.createAll rfl

theorem Numbered.insert {entity : String} {records : List Record} (numbered : db.Numbered)
    (ran : db.insert entity records = .ok db') : db'.Numbered := by
  obtain ⟨e, _, ran⟩ := Results.bind_eq_ok_iff.1 ran
  obtain ⟨store, added, ran⟩ := Results.bind_eq_ok_iff.1 ran
  cases ran
  exact Store.Numbered.insertAll numbered added

end Database

/-! ## What is sorted by row numbers -/

/-- The rows come with ascending integers as their numbers. -/
structure Rising (rows : List Joined) : Prop where
  integer : ∀ row ∈ rows, ∃ i, row.cell rowNumber = .integer i
  pairwise : rows.Pairwise fun a b => (a.cell rowNumber).order (b.cell rowNumber) = .lt

namespace Rising
variable {rows some_ : List Joined} {row : Joined}

theorem sublist (rising : Rising rows) (inside : some_.Sublist rows) : Rising some_ :=
  ⟨fun row member => rising.integer row (inside.subset member), rising.pairwise.sublist inside⟩

theorem isPlain (rising : Rising rows) : ∀ row ∈ rows, (row.cell rowNumber).isPlain := by
  intro row member
  obtain ⟨i, integer⟩ := rising.integer row member
  rw [integer]
  rfl

end Rising

section Sorted
variable {rows : List Joined} {column : Column}

theorem sortRows_number (rising : Rising rows) : sortRows rowNumber rows = rows :=
  mergeSort_eq_of_perm (.refl rows) rising.isPlain rising.pairwise

/-- The least number is that of the first row. -/
theorem least_number {first : Joined} (rising : Rising (first :: rows)) :
    least ((first :: rows).map fun row => row.cell rowNumber) = first.cell rowNumber := by
  obtain ⟨i, number⟩ := rising.integer first (List.mem_cons_self ..)
  have later := (List.pairwise_cons.1 rising.pairwise).1
  have integers : ∀ row ∈ rows, ∃ j, row.cell rowNumber = .integer j := fun row member =>
    rising.integer row (List.mem_cons_of_mem first member)
  clear rising
  unfold least
  rw [List.map_cons, List.foldl_cons, number]
  rw [number] at later
  change (rows.map fun row => row.cell rowNumber).foldl _ (Cell.integer i) = Cell.integer i
  induction rows with
  | nil => rfl
  | cons next rest ih =>
    obtain ⟨j, here⟩ := integers next (List.mem_cons_self ..)
    have less := later next (List.mem_cons_self ..)
    rw [here] at less
    rw [List.map_cons, List.foldl_cons, here, less]
    exact ih (fun row member => later row (List.mem_cons_of_mem next member))
      (fun row member => integers row (List.mem_cons_of_mem next member))

/-- What stands for a cell when different ones are put in order. -/
theorem least_rowsWith (rising : Rising rows) {cell : Cell} {first : Joined}
    (found : rows.find? (fun row => row.cell column == cell) = some first) :
    least ((rowsWith column rows cell).map fun row => row.cell rowNumber) = first.cell rowNumber := by
  have head : (rowsWith column rows cell).head? = some first := by
    unfold rowsWith
    rw [List.head?_filter, ← found]
    rfl
  obtain ⟨rest, shape⟩ := List.head?_eq_some_iff.1 head
  have inside : (first :: rest).Sublist rows := shape ▸ List.filter_sublist
  rw [shape]
  exact least_number (rising.sublist inside)

/-- Different cells come in the order in which the rows first have them. -/
theorem distinctCells_eq (plain : ∀ row ∈ rows, (row.cell column).isPlain) (rising : Rising rows) :
    distinctCells column rows = (rows.map fun row => row.cell column).eraseDups := by
  let placed (cell : Cell) : Cell × Cell := (least ((rowsWith column rows cell).map fun row => row.cell rowNumber), cell)
  let cells := (rows.map fun row => row.cell column).eraseDups
  have perm : (keysOf column rows).Perm cells := by
    refine (List.perm_ext_iff_of_nodup (nodup_keysOf column rows) (Parts.nodup_eraseDups _)).2 fun cell => ?_
    rw [mem_keysOf, List.mem_eraseDups, List.mem_map]
  have first : ∀ cell ∈ cells, ∃ row ∈ rows, (placed cell).1 = row.cell rowNumber := by
    intro cell member
    obtain ⟨row, inside, same⟩ := List.mem_map.1 (List.mem_eraseDups.1 member)
    obtain ⟨first, found⟩ : ∃ first, rows.find? (fun row => row.cell column == cell) = some first :=
      Option.isSome_iff_exists.1 (List.find?_isSome.2 ⟨row, inside, beq_iff_eq.2 same⟩)
    exact ⟨first, List.mem_of_find?_eq_some found, least_rowsWith rising found⟩
  have ordered : (cells.map placed).Pairwise fun a b => a.1.order b.1 = .lt := by
    refine List.pairwise_map.2 ((Parts.pairwise_eraseDups rows rising.pairwise).imp fun {x y} both => ?_)
    obtain ⟨a, b, foundA, foundB, less⟩ := both
    have numberA : (placed x).1 = a.cell rowNumber := least_rowsWith rising foundA
    have numberB : (placed y).1 = b.cell rowNumber := least_rowsWith rising foundB
    rw [numberA, numberB]
    exact less
  have sorted : ((keysOf column rows).map placed).mergeSort (fun a b => a.1.order b.1 != .gt) = cells.map placed := by
    refine mergeSort_eq_of_perm (perm.map placed) (fun p member => ?_) ordered
    obtain ⟨cell, inside, rfl⟩ := List.mem_map.1 member
    obtain ⟨row, among, number⟩ := first cell inside
    rw [number]
    exact rising.isPlain row among
  unfold distinctCells
  rw [groupRows_eq plain, List.map_map]
  refine (congrArg (List.map Prod.snd) sorted).trans ?_
  rw [List.map_map]
  exact List.map_id' _

end Sorted
end Reporting.Sql
