import Mathlib.Data.List.Nodup
import Reporting.Proofs.Parts
import Reporting.Proofs.Sql.Cell
import Reporting.Sql.Evaluate

/-!
Groups of rows. Where no cell of a column is a real number, sorting the rows by it and putting neighbours together
gives a group for each different cell with all rows that have it, in the order they come (`groupRows_eq`).
-/

namespace Reporting.Sql

/-! ## Sorting -/

section Ranks
variable {α : Type} {cellOf : α → Cell} {l : List α}

/-- Whether one may stand before another when they are sorted by plain cells. -/
def rankLe (cellOf : α → Cell) (a b : α) : Bool :=
  Cell.rankOrder (cellOf a) (cellOf b) != .gt

theorem rankLe_iff {a b : α} : rankLe cellOf a b ↔ (Cell.rankOrder (cellOf a) (cellOf b)).isLE := by
  unfold rankLe
  rw [Ordering.isLE_iff_ne_gt, bne_iff_ne]

theorem rankLe_trans (a b c : α) (first : rankLe cellOf a b) (second : rankLe cellOf b c) : rankLe cellOf a c :=
  rankLe_iff.2 (Std.TransCmp.isLE_trans (rankLe_iff.1 first) (rankLe_iff.1 second))

theorem rankLe_total (a b : α) : rankLe cellOf a b || rankLe cellOf b a := by
  have swapped : Cell.rankOrder (cellOf b) (cellOf a) = (Cell.rankOrder (cellOf a) (cellOf b)).swap :=
    Std.OrientedCmp.eq_swap
  unfold rankLe
  rw [swapped]
  cases Cell.rankOrder (cellOf a) (cellOf b) <;> rfl

/-- On plain cells sorting is by a total order. -/
theorem mergeSort_eq (plain : ∀ a ∈ l, (cellOf a).isPlain) :
    l.mergeSort (fun a b => (cellOf a).order (cellOf b) != .gt) = l.mergeSort (rankLe cellOf) := by
  have same := List.map_mergeSort (r := fun a b => (cellOf a).order (cellOf b) != .gt) (s := rankLe cellOf) (f := id)
    (l := l) fun a ha b hb => by
      unfold rankLe
      rw [Cell.order_eq_rankOrder (plain a ha) (plain b hb)]
      rfl
  simpa using same

/-- Sorted are those that come in strictly ascending order. -/
theorem mergeSort_eq_of_perm {given sorted : List α} (perm : given.Perm sorted)
    (plain : ∀ a ∈ sorted, (cellOf a).isPlain) (ordered : sorted.Pairwise fun a b => (cellOf a).order (cellOf b) = .lt) :
    given.mergeSort (fun a b => (cellOf a).order (cellOf b) != .gt) = sorted := by
  have apart : (sorted.map cellOf).Nodup := by
    refine List.pairwise_map.2 (ordered.imp_of_mem fun {a b} memberA memberB less same => ?_)
    have equal : Cell.rankOrder (cellOf b) (cellOf b) = .eq := Std.ReflCmp.compare_self
    rw [Cell.order_eq_rankOrder (plain a memberA) (plain b memberB), same, equal] at less
    cases less
  have ranked : sorted.Pairwise fun a b => rankLe cellOf a b := by
    refine ordered.imp_of_mem fun {a b} memberA memberB less => ?_
    rw [Cell.order_eq_rankOrder (plain a memberA) (plain b memberB)] at less
    rw [rankLe_iff, less]
    rfl
  rw [mergeSort_eq fun a member => plain a (perm.mem_iff.1 member)]
  have sorts := (List.mergeSort_perm given (rankLe cellOf)).trans perm
  refine sorts.eq_of_pairwise (fun a b memberA memberB below above => ?_)
    (List.pairwise_mergeSort rankLe_trans rankLe_total given) ranked
  have memberA := sorts.mem_iff.1 memberA
  refine List.inj_on_of_nodup_map apart memberA memberB (Cell.eq_of_order (plain a memberA) (plain b memberB) ?_)
  rw [Cell.order_eq_rankOrder (plain a memberA) (plain b memberB)]
  exact Std.OrientedCmp.isLE_antisymm (rankLe_iff.1 below) (rankLe_iff.1 above)

end Ranks

/-- Whether a row may stand before another when they are sorted by plain cells. -/
def rowLe (column : Column) : Joined → Joined → Bool :=
  rankLe fun row => row.cell column

variable {column : Column} {rows : List Joined}

theorem rowLe_iff {a b : Joined} : rowLe column a b ↔ (Cell.rankOrder (a.cell column) (b.cell column)).isLE :=
  rankLe_iff

theorem sortRows_perm (column : Column) (rows : List Joined) : (sortRows column rows).Perm rows :=
  List.mergeSort_perm ..

theorem sortRows_eq (plain : ∀ row ∈ rows, (row.cell column).isPlain) :
    sortRows column rows = rows.mergeSort (rowLe column) :=
  mergeSort_eq plain

theorem pairwise_sortRows (plain : ∀ row ∈ rows, (row.cell column).isPlain) :
    (sortRows column rows).Pairwise fun a b => rowLe column a b := by
  rw [sortRows_eq plain]
  exact List.pairwise_mergeSort rankLe_trans rankLe_total rows

/-- Rows with equal cells stay in the order they come. -/
theorem filter_sortRows (plain : ∀ row ∈ rows, (row.cell column).isPlain) (key : Cell) :
    (sortRows column rows).filter (fun row => row.cell column = key) = rows.filter fun row => row.cell column = key := by
  let kept := rows.filter fun row => row.cell column = key
  have equal : kept.Pairwise fun a b => rowLe column a b := by
    refine List.pairwise_of_forall_mem_list fun a ha b hb => ?_
    have hereA : a.cell column = key := of_decide_eq_true (List.mem_filter.1 ha).2
    have hereB : b.cell column = key := of_decide_eq_true (List.mem_filter.1 hb).2
    rw [rowLe_iff, hereA, hereB]
    exact Std.ReflCmp.isLE_rfl
  have inside : kept.Sublist (sortRows column rows) := by
    rw [sortRows_eq plain]
    exact List.sublist_mergeSort rankLe_trans rankLe_total equal List.filter_sublist
  have filtered := inside.filter fun row => row.cell column = key
  rw [List.filter_filter] at filtered
  simp only [Bool.and_self] at filtered
  exact (filtered.eq_of_length ((sortRows_perm column rows).filter _).length_eq.symm).symm

/-! ## Neighbours -/

/-- The rows that have the cell. -/
def rowsWith (column : Column) (rows : List Joined) (cell : Cell) : List Joined :=
  rows.filter fun row => row.cell column = cell

theorem rowsWith_cons_of_ne {row : Joined} {cell : Cell} (differ : cell ≠ row.cell column) :
    rowsWith column (row :: rows) cell = rowsWith column rows cell :=
  List.filter_cons_of_neg (by simpa using differ.symm)

theorem rowsWith_cons_self (column : Column) (row : Joined) (rows : List Joined) :
    rowsWith column (row :: rows) (row.cell column) = row :: rowsWith column rows (row.cell column) :=
  List.filter_cons_of_pos (by simp)

/-- A group for each different cell, of all rows that have it. -/
def cellGroups (column : Column) (rows : List Joined) : List (Cell × List Joined) :=
  (rows.map fun row => row.cell column).eraseDups.map fun cell => (cell, rowsWith column rows cell)

theorem cellGroups_cons (column : Column) (row : Joined) (rest : List Joined) :
    cellGroups column (row :: rest) = (row.cell column, row :: rowsWith column rest (row.cell column)) ::
      ((rest.map fun r => r.cell column).filter fun c => !c == row.cell column).eraseDups.map fun cell =>
        (cell, rowsWith column rest cell) := by
  unfold cellGroups
  rw [List.map_cons, List.eraseDups_cons, List.map_cons, rowsWith_cons_self]
  refine congrArg (List.cons _) (List.map_congr_left fun cell member => ?_)
  have apart := (List.mem_filter.1 (List.mem_eraseDups.1 member)).2
  rw [rowsWith_cons_of_ne (by simpa using apart)]

/-- A row with the cell of the next one is in its group. -/
theorem cellGroups_cons_of_eq {row next : Joined} {more : List Joined} (same : row.cell column = next.cell column) :
    cellGroups column (row :: next :: more) = (row.cell column, row :: rowsWith column (next :: more) (row.cell column)) ::
      (cellGroups column (next :: more)).tail := by
  have others : ((next :: more).map fun r => r.cell column).filter (fun c => !c == next.cell column) =
      (more.map fun r => r.cell column).filter fun c => !c == next.cell column := by
    rw [List.map_cons, List.filter_cons_of_neg (by simp)]
  rw [cellGroups_cons, cellGroups_cons, List.tail_cons, same, others]
  refine congrArg (List.cons _) (List.map_congr_left fun cell member => ?_)
  have apart := (List.mem_filter.1 (List.mem_eraseDups.1 member)).2
  rw [rowsWith_cons_of_ne (by simpa using apart)]

/-- A row whose cell no other has is a group of its own. -/
theorem cellGroups_cons_of_fresh {row : Joined} {rest : List Joined}
    (fresh : row.cell column ∉ rest.map fun r => r.cell column) :
    cellGroups column (row :: rest) = (row.cell column, [row]) :: cellGroups column rest := by
  have others : (rest.map fun r => r.cell column).filter (fun c => !c == row.cell column) =
      rest.map fun r => r.cell column := by
    refine List.filter_eq_self.2 fun c member => ?_
    have differ : c ≠ row.cell column := fun same => fresh (same ▸ member)
    simp [differ]
  have alone : rowsWith column rest (row.cell column) = [] := by
    refine List.filter_eq_nil_iff.2 fun r member => ?_
    simpa using fun equal : r.cell column = row.cell column => fresh (List.mem_map.2 ⟨r, member, equal⟩)
  rw [cellGroups_cons, others, alone]
  rfl

/-- No later row has the cell of a first row that differs from the next one. -/
theorem not_mem_of_sorted {row next : Joined} {more : List Joined}
    (plain : ∀ r ∈ row :: next :: more, (r.cell column).isPlain)
    (sorted : (row :: next :: more).Pairwise fun a b => rowLe column a b) (differ : row.cell column ≠ next.cell column) :
    row.cell column ∉ (next :: more).map fun r => r.cell column := by
  intro member
  obtain ⟨r, inside, same⟩ := List.mem_map.1 member
  rw [List.pairwise_cons, List.pairwise_cons] at sorted
  have before := rowLe_iff.1 (sorted.1 next (List.mem_cons_self ..))
  have after : (Cell.rankOrder (next.cell column) (r.cell column)).isLE := by
    rcases List.mem_cons.1 inside with rfl | inside
    · exact Std.ReflCmp.isLE_rfl
    · exact rowLe_iff.1 (sorted.2.1 r inside)
  rw [same] at after
  have equal := Std.OrientedCmp.isLE_antisymm before after
  rw [← Cell.order_eq_rankOrder (plain row (by simp)) (plain next (by simp))] at equal
  exact differ (Cell.eq_of_order (plain row (by simp)) (plain next (by simp)) equal)

/-- The groups of sorted rows. -/
theorem gather_eq (plain : ∀ row ∈ rows, (row.cell column).isPlain)
    (sorted : rows.Pairwise fun a b => rowLe column a b) : gather column rows = cellGroups column rows := by
  induction rows with
  | nil => rfl
  | cons row rest ih =>
    have others := ih (fun r member => plain r (List.mem_cons_of_mem row member)) (List.Pairwise.of_cons sorted)
    cases rest with
    | nil =>
      rw [cellGroups_cons_of_fresh List.not_mem_nil]
      rfl
    | cons next more =>
      have plainHere := plain row (List.mem_cons_self ..)
      have plainNext := plain next (by simp)
      rw [gather, others, cellGroups_cons column next]
      dsimp only
      by_cases same : row.cell column = next.cell column
      · have equal : (row.cell column).order (next.cell column) = .eq := by
          rw [Cell.order_eq_rankOrder plainHere plainNext, same]
          exact Std.ReflCmp.compare_self
        rw [equal, cellGroups_cons_of_eq same, cellGroups_cons, same, rowsWith_cons_self]
        rfl
      · have apart : ((row.cell column).order (next.cell column) == .eq) = false :=
          beq_eq_false_iff_ne.2 fun equal => same (Cell.eq_of_order plainHere plainNext equal)
        rw [apart, if_neg Bool.false_ne_true, cellGroups_cons_of_fresh (not_mem_of_sorted plain sorted same),
          cellGroups_cons column next]

/-! ## Groups of rows -/

/-- The different cells of a column, in order. -/
def keysOf (column : Column) (rows : List Joined) : List Cell :=
  ((sortRows column rows).map fun row => row.cell column).eraseDups

theorem nodup_keysOf (column : Column) (rows : List Joined) : (keysOf column rows).Nodup :=
  Parts.nodup_eraseDups _

theorem mem_keysOf {cell : Cell} : cell ∈ keysOf column rows ↔ ∃ row ∈ rows, row.cell column = cell := by
  unfold keysOf
  rw [List.mem_eraseDups, List.mem_map]
  simp only [(sortRows_perm column rows).mem_iff]

theorem groupRows_eq (plain : ∀ row ∈ rows, (row.cell column).isPlain) :
    groupRows column rows = (keysOf column rows).map fun cell => (cell, rowsWith column rows cell) := by
  have plainSorted : ∀ row ∈ sortRows column rows, (row.cell column).isPlain := fun row member =>
    plain row ((sortRows_perm column rows).mem_iff.1 member)
  unfold groupRows
  rw [gather_eq plainSorted (pairwise_sortRows plain)]
  refine List.map_congr_left fun cell _ => congrArg (Prod.mk cell) ?_
  exact filter_sortRows plain cell

/-- Rows with a missing cell come first. -/
theorem keysOf_eq (plain : ∀ row ∈ rows, (row.cell column).isPlain) :
    ∃ present, .null ∉ present ∧
      keysOf column rows = (if .null ∈ keysOf column rows then [.null] else []) ++ present := by
  by_cases missing : .null ∈ keysOf column rows
  · have sorted : (keysOf column rows).Pairwise fun a b => (Cell.rankOrder a b).isLE := by
      refine List.Pairwise.sublist (Parts.eraseDups_sublist _) ?_
      rw [List.pairwise_map]
      exact (pairwise_sortRows plain).imp fun le => rowLe_iff.1 le
    have distinct := nodup_keysOf column rows
    rw [if_pos missing]
    cases shape : keysOf column rows with
    | nil =>
      rw [shape] at missing
      cases missing
    | cons first rest =>
      rw [shape] at missing sorted distinct
      have least : first = .null := by
        rcases List.mem_cons.1 missing with same | later
        · exact same.symm
        · have before := (List.pairwise_cons.1 sorted).1 _ later
          cases first with
          | null => rfl
          | _ => cases before
      subst least
      exact ⟨rest, (List.nodup_cons.1 distinct).1, rfl⟩
  · exact ⟨keysOf column rows, missing, by rw [if_neg missing]; rfl⟩

/-- The different cells that are read are those of the rows. -/
theorem distinctCells_perm (plain : ∀ row ∈ rows, (row.cell column).isPlain) :
    (distinctCells column rows).Perm (keysOf column rows) := by
  unfold distinctCells
  rw [groupRows_eq plain]
  refine ((List.mergeSort_perm _ _).map _).trans (List.Perm.of_eq ?_)
  rw [List.map_map, List.map_map]
  exact List.map_id' _

end Reporting.Sql
