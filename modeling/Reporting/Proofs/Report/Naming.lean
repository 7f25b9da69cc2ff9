import Mathlib.Data.List.Nodup
import Mathlib.Data.List.Infix
import Reporting.Proofs.Calendar.Reading
import Reporting.Proofs.Computation.Share
import Reporting.Proofs.Report.Partition
import Reporting.Proofs.Tiling

/-!
The names of columns that are copied for windows and buckets. A window is told by the day on which it ends, so copies
for windows have different names just if the windows end on different days (`expandWindows_nodup_iff`), as those of a
fixed length do (`Pattern.nodup_days`). A bucket is told by its key, unless the name of a column holds the mark that stands
before keys (`Crosstab.nodup_names`). Where the names of computed columns are different, a row has under that of a copy the
cell of the copy's own window and bucket (`Report.series_apart`).
-/

namespace Reporting
open Calendar

/-! ## Marks in names -/

theorem append_mark_inj {mark : Char} {xs ys as bs : List Char} (ha : mark ∉ as) (hb : mark ∉ bs)
    (same : xs ++ mark :: as = ys ++ mark :: bs) : xs = ys ∧ as = bs := by
  rcases List.append_eq_append_iff.1 same with ⟨between, rfl, rest⟩ | ⟨between, rfl, rest⟩
  · cases between with
    | nil => simpa using rest
    | cons c between =>
      obtain ⟨rfl, rfl⟩ := List.cons.inj rest
      simp at ha
  · cases between with
    | nil => simpa [eq_comm] using rest
    | cons c between =>
      obtain ⟨rfl, rfl⟩ := List.cons.inj rest
      simp at hb

/-- The name does not hold the mark that stands before the keys of buckets. -/
def Unmarked (name : String) : Prop :=
  ¬ ['C', 'T'] <:+: name.toList

/-- What follows the first mark of a bucket is the whole key. -/
theorem append_bucketMark_inj {xs ys as bs : List Char} (hx : ¬ ['C', 'T'] <:+: xs) (hy : ¬ ['C', 'T'] <:+: ys)
    (same : xs ++ 'C' :: 'T' :: as = ys ++ 'C' :: 'T' :: bs) : xs = ys ∧ as = bs := by
  have longer : ∀ {xs ys as bs between : List Char}, ¬ ['C', 'T'] <:+: ys → ys = xs ++ between →
      'C' :: 'T' :: as = between ++ 'C' :: 'T' :: bs → between = [] := by
    rintro xs ys as bs between unmarked rfl rest
    cases between with
    | nil => rfl
    | cons c between =>
      obtain ⟨first, rest⟩ := List.cons.inj rest
      cases between with
      | nil => simp at rest
      | cons c' between =>
        obtain ⟨second, _⟩ := List.cons.inj rest
        rw [← first, ← second] at unmarked
        exact absurd ⟨xs, between, by simp⟩ unmarked
  rcases List.append_eq_append_iff.1 same with ⟨between, split, rest⟩ | ⟨between, split, rest⟩
  · obtain rfl := longer hy split rest
    simpa [eq_comm] using And.intro split rest
  · obtain rfl := longer hx split rest
    simpa [eq_comm] using And.intro split rest

/-- The day that is written at the end of a name is told by what follows the last mark. -/
theorem append_day_inj {x y : String} {d e : Date} :
    x ++ ("TS" ++ d.compactText) = y ++ ("TS" ++ e.compactText) ↔ x = y ∧ d = e := by
  constructor
  · intro same
    have letters : ∀ d : Date, 'T' ∉ 'S' :: d.chars [] := by
      intro d
      simpa using d.not_mem_chars rfl (by decide)
    have written : ∀ (x : String) (d : Date), (x ++ ("TS" ++ d.compactText)).toList = x.toList ++ 'T' :: 'S' :: d.chars [] := by
      intro x d
      simp [Date.compactText]
    have lists := congrArg String.toList same
    rw [written, written] at lists
    obtain ⟨front, back⟩ := append_mark_inj (letters d) (letters e) lists
    refine ⟨String.toList_inj.1 front, Date.compactText_inj ?_⟩
    unfold Date.compactText
    rw [(List.cons.inj back).2]
  · rintro ⟨rfl, rfl⟩
    rfl

theorem toList_append_key (x key : String) : (x ++ ("CT" ++ key)).toList = x.toList ++ 'C' :: 'T' :: key.toList := by
  simp

theorem append_key_inj {x y k l : String} (hx : Unmarked x) (hy : Unmarked y) :
    x ++ ("CT" ++ k) = y ++ ("CT" ++ l) ↔ x = y ∧ k = l := by
  constructor
  · intro same
    have lists := congrArg String.toList same
    rw [toList_append_key, toList_append_key] at lists
    obtain ⟨front, back⟩ := append_bucketMark_inj hx hy lists
    exact ⟨String.toList_inj.1 front, String.toList_inj.1 back⟩
  · rintro ⟨rfl, rfl⟩
    rfl

theorem Unmarked.ne_append_key {x : String} (hx : Unmarked x) (y k : String) : x ≠ y ++ ("CT" ++ k) := by
  rintro rfl
  unfold Unmarked at hx
  rw [toList_append_key] at hx
  exact hx ⟨y.toList, k.toList, by simp⟩

/-! ## Copies -/

theorem nodup_product_iff {α β : Type} {as : List α} {bs : List β} (ha : as ≠ []) (hb : bs ≠ []) :
    (as ×ˢ bs).Nodup ↔ as.Nodup ∧ bs.Nodup := by
  constructor
  · intro distinct
    obtain ⟨each, apart⟩ := List.nodup_flatMap.1 distinct
    obtain ⟨a, first⟩ := List.exists_mem_of_ne_nil as ha
    obtain ⟨b, member⟩ := List.exists_mem_of_ne_nil bs hb
    refine ⟨apart.imp ?_, (each a first).of_map⟩
    rintro x _ disjoint rfl
    exact disjoint (List.mem_map_of_mem member) (List.mem_map_of_mem member)
  · rintro ⟨left, right⟩
    exact left.product right

/-- Copies for windows have different names just if the copied columns have, and the windows end on different days. -/
theorem expandWindows_nodup_iff {columns : List Column} {windows : List Window} {pattern : Pattern} (some_ : columns ≠ [])
    (windowed : windows ≠ []) : ((expandWindows columns windows pattern).map Column.name).Nodup ↔
      (columns.map Column.name).Nodup ∧ (windows.map fun w => w.finish.date).Nodup := by
  let named : Date × String → String := fun p => p.2 ++ ("TS" ++ p.1.compactText)
  have names : (expandWindows columns windows pattern).map Column.name =
      ((windows.map fun w => w.finish.date) ×ˢ columns.map Column.name).map named := by
    have slots : windows = windows.zipIdx.map Prod.fst := (List.zipIdx_map_fst 0 windows).symm
    conv_rhs => rw [slots]
    unfold expandWindows
    show _ = List.map named (List.flatMap _ _)
    rw [List.map_flatMap, List.map_flatMap, List.map_map, List.flatMap_map]
    refine List.flatMap_congr fun slot _ => ?_
    rw [List.map_map, List.map_map, List.map_map]
    rfl
  have injective : Function.Injective named := by
    rintro ⟨d, x⟩ ⟨e, y⟩ same
    obtain ⟨rfl, rfl⟩ := append_day_inj.1 same
    rfl
  rw [names, List.nodup_map_iff injective, nodup_product_iff (by simpa using windowed) (by simpa using some_), and_comm]

namespace Crosstab
variable {crosstab : Crosstab} {own crossed : List Column} {dimension : String}

/-- Copies for buckets have different names if the buckets have different keys, and no copied name holds the mark. -/
theorem nodup_names (marks : ∀ c ∈ own ++ crossed, Unmarked c.name) (hown : (own.map Column.name).Nodup)
    (hcrossed : (crossed.map Column.name).Nodup) (keys : (crosstab.buckets.map Bucket.key).Nodup) :
    ((own ++ crosstab.expand crossed dimension).map Column.name).Nodup := by
  have names : (crosstab.expand crossed dimension).map Column.name =
      (crosstab.buckets.map Bucket.key ×ˢ crossed.map Column.name).map fun p => p.2 ++ ("CT" ++ p.1) := by
    unfold expand
    show _ = List.map _ (List.flatMap _ _)
    rw [List.map_flatMap, List.map_flatMap, List.flatMap_map]
    refine List.flatMap_congr fun b _ => ?_
    rw [List.map_map, List.map_map, List.map_map]
    rfl
  rw [List.map_append, List.nodup_append]
  refine ⟨hown, ?_, ?_⟩
  · rw [names]
    refine List.Nodup.map_on ?_ (keys.product hcrossed)
    have unmarked : ∀ p ∈ crosstab.buckets.map Bucket.key ×ˢ crossed.map Column.name, Unmarked p.2 := by
      intro p inside
      obtain ⟨c, member, same⟩ := List.mem_map.1 (List.mem_product.1 inside).2
      rw [← same]
      exact marks c (List.mem_append_right _ member)
    rintro ⟨key, x⟩ hx ⟨key', y⟩ hy same
    obtain ⟨rfl, rfl⟩ := (append_key_inj (unmarked _ hx) (unmarked _ hy)).1 same
    rfl
  · rintro _ here _ there
    obtain ⟨c, member, rfl⟩ := List.mem_map.1 here
    obtain ⟨copy, member', rfl⟩ := List.mem_map.1 there
    obtain ⟨b, _, d, _, rfl⟩ := mem_expand.1 member'
    exact (marks c (List.mem_append_left _ member)).ne_append_key d.name b.key

end Crosstab

/-! ## Columns of reports -/

namespace ReportOptions
variable {o : ReportOptions} {schema : Schema} {now : DateTime} {shape : Shape} {pattern : Pattern}

theorem nodup_bucketKeys {crosstab : Crosstab} (split : o.crosstab schema = .ok (some crosstab))
    (keys : (o.crosstabIds.map Value.key).Nodup) : (crosstab.buckets.map Bucket.key).Nodup := by
  unfold ReportOptions.crosstab at split
  split at split
  · cases split
  · split at split
    · cases split
    · split at split
      · cases split
      · rename_i unreserved
        cases split
        unfold Crosstab.buckets
        dsimp only
        split
        · have ids : (o.crosstabIds.map Bucket.id).map Bucket.key = o.crosstabIds.map Value.key := by
            rw [List.map_map]
            rfl
          have reserved : Bucket.remainder.key ∉ o.crosstabIds.map Value.key := by
            intro member
            obtain ⟨id, inside, same⟩ := List.mem_map.1 member
            exact unreserved (List.any_eq_true.2 ⟨id, inside, beq_iff_eq.2 same⟩)
          rw [List.map_append, ids]
          split
          · rw [List.nodup_append]
            refine ⟨keys, List.nodup_singleton _, ?_⟩
            rintro key member _ last rfl
            exact reserved (List.mem_singleton.1 last ▸ member)
          · simpa using keys
        · rw [List.map_map]
          exact List.nodup_range.map fun a b same => Nat.repr_inj.1 same

/-- What the columns of a time series are copies of. -/
structure Copies (o : ReportOptions) (schema : Schema) (shape : Shape) (pattern : Pattern) (own crossed : List Column)
    (windows : List Window) : Prop where
  bases : ∃ scope : ColumnScope, scope.computationColumns o.timeSeriesColumns = .ok own ∧
    scope.computationColumns o.crosstabColumns = .ok crossed
  crosstabColumns : shape.crosstabColumns =
    (shape.crosstab.map fun crosstab => crosstab.expand crossed crosstab.field).getD []
  split : o.crosstab schema = .ok shape.crosstab
  series : pattern.windows shape.range.start shape.range.finish o.customWindows = .ok windows
  nonempty : windows ≠ []
  timeSeriesColumns : shape.timeSeriesColumns = expandWindows (own ++ shape.crosstabColumns) windows pattern

theorem uncrossed_of_checkOptions (checked : o.checkOptions = .ok ()) (single : o.crosstabField = none) :
    o.crosstabColumns = [] := by
  unfold checkOptions at checked
  split at checked
  · cases checked
  · split at checked
    · cases checked
    · split at checked
      · cases checked
      · rename_i allowed
        simpa [single] using allowed

theorem copies_of_shape (shaped : o.shape schema now = .ok shape) (timed : o.pattern = some pattern) :
    ∃ own crossed windows, o.Copies schema shape pattern own crossed windows := by
  obtain ⟨_, scope, parts⟩ := shape_eq_ok shaped
  have expanded := parts.windows
  unfold windowColumns at expanded
  rw [timed] at expanded
  dsimp only at expanded
  split at expanded
  · cases expanded
  · cases expanded
  · rename_i windows some_ series
    obtain ⟨own, means, made⟩ := Results.map_eq_ok_iff.1 expanded
    have split := parts.split
    have buckets := parts.buckets
    cases crossing : shape.crosstab with
    | none =>
      rw [crossing] at split buckets
      have single : o.crosstabField = none := by
        unfold ReportOptions.crosstab at split
        split at split
        · assumption
        · split at split
          · cases split
          · split at split <;> cases split
      refine ⟨own, [], windows, ⟨⟨scope, means, ?_⟩, ?_, parts.split, series, some_, made.symm⟩⟩
      · rw [uncrossed_of_checkOptions parts.checked single]
        rfl
      · rw [crossing]
        exact (Except.ok.inj buckets).symm
    | some crosstab =>
      rw [crossing] at buckets
      obtain ⟨crossed, meant, same⟩ := Results.map_eq_ok_iff.1 buckets
      refine ⟨own, crossed, windows, ⟨⟨scope, means, meant⟩, ?_, parts.split, series, some_, made.symm⟩⟩
      rw [crossing]
      exact same.symm

theorem Copies.nodup_names {own crossed : List Column} {windows : List Window}
    (copies : o.Copies schema shape pattern own crossed windows) (hown : (own.map Column.name).Nodup)
    (hcrossed : (crossed.map Column.name).Nodup) (marks : ∀ c ∈ own ++ crossed, Unmarked c.name)
    (keys : (o.crosstabIds.map Value.key).Nodup) : ((own ++ shape.crosstabColumns).map Column.name).Nodup := by
  have split := copies.split
  rw [copies.crosstabColumns]
  cases crossing : shape.crosstab with
  | none => simpa using hown
  | some crosstab =>
    rw [crossing] at split
    exact Crosstab.nodup_names marks hown hcrossed (nodup_bucketKeys split keys)

end ReportOptions

namespace Row

theorem lookup_putCell_self (name : String) (v : Value) (cells : List (String × Value)) :
    (putCell name v cells).lookup name = some v := by
  induction cells with
  | nil => simp [putCell]
  | cons head rest ih =>
    obtain ⟨other, held⟩ := head
    unfold putCell
    split
    · rename_i same
      simp [same]
    · rename_i differ
      rw [List.lookup_cons, beq_eq_false_iff_ne.2 (Ne.symm differ)]
      exact ih

theorem lookup_putCell_of_ne {name sought : String} (differ : sought ≠ name) (v : Value) (cells : List (String × Value)) :
    (putCell name v cells).lookup sought = cells.lookup sought := by
  induction cells with
  | nil => simp [putCell, differ]
  | cons head rest ih =>
    obtain ⟨other, held⟩ := head
    unfold putCell
    split
    · rename_i same
      rw [List.lookup_cons, List.lookup_cons, same, beq_eq_false_iff_ne.2 differ]
    · rw [List.lookup_cons, List.lookup_cons, ih]

theorem get?_insert_self (row : Row) (name : String) (v : Value) : (row.insert name v).get? name = some v :=
  lookup_putCell_self name v row.cells

theorem get?_insert_of_ne (row : Row) {name sought : String} (differ : sought ≠ name) (v : Value) :
    (row.insert name v).get? sought = row.get? sought :=
  lookup_putCell_of_ne differ v row.cells

end Row

namespace Report
variable {report : Report} {base : BaseRow} {c : Column} {columns : List Column} {row filled : Row}

/-- Columns of other names leave a cell as it is. -/
theorem get?_fill_of_ne {name : String} (others : ∀ d ∈ columns, d.name ≠ name)
    (ran : report.fill base columns row = .ok filled) : filled.get? name = row.get? name := by
  induction columns generalizing row with
  | nil =>
    cases ran
    rfl
  | cons d rest ih =>
    unfold fill at ran
    split at ran
    · rename_i v _
      rw [ih (fun e member => others e (List.mem_cons_of_mem d member)) ran]
      exact Row.get?_insert_of_ne row (others d (List.mem_cons_self ..)).symm v
    · cases ran

/-- A filled row has under the name of a column the column's own cell, unless a column after it has the name, too. -/
theorem get?_fill_of_pairwise {p : Column → Prop} (keeps : columns.Pairwise fun a b => p a → b.name ≠ a.name)
    (member : c ∈ columns) (holds : p c) (ran : report.fill base columns row = .ok filled) :
    ∃ before v, report.cell base before c = .ok v ∧ filled.get? c.name = some v := by
  induction columns generalizing row with
  | nil => cases member
  | cons d rest ih =>
    obtain ⟨first, keeps⟩ := List.pairwise_cons.1 keeps
    unfold fill at ran
    split at ran
    · rename_i v found
      rcases List.mem_cons.1 member with rfl | later
      · refine ⟨row, v, found, ?_⟩
        rw [get?_fill_of_ne (fun d inside => first d inside holds) ran]
        exact Row.get?_insert_self ..
      · exact ih keeps later ran
    · cases ran

variable {s : Source} {o : ReportOptions} {now : DateTime} {w after : Workspace}

/-- A column of a report with different names for its computed columns is read from an instance that is prepared in the
column's own context, and has the cells of its field there. -/
theorem cell_eq_cellAlone (built : o.build s now w = (.ok report, after))
    (covers : ∀ d ∈ Column.computed report.shape.columns, o.registry.Covers d.computation)
    (names : ((Column.computed report.shape.columns).map ComputedColumn.name).Nodup) {c : ComputedColumn}
    (member : c ∈ Column.computed report.shape.columns) :
    let context := c.context report.shape.context report.shape.crosstab
    (∃ i, report.plan.provider? c.column = some i ∧ i.computation = c.computation ∧
      i.Settled s report.workspace context) ∧
    ∀ base row, report.cell base row c.column =
      (Instance.cellAlone o.registry s context c.computation base.group row).map fun v =>
        if o.swapSign then v.negate else v := by
  obtain ⟨rows, between, shaped, _, planned, _, rfl⟩ := ReportOptions.build_eq_ok built
  obtain ⟨scope, produced⟩ := ReportOptions.shape_produced shaped
  have families := ComputedColumn.families_of_produced produced covers
  have told : ∀ a ∈ Column.computed report.shape.columns, ∀ b ∈ Column.computed report.shape.columns,
      a.name = b.name → a.column.window = b.column.window ∧ a.column.bucket = b.column.bucket := by
    intro a ha b hb same
    rw [List.inj_on_of_nodup_map names ha hb same]
    exact ⟨rfl, rfl⟩
  obtain ⟨i, provided, settled, same, unfolds⟩ :=
    Plan.provides_of_build families (ReportOptions.shape_apart shaped told) planned member
  have root : i.tree.root = c.computation := by rw [Instance.root_tree, same]
  intro context
  refine ⟨⟨i, provided, same, settled⟩, fun base row => ?_⟩
  have alone : Instance.cellAlone report.options.registry s context i.tree.root base.group row =
      i.tree.value s context base.group row :=
    Instance.cellAlone_eq unfolds (root ▸ covers c member) settled.answered base.group row
  rw [root] at alone
  unfold cell
  rw [Column.source_of_computation? (Column.mem_computed.1 member).2]
  dsimp only
  rw [Plan.cell_of_provider? provided, settled.cell_eq, alone]

/-- The columns of a time series, those for buckets among them, have different names just if the columns that they are
copies of have, and the windows end on different days. The first is so where the columns of the options have, the ids
of the cross-tab have different keys, and no name holds the mark of buckets; the second, where all windows have one
length. Where the computed columns of the report have different names, each copy is read from an instance that is prepared in
the context of its own window and bucket, and has the cell of its field there under its name in every row. -/
theorem series_apart (built : o.build s now w = (.ok report, after)) {pattern : Pattern} (timed : o.pattern = some pattern) :
    ∃ own crossed windows, o.Copies s.schema report.shape pattern own crossed windows ∧
      (own ++ report.shape.crosstabColumns ≠ [] → ((report.shape.timeSeriesColumns.map Column.name).Nodup ↔
        ((own ++ report.shape.crosstabColumns).map Column.name).Nodup ∧ (windows.map fun w => w.finish.date).Nodup)) ∧
      ((own.map Column.name).Nodup → (crossed.map Column.name).Nodup → (∀ c ∈ own ++ crossed, Unmarked c.name) →
        (o.crosstabIds.map Value.key).Nodup → ((own ++ report.shape.crosstabColumns).map Column.name).Nodup) ∧
      (pattern ≠ .custom → (windows.map fun w => w.finish.date).Nodup) ∧
      (((Column.computed report.shape.columns).map ComputedColumn.name).Nodup →
        (∀ d ∈ Column.computed report.shape.columns, o.registry.Covers d.computation) →
        ∀ slot ∈ windows.zipIdx, ∀ p ∈ own ++ report.shape.crosstabColumns, ∀ f, p.computation? = some f →
          let c : ComputedColumn := ⟨p.forWindow pattern slot.1 slot.2, f⟩
          let context := c.context report.shape.context report.shape.crosstab
          context.window = some slot.1 ∧
          (∃ i, report.plan.provider? c.column = some i ∧ i.computation = f ∧ i.Settled s report.workspace context) ∧
          ∀ base filled, report.fill base report.shape.columns .empty = .ok filled → ∃ before v,
            Instance.cellAlone o.registry s context f base.group before = .ok v ∧
              filled.get? c.name = some (if o.swapSign then v.negate else v)) := by
  obtain ⟨_, _, shaped, _⟩ := ReportOptions.build_eq_ok built
  obtain ⟨_, _, parts⟩ := ReportOptions.shape_eq_ok shaped
  obtain ⟨own, crossed, windows, copies⟩ := ReportOptions.copies_of_shape shaped timed
  refine ⟨own, crossed, windows, copies, fun some_ => ?_, copies.nodup_names, fun regular => ?_,
    fun names covers slot listed p member f field => ?_⟩
  · rw [copies.timeSeriesColumns]
    exact expandWindows_nodup_iff some_ copies.nonempty
  · exact Pattern.nodup_days regular copies.series
  · have among : p.forWindow pattern slot.1 slot.2 ∈ report.shape.columns := by
      have copy : p.forWindow pattern slot.1 slot.2 ∈ expandWindows (own ++ report.shape.crosstabColumns) windows pattern :=
        mem_expandWindows.2 ⟨slot, listed, p, member, rfl⟩
      rw [← copies.timeSeriesColumns] at copy
      exact List.mem_append_left _ (List.mem_append_right _ copy)
    have computed : ComputedColumn.mk (p.forWindow pattern slot.1 slot.2) f ∈ Column.computed report.shape.columns :=
      Column.mem_computed.2 ⟨among, field⟩
    obtain ⟨provider, cells⟩ := cell_eq_cellAlone built covers names computed
    refine ⟨rfl, provider, fun base filled ran => ?_⟩
    obtain ⟨before, v, found, there⟩ := get?_fill_of_pairwise (parts.windows_keep names) among rfl ran
    rw [cells base before] at found
    obtain ⟨alone, given, rfl⟩ := Results.map_eq_ok_iff.1 found
    exact ⟨before, alone, given, there⟩

end Report

namespace Overlapping

/-- Two windows that end on the same day. -/
def windows : List Window :=
  [⟨Sales.year.start, .atMidnight ⟨2024, 6, 1, by decide⟩⟩,
    ⟨.atMidnight ⟨2024, 4, 1, by decide⟩, .atMidnight ⟨2024, 6, 1, by decide⟩⟩]

/-- The sales within each of the windows. -/
def sales : ReportOptions :=
  { entity := "sale", registry := .withDefaults, dateField := some "day", start := some Sales.year.start
    finish := some Sales.year.finish, pattern := some .custom, customWindows := windows
    timeSeriesColumns := [.named "__debit__"] }

def debit (w : Window) : ComputedColumn :=
  ⟨(Column.ofComputation Builtin.debit).forWindow .custom w 0, Builtin.debit⟩

def shape : Shape where
  range := Sales.year
  plainColumns := []
  display := [.timeSeries]
  timeSeriesColumns := windows.map fun w => (debit w).column
  crosstabColumns := []
  crosstab := none
  context := sales.context Sales.year
  relatedEntity := none

theorem shape_eq : sales.shape Sales.memory.source.schema Sales.year.start = .ok shape :=
  rfl

theorem computed_columns : Column.computed shape.columns = windows.map debit :=
  rfl

theorem covers : ∀ c ∈ Column.computed shape.columns, Registry.withDefaults.Covers c.computation := by
  intro c member
  rw [computed_columns] at member
  obtain ⟨w, _, rfl⟩ := List.mem_map.1 member
  exact Builtin.covers (by simp [debit, Builtin.all])

theorem built : ∃ report after, sales.build Sales.memory.source Sales.year.start .empty = (.ok report, after) ∧
    report.shape = shape := by
  have asked : BaseRow.ask sales shape Sales.memory.source .empty = (.ok [⟨.all, .empty⟩], .empty) := rfl
  obtain ⟨scope, produced⟩ := ReportOptions.shape_produced shape_eq
  have families := ComputedColumn.families_of_produced produced covers
  obtain ⟨plan, after, planned⟩ : ∃ plan after, Plan.build shape.columns shape.context shape.crosstab .withDefaults
      Sales.memory.source .empty = (.ok plan, after) := by
    refine Plan.build_of_alone families (fun c member => ?_) (fun c member => ?_) .empty
    · rw [computed_columns] at member
      obtain ⟨w, _, rfl⟩ := List.mem_map.1 member
      rfl
    · rw [computed_columns] at member
      simp only [windows, List.map, List.mem_cons, List.not_mem_nil, or_false] at member
      rcases member with rfl | rfl <;> exact ⟨_, rfl⟩
  exact ⟨_, after, ReportOptions.build_of_parts shape_eq asked planned, rfl⟩

end Overlapping

/-- The columns of windows that end on the same day have the same name. -/
theorem Report.overlapping_clash : ∃ report after,
    Overlapping.sales.build Sales.memory.source Sales.year.start .empty = (.ok report, after) ∧
      Overlapping.windows.Nodup ∧ ¬ (report.shape.timeSeriesColumns.map Column.name).Nodup := by
  obtain ⟨report, after, built, shape⟩ := Overlapping.built
  obtain ⟨own, crossed, windows, copies, names, _⟩ := series_apart built rfl
  have given : windows = Overlapping.windows := (Except.ok.inj copies.series).symm
  have columns := copies.timeSeriesColumns
  refine ⟨report, after, built, by decide, fun distinct => ?_⟩
  have some_ : own ++ report.shape.crosstabColumns ≠ [] := by
    intro none_
    have nothing : expandWindows [] windows .custom = [] := by simp [expandWindows]
    rw [none_, nothing, shape] at columns
    cases columns
  have days := ((names some_).1 distinct).2
  rw [given] at days
  exact absurd days (by decide)

end Reporting
