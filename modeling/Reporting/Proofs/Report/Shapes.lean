import Reporting.Proofs.Report.Providers
import Reporting.Report.Shape

/-!
The columns of the shape of a report. All of them come from the entries, at most one bucket and at most one
window (`ReportOptions.shape_produced`). A column for a bucket has a sister for every other one, so that
buckets of equal keys are equal where names tell the buckets (`ReportOptions.shape_apart`).
-/

namespace Reporting

namespace ColumnScope
variable {scope : ColumnScope}

theorem column_plain {entry : ColumnEntry} {c : Column} (means : scope.column entry = .ok c) :
    c.window = none ∧ c.bucket = none := by
  obtain ⟨found, entered, rfl⟩ := Results.map_eq_ok_iff.1 means
  obtain ⟨window, bucket, _⟩ := Column.find_regular entered
  obtain ⟨_, _, _, sameWindow, sameBucket⟩ := Column.withOptions_regular entry.options? found
  exact ⟨sameWindow.trans window, sameBucket.trans bucket⟩

theorem entry_of_columns {entries : List ColumnEntry} {columns : List Column} (means : scope.columns entries = .ok columns)
    {c : Column} (member : c ∈ columns) : ∃ entry, scope.column entry = .ok c := by
  obtain ⟨entry, _, meant⟩ := Results.exists_of_mapM means member
  exact ⟨entry, meant⟩

theorem entry_of_computationColumns {entries : List ColumnEntry} {columns : List Column}
    (means : scope.computationColumns entries = .ok columns) {c : Column} (member : c ∈ columns) :
    ∃ entry, scope.column entry = .ok c := by
  unfold computationColumns at means
  split at means
  · cases means
  · rename_i found entered
    split at means
    · cases means
    · cases means
      exact entry_of_columns entered member

theorem computed_of_computationColumns {entries : List ColumnEntry} {columns : List Column}
    (means : scope.computationColumns entries = .ok columns) : ∀ c ∈ columns, c.computation?.isSome := by
  unfold computationColumns at means
  split at means
  · cases means
  · split at means
    · cases means
    · rename_i none_
      cases means
      intro c member
      simpa [Option.isSome_iff_ne_none] using List.find?_eq_none.1 none_ c member

end ColumnScope

/-- Computed columns with different names are told by them. -/
theorem Column.pairwise_of_names {columns : List Column} (names : ((Column.computed columns).map ComputedColumn.name).Nodup) :
    columns.Pairwise fun a b => a.computation?.isSome → b.computation?.isSome → b.name ≠ a.name := by
  unfold List.Nodup at names
  rw [List.pairwise_map, Column.computed, List.pairwise_filterMap] at names
  refine names.imp fun {a b} differ left right => ?_
  obtain ⟨f, field⟩ := Option.isSome_iff_exists.1 left
  obtain ⟨g, field'⟩ := Option.isSome_iff_exists.1 right
  exact (differ ⟨a, f⟩ (by rw [Column.computed?, field]; rfl) ⟨b, g⟩ (by rw [Column.computed?, field']; rfl)).symm

theorem Crosstab.mem_expand {crosstab : Crosstab} {columns : List Column} {dimension : String} {c : Column} :
    c ∈ crosstab.expand columns dimension ↔
      ∃ b ∈ crosstab.buckets, ∃ p ∈ columns, p.forBucket dimension b = c := by
  simp [expand]

theorem mem_expandWindows {columns : List Column} {windows : List Window} {pattern : Pattern} {c : Column} :
    c ∈ expandWindows columns windows pattern ↔
      ∃ slot ∈ windows.zipIdx, ∃ p ∈ columns, p.forWindow pattern slot.1 slot.2 = c := by
  simp [expandWindows]

namespace ReportOptions
variable {o : ReportOptions} {schema : Schema} {now : Calendar.DateTime} {shape : Shape}

/-- What the shape of a report is put together from: where the path of its groups leads, what its entries can name, and
the columns that they mean. -/
structure Shaped (o : ReportOptions) (schema : Schema) (shape : Shape) (groupPath : Option ResolvedPath)
    (scope : ColumnScope) : Prop where
  checked : o.checkOptions = .ok ()
  led : o.groupPath schema = .ok groupPath
  split : o.crosstab schema = .ok shape.crosstab
  entries : scope = ⟨schema, (o.relatedEntity groupPath).getD o.entity, o.registry, o.attributes, o.name, o.groupLabel⟩
  plain : scope.columns o.columnEntries = .ok shape.plainColumns
  display : shape.display = o.display
  buckets : o.bucketColumns scope shape.crosstab = .ok shape.crosstabColumns
  windows : o.windowColumns scope shape.range shape.crosstabColumns = .ok shape.timeSeriesColumns
  context : shape.context = o.context shape.range
  relatedEntity : shape.relatedEntity = o.relatedEntity groupPath

theorem shape_eq_ok (shaped : o.shape schema now = .ok shape) : ∃ groupPath scope, o.Shaped schema shape groupPath scope := by
  unfold ReportOptions.shape at shaped
  obtain ⟨_, _, shaped⟩ := Results.bind_eq_ok_iff.1 shaped
  obtain ⟨_, checked, shaped⟩ := Results.bind_eq_ok_iff.1 shaped
  obtain ⟨_, _, shaped⟩ := Results.bind_eq_ok_iff.1 shaped
  obtain ⟨groupPath, led, shaped⟩ := Results.bind_eq_ok_iff.1 shaped
  obtain ⟨crosstab, split, shaped⟩ := Results.bind_eq_ok_iff.1 shaped
  obtain ⟨range, _, shaped⟩ := Results.bind_eq_ok_iff.1 shaped
  obtain ⟨plainColumns, plain, shaped⟩ := Results.bind_eq_ok_iff.1 shaped
  obtain ⟨crosstabColumns, buckets, shaped⟩ := Results.bind_eq_ok_iff.1 shaped
  obtain ⟨timeSeriesColumns, windows, shaped⟩ := Results.bind_eq_ok_iff.1 shaped
  cases shaped
  exact ⟨groupPath, _, checked, led, split, rfl, plain, rfl, buckets, windows, rfl, rfl⟩

theorem placesFrom_congr {o' : ReportOptions} (pattern : o'.pattern = o.pattern)
    (crosstab : o'.crosstabField = o.crosstabField) (position : Nat) (entries : List ColumnEntry) :
    o'.placesFrom position entries = o.placesFrom position entries := by
  induction entries generalizing position with
  | nil => rfl
  | cons e rest ih => simp only [placesFrom, pattern, crosstab, ih]

theorem display_congr {o' : ReportOptions} (entries : o'.columnEntries = o.columnEntries) (pattern : o'.pattern = o.pattern)
    (crosstab : o'.crosstabField = o.crosstabField) : o'.display = o.display := by
  unfold display
  simp only [placesFrom_congr pattern crosstab, entries, pattern, crosstab]

/-- Whether empty rows are listed does not matter for the shape. -/
theorem shape_of_showEmpty (shown : Bool) : { o with showEmpty := shown }.shape schema now = o.shape schema now := by
  have same : { o with showEmpty := shown }.display = o.display := display_congr rfl rfl rfl
  unfold ReportOptions.shape
  rw [same]
  rfl

theorem shape_context (shaped : o.shape schema now = .ok shape) : ∃ range, shape.context = o.context range := by
  obtain ⟨_, _, parts⟩ := shape_eq_ok shaped
  exact ⟨shape.range, parts.context⟩

/-- A column of the cross-tab is a copy of an entry's, which has one for the bucket of every other column, too. -/
theorem entry_of_bucketColumns {scope : ColumnScope} {crosstab : Option Crosstab} {columns : List Column}
    (expanded : o.bucketColumns scope crosstab = .ok columns) {c : Column} (member : c ∈ columns) :
    ∃ entry, ∃ p : Column, ∃ dimension b, scope.column entry = .ok p ∧ p.forBucket dimension b = c ∧
      ∀ d ∈ columns, ∀ other, d.bucket = some other → p.forBucket dimension other ∈ columns := by
  cases crosstab with
  | none =>
    cases expanded
    cases member
  | some crosstab =>
    obtain ⟨entered, means, rfl⟩ := Results.map_eq_ok_iff.1 expanded
    obtain ⟨b, _, p, inside, same⟩ := Crosstab.mem_expand.1 member
    obtain ⟨entry, meant⟩ := ColumnScope.entry_of_computationColumns means inside
    refine ⟨entry, p, crosstab.field, b, meant, same, fun d among other bucket => ?_⟩
    obtain ⟨listed, inBuckets, q, _, rfl⟩ := Crosstab.mem_expand.1 among
    cases bucket
    exact Crosstab.mem_expand.2 ⟨other, inBuckets, p, inside, rfl⟩

/-- A column of the time series is a copy of an entry's or of one of the cross-tab. -/
theorem source_of_windowColumns {scope : ColumnScope} {range : Window} {crosstabColumns columns : List Column}
    (expanded : o.windowColumns scope range crosstabColumns = .ok columns) {c : Column} (member : c ∈ columns) :
    ∃ pattern w index p, p.forWindow pattern w index = c ∧
      ((∃ entry, scope.column entry = .ok p) ∨ p ∈ crosstabColumns) := by
  unfold windowColumns at expanded
  split at expanded
  · cases expanded
    cases member
  · rename_i pattern _
    split at expanded
    · cases expanded
    · cases expanded
    · obtain ⟨entered, means, rfl⟩ := Results.map_eq_ok_iff.1 expanded
      obtain ⟨slot, _, p, inside, same⟩ := mem_expandWindows.1 member
      refine ⟨pattern, slot.1, slot.2, p, same, ?_⟩
      rcases List.mem_append.1 inside with inside | inside
      · exact Or.inl (ColumnScope.entry_of_computationColumns means inside)
      · exact Or.inr inside

theorem computed_of_bucketColumns {scope : ColumnScope} {crosstab : Option Crosstab} {columns : List Column}
    (expanded : o.bucketColumns scope crosstab = .ok columns) : ∀ c ∈ columns, c.computation?.isSome := by
  intro c member
  cases crosstab with
  | none =>
    cases expanded
    cases member
  | some crosstab =>
    obtain ⟨entered, means, rfl⟩ := Results.map_eq_ok_iff.1 expanded
    obtain ⟨b, _, p, inside, rfl⟩ := Crosstab.mem_expand.1 member
    exact ColumnScope.computed_of_computationColumns means p inside

theorem computed_of_windowColumns {scope : ColumnScope} {range : Window} {crosstabColumns columns : List Column}
    (crossed : ∀ c ∈ crosstabColumns, c.computation?.isSome)
    (expanded : o.windowColumns scope range crosstabColumns = .ok columns) : ∀ c ∈ columns, c.computation?.isSome := by
  intro c member
  unfold windowColumns at expanded
  split at expanded
  · cases expanded
    cases member
  · split at expanded
    · cases expanded
    · cases expanded
    · obtain ⟨entered, means, rfl⟩ := Results.map_eq_ok_iff.1 expanded
      obtain ⟨slot, _, p, inside, rfl⟩ := mem_expandWindows.1 member
      rcases List.mem_append.1 inside with inside | inside
      · exact ColumnScope.computed_of_computationColumns means p inside
      · exact crossed p inside

section Shaped
variable {groupPath : Option ResolvedPath} {scope : ColumnScope}

/-- The columns of the time series and of the cross-tab are computed. -/
theorem Shaped.computed_of_copies (parts : o.Shaped schema shape groupPath scope) :
    ∀ c ∈ shape.timeSeriesColumns ++ shape.crosstabColumns, c.computation?.isSome := by
  have crossed := computed_of_bucketColumns parts.buckets
  intro c member
  rcases List.mem_append.1 member with member | member
  · exact computed_of_windowColumns crossed parts.windows c member
  · exact crossed c member

/-- No column takes the name of a copy for a window before it, where the computed columns have different names. -/
theorem Shaped.windows_keep (parts : o.Shaped schema shape groupPath scope)
    (names : ((Column.computed shape.columns).map ComputedColumn.name).Nodup) :
    shape.columns.Pairwise fun a b => a.window.isSome → b.name ≠ a.name := by
  have apart := Column.pairwise_of_names names
  have plain : ∀ c ∈ shape.plainColumns, ¬ c.window.isSome := by
    intro c member
    obtain ⟨entry, means⟩ := ColumnScope.entry_of_columns parts.plain member
    simp [(ColumnScope.column_plain means).1]
  unfold Shape.columns at apart ⊢
  rw [List.append_assoc, List.pairwise_append] at apart ⊢
  obtain ⟨_, others, _⟩ := apart
  refine ⟨List.pairwise_of_forall_mem_list fun a here _ _ windowed => absurd windowed (plain a here),
    others.imp_of_mem fun {a b} hereA hereB differ _ => ?_, fun a here _ _ windowed => absurd windowed (plain a here)⟩
  exact differ (parts.computed_of_copies a hereA) (parts.computed_of_copies b hereB)

end Shaped

/-- The columns of a report come from its entries, buckets and windows. -/
theorem shape_produced (shaped : o.shape schema now = .ok shape) :
    ∃ scope, ∀ c ∈ shape.columns, c.Produced scope := by
  obtain ⟨_, scope, parts⟩ := shape_eq_ok shaped
  have crossed : ∀ c ∈ shape.crosstabColumns, c.Produced scope ∧ c.window = none := by
    intro c member
    obtain ⟨entry, p, dimension, b, means, rfl, _⟩ := entry_of_bucketColumns parts.buckets member
    obtain ⟨unwindowed, whole⟩ := ColumnScope.column_plain means
    exact ⟨.bucket (.entry means) whole unwindowed dimension b, unwindowed⟩
  refine ⟨scope, fun c member => ?_⟩
  rcases List.mem_append.1 member with member | member
  · rcases List.mem_append.1 member with member | member
    · obtain ⟨entry, means⟩ := ColumnScope.entry_of_columns parts.plain member
      exact .entry means
    · obtain ⟨pattern, w, index, p, rfl, source⟩ := source_of_windowColumns parts.windows member
      rcases source with ⟨entry, means⟩ | inside
      · exact .window (.entry means) (ColumnScope.column_plain means).1 pattern w index
      · exact .window (crossed p inside).1 (crossed p inside).2 pattern w index
  · exact (crossed c member).1

/-- The bucket of a column is that of a column of the cross-tab with the same field. -/
theorem shape_crossed (shaped : o.shape schema now = .ok shape) {c : Column} (member : c ∈ shape.columns) {b : Bucket}
    (bucket : c.bucket = some b) :
    ∃ d ∈ shape.crosstabColumns, d.bucket = some b ∧ d.computation? = c.computation? := by
  obtain ⟨_, scope, parts⟩ := shape_eq_ok shaped
  have plain : ∀ {entry : ColumnEntry} {p : Column}, scope.column entry = .ok p → p.bucket ≠ some b := by
    intro entry p means some_
    rw [(ColumnScope.column_plain means).2] at some_
    cases some_
  rcases List.mem_append.1 member with member | member
  · rcases List.mem_append.1 member with member | member
    · obtain ⟨entry, means⟩ := ColumnScope.entry_of_columns parts.plain member
      exact absurd bucket (plain means)
    · obtain ⟨pattern, w, index, p, rfl, source⟩ := source_of_windowColumns parts.windows member
      rcases source with ⟨entry, means⟩ | inside
      · exact absurd (show p.bucket = some b from bucket) (plain means)
      · exact ⟨p, inside, bucket, rfl⟩
  · exact ⟨c, member, bucket, rfl⟩

/-- A column of the cross-tab has a sister for the bucket of every other one, with the same field. -/
theorem shape_sister (shaped : o.shape schema now = .ok shape) {c d : Column} (hc : c ∈ shape.crosstabColumns)
    (hd : d ∈ shape.crosstabColumns) {b other : Bucket} (bucket : c.bucket = some b) (hother : d.bucket = some other) :
    ∃ e ∈ shape.crosstabColumns, e.bucket = some other ∧ e.computation? = c.computation? ∧
      (b.key = other.key → e.name = c.name) := by
  obtain ⟨_, scope, parts⟩ := shape_eq_ok shaped
  obtain ⟨entry, p, dimension, b', _, rfl, sisters⟩ := entry_of_bucketColumns parts.buckets hc
  cases bucket
  refine ⟨p.forBucket dimension other, sisters d hd other hother, rfl, rfl, fun same => ?_⟩
  simp [Column.forBucket, Bucket.columnSuffix, same]

/-- Where names tell windows and buckets, the columns are apart. -/
theorem shape_apart (shaped : o.shape schema now = .ok shape)
    (told : ∀ a ∈ Column.computed shape.columns, ∀ b ∈ Column.computed shape.columns, a.name = b.name →
      a.column.window = b.column.window ∧ a.column.bucket = b.column.bucket) :
    ComputedColumn.Apart (Column.computed shape.columns) where
  contextKey a ha b hb same := by
    obtain ⟨window, bucket⟩ := told a ha b hb same
    unfold ComputedColumn.contextKey
    rw [window, bucket]
  bucket a ha b hb same := by
    obtain ⟨insideA, fieldA⟩ := Column.mem_computed.1 ha
    obtain ⟨insideB, fieldB⟩ := Column.mem_computed.1 hb
    cases bucketA : a.column.bucket with
    | none =>
      rw [bucketA] at same
      exact (Option.map_eq_none_iff.1 same.symm).symm
    | some b' =>
      rw [bucketA] at same
      obtain ⟨other, bucketB, key⟩ := Option.map_eq_some_iff.1 same.symm
      obtain ⟨x, crossedX, bucketX, fieldX⟩ := shape_crossed shaped insideA bucketA
      obtain ⟨y, crossedY, bucketY, _⟩ := shape_crossed shaped insideB bucketB
      obtain ⟨z, crossedZ, bucketZ, fieldZ, nameZ⟩ := shape_sister shaped crossedX crossedY bucketX bucketY
      have computed : ∀ e ∈ shape.crosstabColumns, e.computation? = some a.computation →
          (⟨e, a.computation⟩ : ComputedColumn) ∈ Column.computed shape.columns := by
        intro e inside field
        exact Column.mem_computed.2 ⟨List.mem_append_right _ inside, field⟩
      obtain ⟨_, equal⟩ := told _ (computed z crossedZ (by rw [fieldZ, fieldX, fieldA])) _
        (computed x crossedX (by rw [fieldX, fieldA])) (nameZ key.symm)
      rw [bucketB, ← bucketX, ← bucketZ]
      exact equal.symm

end ReportOptions
end Reporting
