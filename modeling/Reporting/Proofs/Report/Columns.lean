import Reporting.Proofs.Computation.Requirements
import Reporting.Report.Plan

/-!
Columns of computation fields. The entries of a report mean columns that are named for their fields;
cross-tabs and time series copy them, at most once each. Among the columns of one context the name then
tells the field (`ComputedColumn.Family.computation_eq`).
-/

namespace Reporting

/-- The columns that entries mean, and their copies for a bucket, for a window, or for a bucket and then a
window. -/
inductive Column.Produced (scope : ColumnScope) : Column → Prop
  | entry {entry : ColumnEntry} {c : Column} (means : scope.column entry = .ok c) : Produced scope c
  | bucket {c : Column} (of : Produced scope c) (whole : c.bucket = none) (unwindowed : c.window = none)
      (dimension : String) (b : Bucket) : Produced scope (c.forBucket dimension b)
  | window {c : Column} (of : Produced scope c) (unwindowed : c.window = none) (pattern : Pattern) (w : Window)
      (index : Nat) : Produced scope (c.forWindow pattern w index)

namespace ContextKey

/-- What the names of the columns of a context end in. -/
def suffix (key : ContextKey) : String :=
  (key.bucket.map ("CT" ++ ·)).getD "" ++ (key.window.map Window.columnSuffix).getD ""

end ContextKey

/-- The column is named for its field and its context. -/
structure ComputedColumn.Regular (c : ComputedColumn) : Prop where
  base : c.column.baseName = c.computation.name
  name : c.name = c.computation.name ++ c.contextKey.suffix

namespace Column
variable {scope : ColumnScope} {c : Column}

theorem withOptions_regular (options : Option ColumnOptions) (c : Column) :
    (c.withOptions options).name = c.name ∧ (c.withOptions options).baseName = c.baseName ∧
      (c.withOptions options).source = c.source ∧ (c.withOptions options).window = c.window ∧
      (c.withOptions options).bucket = c.bucket := by
  cases options <;> simp [withOptions]

/-- An entry means a column of no window and no bucket, which is named for the field if it is computed. -/
theorem find_regular {entry : ColumnEntry} (means : scope.find entry = .ok c) :
    c.window = none ∧ c.bucket = none ∧ c.baseName = c.name ∧
      ∀ computation, c.source = .computation computation → c.name = computation.name := by
  unfold ColumnScope.find at means
  simp only at means
  split at means
  · cases means
    simp [plain]
  · split at means
    · cases means
      simp [ofComputation, plain]
    · split at means
      · cases means
        simp [ofComputation, plain]
      · split at means
        · cases means
          simp [plain]
        · split at means
          · cases means
            simp [plain]
          · cases means

/-- The name of a field of the registry means the column of the field. -/
theorem Produced.of_get {f : Computation} (found : scope.registry.get f.name = .ok f) (differ : f.name ≠ indexColumn) :
    (ofComputation f).Produced scope := by
  have means : scope.column (.named f.name) = .ok (ofComputation f) := by
    unfold Registry.get at found
    have notIndex : (ColumnEntry.named f.name).name ≠ indexColumn := differ
    unfold ColumnScope.column ColumnScope.find
    dsimp only
    rw [if_neg notIndex]
    split at found
    · rename_i known
      cases found
      have same : scope.registry.fields.get? (ColumnEntry.named f.name).name = some f := known
      rw [same]
      rfl
    · cases found
  exact .entry means

theorem Produced.regular (h : c.Produced scope) {computation : Computation}
    (computed : c.source = .computation computation) : (ComputedColumn.mk c computation).Regular := by
  induction h with
  | @entry entry c means =>
    unfold ColumnScope.column at means
    cases found : scope.find entry with
    | error e =>
      rw [found] at means
      cases means
    | ok c' =>
      rw [found] at means
      cases means
      obtain ⟨name, base, source, window, bucket⟩ := withOptions_regular entry.options? c'
      obtain ⟨noWindow, noBucket, same, named⟩ := find_regular found
      rw [source] at computed
      have named := named computation computed
      refine ⟨?_, ?_⟩
      · show (c'.withOptions _).baseName = _
        rw [base, same, named]
      · show (c'.withOptions _).name = _
        simp only [ComputedColumn.contextKey, ContextKey.suffix, window, bucket, noWindow, noBucket, name, named]
        simp
  | bucket _ whole unwindowed dimension b ih =>
    obtain ⟨base, named⟩ := ih computed
    refine ⟨base, ?_⟩
    simp only [ComputedColumn.name, ComputedColumn.contextKey, ContextKey.suffix, whole, unwindowed] at named
    simp only [ComputedColumn.name, ComputedColumn.contextKey, ContextKey.suffix, forBucket, named, unwindowed,
      Bucket.columnSuffix]
    simp
  | window _ unwindowed pattern w index ih =>
    obtain ⟨base, named⟩ := ih computed
    refine ⟨base, ?_⟩
    simp only [ComputedColumn.name, ComputedColumn.contextKey, ContextKey.suffix, unwindowed] at named
    simp only [ComputedColumn.name, ComputedColumn.contextKey, ContextKey.suffix, forWindow, named]
    simp [String.append_assoc]

end Column

/-- Columns of one context, named for their fields, which come from the registry by name. -/
structure ComputedColumn.Family (r : Registry) (key : ContextKey) (members : List ComputedColumn) : Prop where
  contextKey : ∀ c ∈ members, c.contextKey = key
  regular : ∀ c ∈ members, c.Regular
  covers : ∀ c ∈ members, r.Covers c.computation

namespace ComputedColumn.Family
variable {r : Registry} {key : ContextKey} {members : List ComputedColumn} {a b : ComputedColumn}

/-- The name tells the field. -/
theorem computation_eq (h : Family r key members) (ha : a ∈ members) (hb : b ∈ members) (same : a.name = b.name) :
    a.computation = b.computation := by
  rw [(h.regular a ha).name, (h.regular b hb).name, h.contextKey a ha, h.contextKey b hb] at same
  have names := (String.append_left_inj _).1 same
  exact Registry.eq_of_name_eq (h.covers a ha).get (h.covers b hb).get names

end ComputedColumn.Family
end Reporting
