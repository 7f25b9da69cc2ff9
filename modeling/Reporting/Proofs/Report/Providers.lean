import Mathlib.Data.List.Nodup
import Reporting.Proofs.Report.Contexts

/-!
Providers of columns. A plan reads every column from a settled instance of the column's own field in the
column's own context, be it the column's own or one that an owner requires (`Plan.Sourced.own_or_readFrom`). Its
cells are therefore those of the field prepared alone.
-/

namespace Reporting

/-- The name of a column tells its context, and the key of its bucket tells the bucket. -/
structure ComputedColumn.Apart (columns : List ComputedColumn) : Prop where
  contextKey : ∀ a ∈ columns, ∀ b ∈ columns, a.name = b.name → a.contextKey = b.contextKey
  bucket : ∀ a ∈ columns, ∀ b ∈ columns, a.column.bucket.map Bucket.key = b.column.bucket.map Bucket.key →
    a.column.bucket = b.column.bucket

theorem ComputedColumn.Apart.of_nodup {columns : List ComputedColumn}
    (names : (columns.map ComputedColumn.name).Nodup)
    (buckets : ∀ a ∈ columns, ∀ b ∈ columns, a.column.bucket.map Bucket.key = b.column.bucket.map Bucket.key →
      a.column.bucket = b.column.bucket) : Apart columns where
  contextKey _ ha _ hb same := congrArg ComputedColumn.contextKey (List.inj_on_of_nodup_map names ha hb same)
  bucket := buckets

namespace Plan
variable {r : Registry} {s : Source} {base : Context} {crosstab : Option Crosstab} {plan plan' old : Plan}
  {columns members : List ComputedColumn}

/-- The instance that a column is read from: what its owner's instance requires under its name, or its own. -/
def provider? (plan : Plan) (c : Column) : Option Instance :=
  match plan.owners.get? c.name with
  | some owner => (plan.prepared.get? owner).bind fun i => i.dependency? c.baseName
  | none => plan.prepared.get? c.name

/-- A column with a provider has the provider's cells. -/
theorem cell_of_provider? {c : Column} {i : Instance} (h : plan.provider? c = some i) (w : Workspace)
    (group : GroupKey) (row : Row) : plan.cell w c group row = i.cell w group row := by
  unfold provider? at h
  unfold cell
  cases owned : plan.owners.get? c.name with
  | none =>
    simp only [owned] at h ⊢
    simp only [h]
  | some owner =>
    simp only [owned, Option.bind_eq_some_iff] at h ⊢
    obtain ⟨j, prepared, found⟩ := h
    simp only [prepared, Instance.dependencyCell, found]

/-- What a plan has for the columns of a context: the last owners of those that have one, and settled instances of the
fields of the others. -/
structure Sourced (r : Registry) (s : Source) (context : Context) (members : List ComputedColumn) (owners : Owners)
    (plan : Plan) (w : Workspace) : Prop where
  owners_eq : Owners.ofMembers r members = .ok owners
  get?_owners : ∀ c ∈ members, plan.owners.get? c.name = (owners.get? c.name).map (owners.last [])
  own : ∀ c ∈ members, owners.get? c.name = none →
    ∃ i, plan.prepared.get? c.name = some i ∧ i.computation = c.computation ∧ i.tree.Unfolds r [] ∧
      i.Settled s w context

theorem ContextPlanned.sourced {context : Context} {start w : Workspace} {owners : Owners} {asked : List Computation}
    (h : ContextPlanned r s context members old start owners asked plan w)
    (unowned : ∀ c ∈ members, old.owners.get? c.name = none) : Sourced r s context members owners plan w where
  owners_eq := h.owners_eq
  get?_owners c member := by rw [h.get?_owners, unowned c member, Option.or_none]
  own := h.own

/-- A later plan has the same for the columns if it is as it was for their names, and what was held is kept. -/
theorem Sourced.later {context : Context} {owners : Owners} {w w' : Workspace} (h : Sourced r s context members owners plan w)
    (same : ∀ c ∈ members, plan'.prepared.get? c.name = plan.prepared.get? c.name ∧
      plan'.owners.get? c.name = plan.owners.get? c.name)
    (kept : ∀ {k : Nat} {a}, w.held[k]?.join = some a → w'.held[k]?.join = some a) :
    Sourced r s context members owners plan' w' where
  owners_eq := h.owners_eq
  get?_owners c member := (same c member).2.trans (h.get?_owners c member)
  own c member free := by
    obtain ⟨i, prepared, field, unfolds, settled⟩ := h.own c member free
    exact ⟨i, (same c member).1.trans prepared, field, unfolds, settled.mono kept⟩

/-- The column is read from another one without an owner, whose field requires its own: the instance of the other one holds
one of the column's field. -/
structure ReadFrom (plan : Plan) (r : Registry) (s : Source) (context : Context) (w : Workspace) (c b : ComputedColumn) :
    Prop where
  owner : plan.owners.get? c.name = some b.name
  unowned : plan.owners.get? b.name = none
  depends : r.Depends b.computation c.computation
  held : ∃ i, plan.prepared.get? b.name = some i ∧ i.computation = b.computation ∧ i.Settled s w context ∧
    ∃ j ∈ i.parts, i.dependency? c.column.baseName = some j ∧ j.computation = c.computation ∧ j.tree.Unfolds r []

/-- A column either has an instance of its own or is read from another column of its context. -/
theorem Sourced.own_or_readFrom {context : Context} {key : ContextKey} {owners : Owners} {w : Workspace}
    (h : Sourced r s context members owners plan w) (family : ComputedColumn.Family r key members) {c : ComputedColumn}
    (member : c ∈ members) :
    (owners.get? c.name = none ∧ plan.owners.get? c.name = none ∧ ∃ i, plan.prepared.get? c.name = some i ∧
      i.computation = c.computation ∧ i.tree.Unfolds r [] ∧ i.Settled s w context) ∨
    ∃ b ∈ members, plan.ReadFrom r s context w c b := by
  have listed := (Owners.ofMembers_eq_ok_iff family).1 ⟨owners, h.owners_eq⟩
  have sound := Owners.sound_of_ofMembers family h.owners_eq
  have last := h.get?_owners c member
  cases owned : owners.get? c.name with
  | none =>
    rw [owned] at last
    exact Or.inl ⟨rfl, last, h.own c member owned⟩
  | some o =>
    rw [owned] at last
    obtain ⟨_, b, memberB, named, free, depends⟩ := sound.owner family listed member owned
    obtain ⟨i, prepared, field, unfolds, settled⟩ := h.own b memberB free
    have required : r.Depends i.computation c.computation := by
      rw [field]
      exact depends
    have covers : r.Covers i.computation := by
      rw [field]
      exact family.covers b memberB
    obtain ⟨j, found, sameField, part⟩ := Instance.dependency?_of_depends unfolds covers required
    rw [← (family.regular c member).base] at found
    refine Or.inr ⟨b, memberB, ?_, ?_, depends, i, prepared, field, settled, j, part, found, sameField,
      Instance.unfolds_of_mem_parts unfolds part⟩
    · rw [named]
      exact last
    · rw [h.get?_owners b memberB, free]
      rfl

theorem Sourced.provides {context : Context} {key : ContextKey} {owners : Owners} {w : Workspace}
    (h : Sourced r s context members owners plan w) (family : ComputedColumn.Family r key members) {c : ComputedColumn}
    (member : c ∈ members) :
    ∃ i, plan.provider? c.column = some i ∧ i.Settled s w context ∧ i.computation = c.computation ∧ i.tree.Unfolds r [] := by
  unfold provider?
  rcases h.own_or_readFrom family member with ⟨_, unowned, i, prepared, field, unfolds, settled⟩ | ⟨b, _, read⟩
  · have free : plan.owners.get? c.column.name = none := unowned
    rw [free]
    exact ⟨i, prepared, settled, field, unfolds⟩
  · obtain ⟨i, prepared, _, settled, j, part, found, field, unfolds⟩ := read.held
    have owner : plan.owners.get? c.column.name = some b.name := read.owner
    refine ⟨j, ?_, settled.of_mem_parts part, field, unfolds⟩
    simp only [owner, prepared, Option.bind_some, found]

/-- Planning contexts changes nothing for columns of other names, and keeps what is held. -/
theorem ContextsPlanned.others (families : ComputedColumn.Families r columns) {keys : List ContextKey}
    {w w' : Workspace} (h : ContextsPlanned r s base crosstab columns keys plan w plan' w') :
    (∀ n, (∀ key ∈ keys, ∀ c ∈ key.members columns, c.name ≠ n) →
        plan'.prepared.get? n = plan.prepared.get? n ∧ plan'.owners.get? n = plan.owners.get? n) ∧
      ∀ {k : Nat} {a}, w.held[k]?.join = some a → w'.held[k]?.join = some a := by
  induction h with
  | nil plan w => exact ⟨fun _ _ => ⟨rfl, rfl⟩, fun held => held⟩
  | @cons key keys old plan plan' start w w' owners asked here rest ih =>
    obtain ⟨others, kept⟩ := ih
    refine ⟨fun n outside => ?_, fun held => kept (here.kept held)⟩
    obtain ⟨prepared, owned⟩ := others n fun key' member => outside key' (List.mem_cons_of_mem key member)
    have fresh := outside key (List.mem_cons_self ..)
    -- Only columns of the context have owners in it.
    have unowned := (Owners.sound_of_ofMembers (families.family key) here.owners_eq).get?_eq_none fresh
    rw [prepared, owned, here.others n fresh, here.get?_owners, unowned]
    exact ⟨rfl, rfl⟩

/-- Where the names of the columns tell their contexts, a plan of all contexts has for each of them what it had when the
context was planned. -/
theorem ContextsPlanned.sourced (families : ComputedColumn.Families r columns)
    (told : ∀ a ∈ columns, ∀ b ∈ columns, a.name = b.name → a.contextKey = b.contextKey) {keys : List ContextKey}
    (distinct : keys.Nodup) {w w' : Workspace}
    (h : ContextsPlanned r s base crosstab columns keys plan w plan' w')
    (unowned : ∀ key ∈ keys, ∀ c ∈ key.members columns, plan.owners.get? c.name = none) :
    ∀ key ∈ keys, ∃ owners, Sourced r s (key.context columns base crosstab) (key.members columns) owners plan' w' := by
  have apart : ∀ {key other : ContextKey}, key ≠ other → ∀ c ∈ key.members columns, ∀ d ∈ other.members columns,
      c.name ≠ d.name := by
    intro key other differ c member d member' same
    obtain ⟨member, here⟩ := ContextKey.mem_members.1 member
    obtain ⟨member', there⟩ := ContextKey.mem_members.1 member'
    rw [← here, ← there] at differ
    exact differ (told c member d member' same)
  induction h with
  | nil => simp
  | @cons key keys old plan plan' start w w' owners asked here rest ih =>
    rw [List.nodup_cons] at distinct
    obtain ⟨others, kept⟩ := rest.others families
    have away : ∀ c ∈ key.members columns, ∀ other ∈ keys, ∀ d ∈ other.members columns, d.name ≠ c.name := by
      intro c member other among d member' same
      refine apart ?_ c member d member' same.symm
      rintro rfl
      exact distinct.1 among
    intro key' among
    rcases List.mem_cons.1 among with rfl | among
    · have sourced := here.sourced (unowned key' (List.mem_cons_self ..))
      exact ⟨owners, sourced.later (fun c member => others c.name (away c member)) kept⟩
    · refine ih distinct.2 (fun other inside d member => ?_) key' among
      have before := unowned other (List.mem_cons_of_mem key inside) d member
      have sound := Owners.sound_of_ofMembers (families.family key) here.owners_eq
      have free := sound.get?_eq_none fun a member' => (away a member' other inside d member).symm
      rw [here.get?_owners, free, before]
      rfl

/-- The context of a column is that of all columns with its key. -/
theorem context_contextKey (apart : ComputedColumn.Apart columns) {c : ComputedColumn} (member : c ∈ columns)
    (base : Context) (crosstab : Option Crosstab) :
    c.contextKey.context columns base crosstab = c.context base crosstab := by
  have among := ContextKey.mem_members.2 ⟨member, rfl⟩
  unfold ContextKey.context
  cases shape : c.contextKey.members columns with
  | nil =>
    rw [shape] at among
    cases among
  | cons first rest =>
    obtain ⟨inside, same⟩ := ContextKey.mem_members.1 (shape ▸ List.mem_cons_self .. : first ∈ c.contextKey.members columns)
    have window : first.column.window = c.column.window := congrArg ContextKey.window same
    have bucket := apart.bucket first inside c member (congrArg ContextKey.bucket same)
    simp only [ComputedColumn.context, window, bucket]

/-- A plan has owners and instances for the columns of every context, where their names tell their contexts. -/
theorem sourced_of_build {columns : List Column} {w w' : Workspace}
    (families : ComputedColumn.Families r (Column.computed columns))
    (told : ∀ a ∈ Column.computed columns, ∀ b ∈ Column.computed columns, a.name = b.name → a.contextKey = b.contextKey)
    (built : build columns base crosstab r s w = (.ok plan, w')) :
    ∀ key ∈ ContextKey.all (Column.computed columns), ∃ owners, Sourced r s (key.context (Column.computed columns) base crosstab)
      (key.members (Column.computed columns)) owners plan w' :=
  (contextsPlanned_of_build families built).sourced families told (ContextKey.nodup_all _) fun _ _ _ _ => rfl

/-- Every column of a plan has a settled provider for its own field in its own context. -/
theorem provides_of_build {columns : List Column} {w w' : Workspace}
    (families : ComputedColumn.Families r (Column.computed columns))
    (apart : ComputedColumn.Apart (Column.computed columns))
    (built : build columns base crosstab r s w = (.ok plan, w')) {c : ComputedColumn}
    (member : c ∈ Column.computed columns) :
    ∃ i, plan.provider? c.column = some i ∧ i.Settled s w' (c.context base crosstab) ∧
      i.computation = c.computation ∧ i.tree.Unfolds r [] := by
  obtain ⟨owners, sourced⟩ := sourced_of_build families apart.contextKey built c.contextKey
    (ContextKey.mem_all.2 ⟨c, member, rfl⟩)
  rw [context_contextKey apart member] at sourced
  exact sourced.provides (families.family c.contextKey) (ContextKey.mem_members.2 ⟨member, rfl⟩)

/-- Every column of a plan is read from a prepared instance, and has the cells that its field has when it is
prepared alone in the column's context. A cell only fails by the rule of a field. -/
theorem cell_eq_alone {scope : ColumnScope} {columns : List Column} {w w' : Workspace}
    (produced : ∀ c ∈ columns, c.Produced scope) (covers : ∀ c ∈ Column.computed columns, r.Covers c.computation)
    (names : ((Column.computed columns).map ComputedColumn.name).Nodup)
    (buckets : ∀ a ∈ Column.computed columns, ∀ b ∈ Column.computed columns,
      a.column.bucket.map Bucket.key = b.column.bucket.map Bucket.key → a.column.bucket = b.column.bucket)
    (built : build columns base crosstab r s w = (.ok plan, w')) {c : ComputedColumn}
    (member : c ∈ Column.computed columns) (start : Workspace) :
    (∃ j after, Instance.prepareAlone r s (c.context base crosstab) c.computation start = (.ok j, after) ∧
      ∀ group row, plan.cell w' c.column group row = j.cell after group row) ∧
    (∃ i, plan.provider? c.column = some i ∧ ∀ j ∈ i.parts, w'.isPrepared j) ∧
    ∀ group row e, plan.cell w' c.column group row = .error e →
      ∃ d, r.Reaches c.computation d ∧ ∃ i : Inputs, d.resolve i row = .error e := by
  have families := ComputedColumn.families_of_produced produced covers
  have apart := ComputedColumn.Apart.of_nodup names buckets
  obtain ⟨i, found, settled, same, unfolds⟩ := provides_of_build families apart built member
  have root : i.tree.root = c.computation := by rw [Instance.root_tree, same]
  have coversRoot : r.Covers i.tree.root := by
    rw [root]
    exact covers c member
  have cell_eq : ∀ group row, plan.cell w' c.column group row = i.tree.value s (c.context base crosstab) group row := by
    intro group row
    rw [cell_of_provider? found, settled.cell_eq]
  refine ⟨?_, ⟨i, found, fun j part => (settled.of_mem_parts part).isPrepared⟩, ?_⟩
  · rcases Instance.prepareAlone_settled s (c.context base crosstab) unfolds coversRoot start with
      ⟨j, after, ran, alone, tree⟩ | ⟨_, _, _, d, inside, cause, failed⟩
    · rw [root] at ran
      refine ⟨j, after, ran, fun group row => ?_⟩
      rw [cell_eq, alone.cell_eq, tree]
    · obtain ⟨a, answered⟩ := settled.answered d inside
      rw [failed] at answered
      cases answered
  · intro group row e failed
    rw [cell_eq] at failed
    obtain ⟨d, inside, i', refused⟩ := FieldTree.refused_of_value_eq_error i.tree settled.answered failed
    have reaches := unfolds.reaches inside
    rw [root] at reaches
    exact ⟨d, reaches, i', refused⟩

/-- The opening balance, which is read from what the balance requires, is that of the field alone. -/
theorem openingBalance_eq_alone : ∃ plan w',
    build Column.balances Column.salesContext none Registry.withDefaults (Source.constant 1) .empty = (.ok plan, w') ∧
      ∃ j after, Instance.prepareAlone Registry.withDefaults (Source.constant 1) Column.salesContext
          Builtin.openingBalance .empty = (.ok j, after) ∧
        plan.cell w' (Column.ofComputation Builtin.openingBalance) .all = j.cell after .all := by
  obtain ⟨plan, w', built⟩ := Column.balances_built 1
  have names : ((Column.computed Column.balances).map ComputedColumn.name).Nodup := by
    rw [Column.computed_balances]
    decide
  have buckets : ∀ a ∈ Column.computed Column.balances, ∀ b ∈ Column.computed Column.balances,
      a.column.bucket.map Bucket.key = b.column.bucket.map Bucket.key → a.column.bucket = b.column.bucket := by
    simp [Column.computed_balances, Column.ofComputation, Column.plain]
  obtain ⟨⟨j, after, ran, same⟩, _⟩ := cell_eq_alone Column.balances_produced Column.balances_covers names buckets built
    (c := ⟨Column.ofComputation Builtin.openingBalance, Builtin.openingBalance⟩)
    (by simp [Column.computed_balances]) .empty
  refine ⟨plan, w', built, j, after, ran, ?_⟩
  rw [same]

end Plan
end Reporting
