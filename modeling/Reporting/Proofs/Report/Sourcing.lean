import Reporting.Proofs.Report.Shapes

/-!
Where the columns of a plan come from. Within a context a column is either prepared itself or read from a prepared column,
never both, and it is the latter just if a field of the context requires its own. The way from a column along the owners of
owners meets no column twice, and which columns are followed first does not matter (`Plan.columns_sourced`).
-/

namespace Reporting

/-- Entries of different names may be put in in any order. -/
theorem Keyed.insertAll_of_perm {α : Type} (m : Keyed α) {entries others : List (String × α)} (perm : entries.Perm others)
    (distinct : (entries.map Prod.fst).Nodup) : m.insertAll entries = m.insertAll others := by
  refine perm.foldl_eq' (fun a memberA b memberB between => ?_) m
  by_cases same : a.1 = b.1
  · rw [List.inj_on_of_nodup_map distinct memberA memberB same]
  · exact insert_comm between same a.2 b.2

namespace Plan
variable {r : Registry} {s : Source} {base context : Context} {crosstab : Option Crosstab} {plan plan' : Plan}
  {owners : Owners} {columns members : List ComputedColumn} {w w' : Workspace} {n : String}

/-! ## The order in which owners are followed -/

/-- Prepares the instances of the columns of one context. Those with an owner are visited in an order of their own. -/
def prepareContextIn (visit : List ComputedColumn → Owners → List (String × String)) (r : Registry) (s : Source)
    (base : Context) (crosstab : Option Crosstab) (plan : Plan) (members : List ComputedColumn) : Session Plan := do
  match members with
  | [] => return plan
  | first :: _ =>
    let owners ← Session.ofExcept (Owners.ofMembers r members)
    modify fun w => { w with shared := Keyed.empty }
    let plan ← members.foldlM (prepareColumn r s (first.context base crosstab) owners) plan
    return { plan with
      owners := plan.owners.insertAll ((visit members owners).map fun (name, owner) => (name, owners.last [] owner)) }

/-- Plans and prepares all columns that are computed, with those that have an owner visited in any order. -/
def buildIn (visit : List ComputedColumn → Owners → List (String × String)) (columns : List Column) (base : Context)
    (crosstab : Option Crosstab) (r : Registry) (s : Source) : Session Plan :=
  (ComputedColumn.byContext (columns.filterMap Column.computed?)).foldlM (prepareContextIn visit r s base crosstab) empty

/-- The order does not matter: what is noted for a column hangs on the owners alone. -/
theorem buildIn_eq {visit : List ComputedColumn → Owners → List (String × String)}
    (visits : ∀ members owners, (visit members owners).Perm owners.entries) (columns : List Column) :
    buildIn visit columns base crosstab r s = build columns base crosstab r s := by
  have noted : ∀ (members : List ComputedColumn) (owners : Owners) (before : Keyed String),
      before.insertAll ((visit members owners).map fun (name, owner) => (name, owners.last [] owner)) =
        before.insertAll (owners.entries.map fun (name, owner) => (name, owners.last [] owner)) := by
    intro members owners before
    refine (Keyed.insertAll_of_perm before ((visits members owners).map _).symm ?_).symm
    rw [List.map_map]
    exact owners.names_nodup
  have each : prepareContextIn visit r s base crosstab = prepareContext r s base crosstab := by
    funext plan members
    cases members with
    | nil => rfl
    | cons first rest =>
      unfold prepareContextIn prepareContext
      simp only [noted]
  unfold buildIn build
  rw [each]

/-! ## Prepared columns -/

/-- A column with an owner is passed over, any other one is prepared. -/
theorem prepareColumn_eq_ok {c : ComputedColumn} (ran : prepareColumn r s context owners plan c w = (.ok plan', w')) :
    plan' = plan ∨ owners.contains c.name = false ∧ ∃ i, plan' = { plan with prepared := plan.prepared.insert c.name i } := by
  unfold prepareColumn at ran
  cases owned : owners.contains c.name with
  | true =>
    rw [owned] at ran
    cases ran
    exact Or.inl rfl
  | false =>
    rw [owned] at ran
    simp only [Bool.false_eq_true, if_false] at ran
    -- The instance is taken or made, and prepared unless it is.
    obtain ⟨_, _, _, ran⟩ := Session.bind_eq_ok ran
    obtain ⟨i, _, _, ran⟩ := Session.bind_eq_ok ran
    obtain ⟨_, _, _, ran⟩ := Session.bind_eq_ok ran
    refine Or.inr ⟨rfl, i, ?_⟩
    split at ran
    · obtain ⟨_, _, _, ran⟩ := Session.bind_eq_ok ran
      cases ran
      rfl
    · cases ran
      rfl

/-- A context adds columns without an owner. -/
theorem contains_of_prepareContext (ran : prepareContext r s base crosstab plan members w = (.ok plan', w'))
    (prepared : plan'.prepared.contains n) : plan.prepared.contains n ∨
      ∃ owners, Owners.ofMembers r members = .ok owners ∧ owners.contains n = false ∧ ∃ c ∈ members, c.name = n := by
  unfold prepareContext at ran
  split at ran
  · cases ran
    exact Or.inl prepared
  · obtain ⟨owners, _, found, ran⟩ := Session.bind_eq_ok ran
    obtain ⟨_, _, _, ran⟩ := Session.bind_eq_ok ran
    obtain ⟨between, _, here, ran⟩ := Session.bind_eq_ok ran
    cases ran
    refine (Session.exists_of_foldlM (p := fun plan => plan.prepared.contains n) here prepared).imp_right ?_
    rintro ⟨c, member, before, later, _, _, step, fresh, known⟩
    rcases prepareColumn_eq_ok step with rfl | ⟨unowned, i, rfl⟩
    · exact absurd known fresh
    · obtain rfl := ((Keyed.contains_insert_iff _).1 known).resolve_right fresh
      exact ⟨owners, (Session.ofExcept_eq_ok found).1, unowned, c, member, rfl⟩

/-- A column with an owner in its context has no instance of its own, where its name is its own. -/
theorem unprepared_of_build {columns : List Column} (names : ((Column.computed columns).map ComputedColumn.name).Nodup)
    (built : build columns base crosstab r s w = (.ok plan, w')) {c : ComputedColumn} (member : c ∈ Column.computed columns)
    (found : Owners.ofMembers r (c.contextKey.members (Column.computed columns)) = .ok owners)
    (owned : owners.contains c.name) : plan.prepared.get? c.name = none := by
  cases prepared : plan.prepared.get? c.name with
  | none => rfl
  | some i =>
    have contains : plan.prepared.contains c.name := by simp [Keyed.contains, prepared]
    rcases Session.exists_of_foldlM (p := fun plan => plan.prepared.contains c.name) built contains with
      none_ | ⟨members, among, before, later, _, _, step, fresh, known⟩
    · cases none_
    · obtain ⟨owners', found', unowned, d, inside, same⟩ := (contains_of_prepareContext step known).resolve_left fresh
      obtain ⟨key, _, rfl⟩ := List.mem_map.1 among
      obtain ⟨memberD, here⟩ := ContextKey.mem_members.1 inside
      obtain rfl := List.inj_on_of_nodup_map names memberD member same
      rw [here] at found
      obtain rfl : owners' = owners := Except.ok.inj (found'.symm.trans found)
      rw [owned] at unowned
      cases unowned

/-! ## Columns and their owners -/

/-- An owner is noted for a column just if a field of its context requires its own. -/
theorem Sourced.contains_owners_iff {key : ContextKey} (h : Sourced r s context members owners plan w)
    (family : ComputedColumn.Family r key members) {c : ComputedColumn} (member : c ∈ members) :
    plan.owners.contains c.name ↔ ∃ b ∈ members, r.Depends b.computation c.computation := by
  rw [← Owners.contains_ofMembers_iff family h.owners_eq member]
  unfold Keyed.contains
  rw [h.get?_owners c member, Option.isSome_map]

/-- The owner noted is the last of the columns met, none of which is met twice. -/
theorem Sourced.chain {key : ContextKey} (h : Sourced r s context members owners plan w)
    (family : ComputedColumn.Family r key members) {o : String} (owned : owners.get? n = some o) :
    (n :: owners.chain [] o).Nodup ∧ plan.owners.get? n = (owners.chain [] o).getLast? := by
  have listed := (Owners.ofMembers_eq_ok_iff family).1 ⟨owners, h.owners_eq⟩
  have sound := Owners.sound_of_ofMembers family h.owners_eq
  obtain ⟨c, member, _, _, rfl, _⟩ := sound.owned owned
  refine ⟨(sound.owner family listed member owned).1, ?_⟩
  rw [h.get?_owners c member, owned, Owners.getLast?_chain]
  rfl

/-- The columns of a report whose names are their own are told by window and bucket as they are by the bucket's key. -/
theorem window_bucket_eq_of_contextKey_eq {o : ReportOptions} {schema : Schema} {now : Calendar.DateTime} {shape : Shape}
    (shaped : o.shape schema now = .ok shape) (names : ((Column.computed shape.columns).map ComputedColumn.name).Nodup)
    {a b : ComputedColumn} (memberA : a ∈ Column.computed shape.columns) (memberB : b ∈ Column.computed shape.columns)
    (same : a.contextKey = b.contextKey) : a.column.window = b.column.window ∧ a.column.bucket = b.column.bucket := by
  have apart := ReportOptions.shape_apart shaped fun c memberC d memberD named => by
    rw [List.inj_on_of_nodup_map names memberC memberD named]
    exact ⟨rfl, rfl⟩
  exact ⟨congrArg ContextKey.window same, apart.bucket a memberA b memberB (congrArg ContextKey.bucket same)⟩

/-- In whichever order the columns with an owner are visited, the plan is the same. A column is either prepared or has an
owner, never both, and has an owner just if the field of a column of its window and bucket requires its own. The owner noted
is such a column, which is prepared and has no owner, and whose instance holds a prepared one of the column's field. On the
way to it along the owners of owners no column is met twice. A context is told by the window and the key of the bucket; in a
report these tell the bucket. -/
theorem columns_sourced {visit : List ComputedColumn → Owners → List (String × String)} {scope : ColumnScope}
    {columns : List Column} (produced : ∀ c ∈ columns, c.Produced scope)
    (covers : ∀ c ∈ Column.computed columns, r.Covers c.computation)
    (names : ((Column.computed columns).map ComputedColumn.name).Nodup)
    (visits : ∀ members owners, (visit members owners).Perm owners.entries)
    (built : buildIn visit columns base crosstab r s w = (.ok plan, w')) :
    build columns base crosstab r s w = (.ok plan, w') ∧
    (∀ c ∈ Column.computed columns,
      plan.prepared.contains c.name = !plan.owners.contains c.name ∧
      (∀ i, plan.prepared.get? c.name = some i → i.computation = c.computation ∧ w'.isPrepared i) ∧
      (plan.owners.contains c.name ↔ ∃ b ∈ Column.computed columns, b.contextKey = c.contextKey ∧
        r.Depends b.computation c.computation) ∧
      ∀ owner, plan.owners.get? c.name = some owner → ∃ b ∈ Column.computed columns, b.name = owner ∧
        b.contextKey = c.contextKey ∧ plan.owners.get? owner = none ∧ r.Depends b.computation c.computation ∧
        ∃ i, plan.prepared.get? owner = some i ∧ i.computation = b.computation ∧ w'.isPrepared i ∧
          ∃ j, i.dependency? c.column.baseName = some j ∧ j.computation = c.computation ∧ w'.isPrepared j) ∧
    (∀ key ∈ ContextKey.all (Column.computed columns), ∃ owners,
      Owners.ofMembers r (key.members (Column.computed columns)) = .ok owners ∧
      ∀ n o, owners.get? n = some o → (n :: owners.chain [] o).Nodup ∧
        plan.owners.get? n = (owners.chain [] o).getLast?) ∧
    ∀ (o : ReportOptions) schema now shape, o.shape schema now = .ok shape → shape.columns = columns →
      ∀ a ∈ Column.computed columns, ∀ b ∈ Column.computed columns, a.contextKey = b.contextKey →
        a.column.window = b.column.window ∧ a.column.bucket = b.column.bucket := by
  have families := ComputedColumn.families_of_produced produced covers
  have told : ∀ a ∈ Column.computed columns, ∀ b ∈ Column.computed columns, a.name = b.name →
      a.contextKey = b.contextKey :=
    fun a memberA b memberB same => congrArg ComputedColumn.contextKey (List.inj_on_of_nodup_map names memberA memberB same)
  rw [buildIn_eq visits] at built
  have sourced := sourced_of_build families told built
  refine ⟨built, fun c member => ?_, fun key among => ?_, ?_⟩
  · obtain ⟨owners, here⟩ := sourced c.contextKey (ContextKey.mem_all.2 ⟨c, member, rfl⟩)
    have family := families.family c.contextKey
    have inside := ContextKey.mem_members.2 ⟨member, rfl⟩
    have required : plan.owners.contains c.name ↔ ∃ b ∈ Column.computed columns, b.contextKey = c.contextKey ∧
        r.Depends b.computation c.computation := by
      rw [here.contains_owners_iff family inside]
      simp only [ContextKey.mem_members, and_assoc]
    rcases here.own_or_readFrom family inside with ⟨_, unowned, i, prepared, field, _, settled⟩ | ⟨b, memberB, read⟩
    · refine ⟨by simp [Keyed.contains, unowned, prepared], fun i' prepared' => ?_, required, fun owner owned => ?_⟩
      · rw [prepared] at prepared'
        cases prepared'
        exact ⟨field, settled.isPrepared⟩
      · rw [unowned] at owned
        cases owned
    · obtain ⟨memberB, key⟩ := ContextKey.mem_members.1 memberB
      have owned : owners.contains c.name := by
        rw [Owners.contains_ofMembers_iff family here.owners_eq inside]
        exact ⟨b, ContextKey.mem_members.2 ⟨memberB, key⟩, read.depends⟩
      have unprepared := unprepared_of_build names built member here.owners_eq owned
      refine ⟨by simp [Keyed.contains, unprepared, read.owner], fun i prepared => ?_, required, fun owner noted => ?_⟩
      · rw [unprepared] at prepared
        cases prepared
      · obtain rfl : b.name = owner := Option.some.inj (read.owner.symm.trans noted)
        obtain ⟨i, prepared, field, settled, j, part, found, sameField, _⟩ := read.held
        exact ⟨b, memberB, rfl, key, read.unowned, read.depends, i, prepared, field, settled.isPrepared, j, found, sameField,
          (settled.of_mem_parts part).isPrepared⟩
  · obtain ⟨owners, here⟩ := sourced key among
    exact ⟨owners, here.owners_eq, fun n o owned => here.chain (families.family key) owned⟩
  · rintro o schema now shape shaped rfl a memberA b memberB same
    exact window_bucket_eq_of_contextKey_eq shaped names memberA memberB same

end Plan

namespace Column

/-- The opening balance of a year. -/
def yearOpening : Column :=
  (ofComputation Builtin.openingBalance).forWindow .custom
    ⟨.atMidnight ⟨2022, 1, 1, by decide⟩, .atMidnight ⟨2023, 1, 1, by decide⟩⟩ 0

/-- The opening balance, the balance, which requires it, and the share, which requires that; and the opening balance of a
year, which nothing requires there. -/
def shares : List Column :=
  [ofComputation Builtin.openingBalance, ofComputation Builtin.balance, ofComputation Builtin.percentToTotalBalance,
    yearOpening]

theorem computed_shares : computed shares =
    [⟨ofComputation Builtin.openingBalance, Builtin.openingBalance⟩, ⟨ofComputation Builtin.balance, Builtin.balance⟩,
      ⟨ofComputation Builtin.percentToTotalBalance, Builtin.percentToTotalBalance⟩, ⟨yearOpening, Builtin.openingBalance⟩] :=
  rfl

theorem shares_produced : ∀ c ∈ shares, c.Produced balancesScope := by
  have plain : ∀ f ∈ Builtin.all, f.name ≠ indexColumn → (ofComputation f).Produced balancesScope :=
    fun f member differ => .of_get (Builtin.get member) differ
  intro c member
  simp only [shares, List.mem_cons, List.not_mem_nil, or_false] at member
  rcases member with rfl | rfl | rfl | rfl
  · exact plain _ (by simp [Builtin.all]) (by decide)
  · exact plain _ (by simp [Builtin.all]) (by decide)
  · exact plain _ (by simp [Builtin.all]) (by decide)
  · exact .window (plain _ (by simp [Builtin.all]) (by decide)) rfl ..

theorem computation_of_shares {c : ComputedColumn} (member : c ∈ computed shares) :
    c.computation = Builtin.openingBalance ∨ c.computation = Builtin.balance ∨
      c.computation = Builtin.percentToTotalBalance := by
  simp only [computed_shares, List.mem_cons, List.not_mem_nil, or_false] at member
  rcases member with rfl | rfl | rfl | rfl <;> simp

theorem shares_covers : ∀ c ∈ computed shares, Registry.withDefaults.Covers c.computation := by
  intro c member
  refine Builtin.covers ?_
  rcases computation_of_shares member with field | field | field <;> simp [field, Builtin.all]

theorem shares_built (total : Float) : ∃ plan w',
    Plan.build shares salesContext none Registry.withDefaults (Source.constant total) .empty = (.ok plan, w') := by
  refine Plan.build_of_answers (ComputedColumn.families_of_produced shares_produced shares_covers) ?_ ?_ _
  · intro c member
    rcases computation_of_shares member with field | field | field <;> rw [field]
    · exact Registry.dependencies_of_unfolds (Builtin.unfolds_openingTree List.not_mem_nil)
    · exact Registry.dependencies_of_unfolds (Builtin.unfolds_balanceTree List.not_mem_nil List.not_mem_nil)
    · exact Registry.dependencies_of_unfolds Builtin.unfolds_shareTree
  · intro c member d _
    refine Source.constant_aggregates total _ ?_ d
    unfold ContextKey.context
    split <;> rfl

end Column

/-- The opening balance is read from the share, past the balance, and that of the year is prepared. -/
theorem Plan.openingBalance_sourced : ∃ plan w',
    buildIn (fun _ owners => owners.entries.reverse) Column.shares Column.salesContext none Registry.withDefaults
      (Source.constant 1) .empty = (.ok plan, w') ∧
    plan.owners.get? "__fb__" = some "__percent_to_total_balance__" ∧ plan.prepared.contains "__fb__" = false ∧
    plan.prepared.contains "__fb__TS20230101" = true := by
  have visits : ∀ (_ : List ComputedColumn) (owners : Owners), owners.entries.reverse.Perm owners.entries :=
    fun _ owners => List.reverse_perm _
  obtain ⟨plan, w', built⟩ := Column.shares_built 1
  rw [← buildIn_eq visits] at built
  obtain ⟨_, each, _⟩ := columns_sourced Column.shares_produced Column.shares_covers (by decide) visits built
  -- The balance is read from the share, so it is not what the opening balance is read from.
  obtain ⟨_, _, balanced, _⟩ := each ⟨.ofComputation Builtin.balance, Builtin.balance⟩ (by simp [Column.computed_shares])
  have owned : plan.owners.contains "__balance__" :=
    balanced.2 ⟨⟨.ofComputation Builtin.percentToTotalBalance, Builtin.percentToTotalBalance⟩,
      by simp [Column.computed_shares], rfl, Builtin.depends_percentToTotalBalance⟩
  obtain ⟨single, _, opened, sourced⟩ :=
    each ⟨.ofComputation Builtin.openingBalance, Builtin.openingBalance⟩ (by simp [Column.computed_shares])
  have noted : plan.owners.contains "__fb__" :=
    opened.2 ⟨⟨.ofComputation Builtin.balance, Builtin.balance⟩, by simp [Column.computed_shares], rfl, Builtin.depends_balance⟩
  obtain ⟨owner, found⟩ := Option.isSome_iff_exists.1 noted
  obtain ⟨b, member, named, key, free, depends, _⟩ := sourced owner found
  obtain ⟨windowed, _, required, _⟩ := each ⟨Column.yearOpening, Builtin.openingBalance⟩ (by simp [Column.computed_shares])
  refine ⟨plan, w', built, ?_, ?_, ?_⟩
  · simp only [Column.computed_shares, List.mem_cons, List.not_mem_nil, or_false] at member
    rcases member with rfl | rfl | rfl | rfl
    · exact absurd depends (Builtin.not_depends_openingBalance _)
    · rw [← named] at free
      have absent : plan.owners.get? "__balance__" = none := free
      rw [Keyed.contains, absent] at owned
      cases owned
    · rw [← named] at found
      exact found
    · exact absurd depends (Builtin.not_depends_openingBalance _)
  · have other : plan.prepared.contains "__fb__" = !plan.owners.contains "__fb__" := single
    rw [other, noted]
    rfl
  · have unowned : ¬ plan.owners.contains "__fb__TS20230101" := by
      intro owned
      obtain ⟨b, member, key, depends⟩ := required.1 owned
      simp only [Column.computed_shares, List.mem_cons, List.not_mem_nil, or_false] at member
      rcases member with rfl | rfl | rfl | rfl
      · exact Builtin.not_depends_openingBalance _ depends
      · cases congrArg ContextKey.window key
      · cases congrArg ContextKey.window key
      · exact Builtin.not_depends_openingBalance _ depends
    have other : plan.prepared.contains "__fb__TS20230101" = !plan.owners.contains "__fb__TS20230101" := windowed
    rw [other, Bool.eq_false_iff.2 unowned]
    rfl

end Reporting
