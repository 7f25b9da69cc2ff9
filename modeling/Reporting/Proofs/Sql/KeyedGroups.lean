import Reporting.Proofs.Results
import Reporting.Proofs.Sql.Groups
import Reporting.Sql.Database

/-!
Groups under the keys of their values. Where the rows hold values of one kind, what is found under a key is the aggregate
of the rows that have a value with the key (`lookup_groupRows`), and only where none of these has an aggregate that of
the rows that have no value, whose key is a text like others.
-/

namespace Reporting.Sql
variable {column : Column} {rows : List Joined} {kind : FieldKind}

/-! ## Entries that replace others -/

theorem lookup_filter_ne (groups : Groups) (other key : String) :
    (groups.filter fun e => e.1 != other).lookup key = if key = other then none else groups.lookup key := by
  induction groups with
  | nil => simp
  | cons head rest ih =>
    obtain ⟨first, x⟩ := head
    by_cases dropped : first = other
    · rw [List.filter_cons_of_neg (by simp [dropped]), ih]
      by_cases same : key = other
      · simp [same]
      · simp [same, List.lookup_cons, dropped, beq_eq_false_iff_ne.2 same]
    · rw [List.filter_cons_of_pos (by simp [dropped]), List.lookup_cons, List.lookup_cons, ih]
      by_cases same : key = first
      · simp [same, dropped]
      · simp [beq_eq_false_iff_ne.2 same]

/-- Of entries with one key the last one stays. -/
theorem lookup_replaced (found groups : Groups) (key : String) :
    (found.foldl (fun groups (key, x) => groups.filter (fun e => e.1 != key) ++ [(key, x)]) groups).lookup key =
      (found.reverse.lookup key).or (groups.lookup key) := by
  induction found generalizing groups with
  | nil => rfl
  | cons head rest ih =>
    obtain ⟨other, x⟩ := head
    rw [List.foldl_cons, ih, List.reverse_cons, List.lookup_append, List.lookup_append, lookup_filter_ne]
    by_cases same : key = other
    · simp [same]
    · simp [same, List.lookup_cons, beq_eq_false_iff_ne.2 same]

/-! ## What is read of a group -/

/-- The aggregate of rows as it is read; of no rows there is none. -/
def totalOf (method : Method) (target : Column) (rows : List Joined) : Option Float :=
  if rows.isEmpty then none
  else
    match aggregateCells method (rows.map fun row => row.cell target) with
    | .ok cell => (decode .decimal cell).toFloat?
    | .error _ => none

/-- The entry that is read of a group. -/
def entryOf (kind : FieldKind) (method : Method) (target : Column) (group : Cell × List Joined) : Option (String × Float) :=
  (totalOf method target group.2).map fun x => ((decode kind group.1).key, x)

/-- What a statement yields for a group. -/
def yieldGroup (method : Method) (target : Column) : Cell × List Joined → Except SourceError (List Cell)
  | (key, members) => do
    let cell ← aggregateCells method (members.map fun joined => joined.cell target)
    .ok [key, cell]

theorem lookup_keyedGroups {method : Method} {target : Column} {groups : List (Cell × List Joined)}
    {yielded : List (List Cell)} (some_ : ∀ group ∈ groups, group.2 ≠ [])
    (ran : groups.mapM (yieldGroup method target) = .ok yielded) (key : String) :
    (Database.keyedGroups (yielded.map fun cells => [kind, .decimal].zipWith decode cells)).lookup key =
      (groups.filterMap (entryOf kind method target)).reverse.lookup key := by
  unfold Database.keyedGroups
  rw [lookup_replaced, List.lookup_nil, Option.or_none]
  refine congrArg (fun found => List.lookup key (List.reverse found)) ?_
  induction groups generalizing yielded with
  | nil =>
    cases ran
    rfl
  | cons group rest ih =>
    obtain ⟨first, others, head, tail, rfl⟩ := Results.mapM_cons_eq_ok_iff.1 ran
    obtain ⟨cell, summed, head⟩ := Results.bind_eq_ok_iff.1 head
    cases head
    have more := ih (fun g member => some_ g (List.mem_cons_of_mem group member)) tail
    have present : group.2.isEmpty = false := by simpa using some_ group (List.mem_cons_self ..)
    have own : entryOf kind method target group =
        (decode .decimal cell).toFloat?.map fun x => ((decode kind group.1).key, x) := by
      unfold entryOf totalOf
      rw [present, if_neg Bool.false_ne_true, summed]
    rw [List.map_cons, List.filterMap_cons, List.filterMap_cons, own, more]
    rfl

/-! ## Values of one kind -/

/-- The value of a row in a column of the kind. -/
def Joined.value (kind : FieldKind) (column : Column) (row : Joined) : Value :=
  decode kind (row.cell column)

/-- The rows that have no value. -/
def missing (kind : FieldKind) (column : Column) (rows : List Joined) : List Joined :=
  rows.filter fun row => row.value kind column = .null

/-- The rows that have a value, with the key. -/
def presentWith (kind : FieldKind) (column : Column) (rows : List Joined) (key : String) : List Joined :=
  rows.filter fun row => row.value kind column ≠ .null ∧ (row.value kind column).key = key

/-- The rows whose value has the key. -/
def withKey (kind : FieldKind) (column : Column) (rows : List Joined) (key : String) : List Joined :=
  rows.filter fun row => (row.value kind column).key = key

/-- The cells of the rows are kept of values of the kind. -/
def HoldKind (kind : FieldKind) (column : Column) (rows : List Joined) : Prop :=
  ∀ row ∈ rows, ∃ v, kind.holds v ∧ row.cell column = stored kind v

theorem decode_eq_null {c : Cell} : decode kind c = .null ↔ c = .null := by
  constructor
  · intro none_
    cases c with
    | null => rfl
    | real x => cases none_
    | integer i => cases kind <;> cases none_
    | text s =>
      unfold decode at none_
      cases kind with
      | date =>
        dsimp only at none_
        split at none_ <;> cases none_
      | dateTime =>
        dsimp only at none_
        split at none_ <;> cases none_
      | _ => cases none_
  · rintro rfl
    rfl

theorem missing_eq (kind : FieldKind) (column : Column) (rows : List Joined) :
    missing kind column rows = rowsWith column rows .null := by
  refine List.filter_congr fun row _ => ?_
  rw [Joined.value, decide_eq_decide]
  exact decode_eq_null

/-- What is found under a key among the groups of cells that are told by the keys of their values. -/
theorem lookup_entries (method : Method) (target : Column) {cells : List Cell} (distinct : cells.Nodup)
    (told : ∀ a ∈ cells, ∀ b ∈ cells, (decode kind a).key = (decode kind b).key → a = b) {key : String} {found : List Joined}
    (own : ∀ cell ∈ cells, (decode kind cell).key = key → found = rowsWith column rows cell)
    (nobody : (∀ cell ∈ cells, (decode kind cell).key ≠ key) → found = []) :
    ((cells.map fun cell => (cell, rowsWith column rows cell)).filterMap (entryOf kind method target)).reverse.lookup key =
      totalOf method target found := by
  let byKey := cells.map fun cell => ((decode kind cell).key, rowsWith column rows cell)
  have keys : byKey.map Prod.fst = cells.map fun cell => (decode kind cell).key := by
    rw [List.map_map]
    rfl
  have once : (byKey.reverse.map Prod.fst).Nodup := by
    rw [List.map_reverse, List.nodup_reverse, keys]
    exact distinct.map_on told
  have split : ((cells.map fun cell => (cell, rowsWith column rows cell)).filterMap (entryOf kind method target)).reverse =
      byKey.reverse.filterMap fun (key, rows) => (totalOf method target rows).map fun x => (key, x) := by
    rw [← List.filterMap_reverse, ← List.map_reverse, ← List.map_reverse, List.filterMap_map, List.filterMap_map]
    rfl
  rw [split, Parts.lookup_filterMap _ once]
  by_cases known : key ∈ cells.map fun cell => (decode kind cell).key
  · obtain ⟨cell, member, rfl⟩ := List.mem_map.1 known
    have entry : ((decode kind cell).key, rowsWith column rows cell) ∈ byKey.reverse :=
      List.mem_reverse.2 (List.mem_map.2 ⟨cell, member, rfl⟩)
    rw [Keyed.lookup_of_mem once entry, own cell member rfl]
    rfl
  · rw [Keyed.lookup_eq_none (by rwa [List.map_reverse, List.mem_reverse, keys]),
      nobody fun cell member same => known (List.mem_map.2 ⟨cell, member, same⟩)]
    rfl

theorem ne_nil_of_mem_groupRows (plain : ∀ row ∈ rows, (row.cell column).isPlain) :
    ∀ group ∈ groupRows column rows, group.2 ≠ [] := by
  intro group member
  rw [groupRows_eq plain] at member
  obtain ⟨cell, among, rfl⟩ := List.mem_map.1 member
  obtain ⟨row, inside, same⟩ := mem_keysOf.1 among
  exact List.ne_nil_of_mem (List.mem_filter.2 ⟨inside, decide_eq_true same⟩)

/-- Where the keys of the values tell the cells, what is found under a key is the aggregate of all rows with the key. -/
theorem lookup_groupRows_of_told (plain : ∀ row ∈ rows, (row.cell column).isPlain)
    (told : ∀ a ∈ rows, ∀ b ∈ rows, (a.value kind column).key = (b.value kind column).key → a.cell column = b.cell column)
    (method : Method) (target : Column) (key : String) :
    ((groupRows column rows).filterMap (entryOf kind method target)).reverse.lookup key =
      totalOf method target (withKey kind column rows key) := by
  rw [groupRows_eq plain]
  refine lookup_entries method target (nodup_keysOf column rows) (fun a ha b hb same => ?_) (fun cell member same => ?_)
    fun nobody => ?_
  · obtain ⟨r, inside, rfl⟩ := mem_keysOf.1 ha
    obtain ⟨s, among, rfl⟩ := mem_keysOf.1 hb
    exact told r inside s among same
  · obtain ⟨r, inside, rfl⟩ := mem_keysOf.1 member
    refine List.filter_congr fun row among => decide_eq_decide.2 ⟨fun own => ?_, fun equal => ?_⟩
    · exact told row among r inside (own.trans same.symm)
    · rw [Joined.value, equal, same]
  · refine List.filter_eq_nil_iff.2 fun row inside passed => ?_
    exact nobody (row.cell column) (mem_keysOf.2 ⟨row, inside, rfl⟩) (of_decide_eq_true passed)

namespace HoldKind

theorem isPlain (typed : HoldKind kind column rows) (discrete : kind.isDiscrete) :
    ∀ row ∈ rows, (row.cell column).isPlain := by
  intro row member
  obtain ⟨v, hv, same⟩ := typed row member
  rw [same]
  exact isPlain_stored discrete hv

theorem holds_value (typed : HoldKind kind column rows) (discrete : kind.isDiscrete) {row : Joined} (member : row ∈ rows) :
    kind.holds (row.value kind column) := by
  obtain ⟨v, hv, same⟩ := typed row member
  rw [Joined.value, same, decode_stored discrete hv]
  exact hv

/-- Cells that are read as the same value are the same. -/
theorem cell_inj (typed : HoldKind kind column rows) (discrete : kind.isDiscrete) {a b : Joined} (ha : a ∈ rows)
    (hb : b ∈ rows) (same : a.value kind column = b.value kind column) : a.cell column = b.cell column := by
  obtain ⟨v, hv, cellA⟩ := typed a ha
  obtain ⟨w, hw, cellB⟩ := typed b hb
  rw [Joined.value, Joined.value, cellA, cellB, decode_stored discrete hv, decode_stored discrete hw] at same
  rw [cellA, cellB, same]

/-- Cells that are there are told by the keys of the values. -/
theorem eq_of_key (typed : HoldKind kind column rows) (discrete : kind.isDiscrete) {a b : Cell}
    (ha : a ∈ keysOf column rows) (hb : b ∈ keysOf column rows) (thereA : a ≠ .null) (thereB : b ≠ .null)
    (same : (decode kind a).key = (decode kind b).key) : a = b := by
  obtain ⟨r, inside, rfl⟩ := mem_keysOf.1 ha
  obtain ⟨s, among, rfl⟩ := mem_keysOf.1 hb
  have equal := (Value.key_inj_of_holds discrete (typed.holds_value discrete inside) (typed.holds_value discrete among)).1 same
  refine typed.cell_inj discrete inside among (equal.resolve_right ?_)
  rintro (⟨none_, _⟩ | ⟨_, none_⟩)
  · exact thereA (decode_eq_null.1 none_)
  · exact thereB (decode_eq_null.1 none_)

/-- The rows of a group whose cell is there are those with its key. -/
theorem presentWith_eq (typed : HoldKind kind column rows) (discrete : kind.isDiscrete) {cell : Cell}
    (member : cell ∈ keysOf column rows) (there : cell ≠ .null) :
    presentWith kind column rows (decode kind cell).key = rowsWith column rows cell := by
  refine List.filter_congr fun row inside => ?_
  have own : row.cell column ∈ keysOf column rows := mem_keysOf.2 ⟨row, inside, rfl⟩
  rw [decide_eq_decide, Joined.value]
  constructor
  · rintro ⟨present, same⟩
    exact typed.eq_of_key discrete own member (fun none_ => present (decode_eq_null.2 none_)) there same
  · rintro rfl
    exact ⟨fun none_ => there (decode_eq_null.1 none_), rfl⟩

/-- What is found under a key among the groups of the cells that are there. -/
theorem lookup_present (typed : HoldKind kind column rows) (discrete : kind.isDiscrete) (method : Method) (target : Column)
    (key : String) {present : List Cell} (distinct : present.Nodup)
    (mem_iff : ∀ cell, cell ∈ present ↔ cell ∈ keysOf column rows ∧ cell ≠ .null) :
    ((present.map fun cell => (cell, rowsWith column rows cell)).filterMap (entryOf kind method target)).reverse.lookup key =
      totalOf method target (presentWith kind column rows key) := by
  refine lookup_entries method target distinct (fun a ha b hb same => ?_) (fun cell member same => ?_) fun nobody => ?_
  · obtain ⟨insideA, thereA⟩ := (mem_iff a).1 ha
    obtain ⟨insideB, thereB⟩ := (mem_iff b).1 hb
    exact typed.eq_of_key discrete insideA insideB thereA thereB same
  · obtain ⟨inside, there⟩ := (mem_iff cell).1 member
    rw [← same, typed.presentWith_eq discrete inside there]
  · refine List.filter_eq_nil_iff.2 fun row inside passed => ?_
    obtain ⟨there, same⟩ := of_decide_eq_true passed
    refine nobody (row.cell column) ((mem_iff _).2 ⟨mem_keysOf.2 ⟨row, inside, rfl⟩, fun none_ => ?_⟩) same
    exact there (decode_eq_null.2 none_)

/-- What is found under a key. Rows without a value come first, and what comes later replaces their entry. -/
theorem lookup_groupRows (typed : HoldKind kind column rows) (discrete : kind.isDiscrete) (method : Method)
    (target : Column) (key : String) :
    ((groupRows column rows).filterMap (entryOf kind method target)).reverse.lookup key =
      (totalOf method target (presentWith kind column rows key)).or
        (if key = Value.null.key then totalOf method target (missing kind column rows) else none) := by
  obtain ⟨present, apart, keys⟩ := keysOf_eq (typed.isPlain discrete)
  have once := nodup_keysOf column rows
  rw [keys] at once
  have mem_iff : ∀ cell, cell ∈ present ↔ cell ∈ keysOf column rows ∧ cell ≠ .null := by
    intro cell
    constructor
    · intro member
      rw [keys]
      exact ⟨List.mem_append_right _ member, fun none_ => apart (none_ ▸ member)⟩
    · rintro ⟨member, there⟩
      rw [keys] at member
      refine (List.mem_append.1 member).resolve_left fun first => ?_
      split at first
      · exact there (List.mem_singleton.1 first)
      · cases first
  -- The entry of the rows without a value comes first, so that it is the last to be looked at.
  rw [groupRows_eq (typed.isPlain discrete), keys, List.map_append, List.filterMap_append, List.reverse_append,
    List.lookup_append, typed.lookup_present discrete method target key (List.nodup_append.1 once).2.1 mem_iff, missing_eq]
  congr 1
  by_cases absent : .null ∈ keysOf column rows
  · rw [if_pos absent, List.map_singleton]
    cases total : totalOf method target (rowsWith column rows .null) with
    | none => simp [entryOf, total]
    | some x =>
      by_cases same : key = Value.null.key
      · simp [entryOf, total, same, decode]
      · simp [entryOf, total, same, decode, List.lookup_cons, beq_eq_false_iff_ne.2 same]
  · have none_ : rowsWith column rows .null = [] := by
      refine List.filter_eq_nil_iff.2 fun row inside null_ => absent ?_
      exact mem_keysOf.2 ⟨row, inside, of_decide_eq_true null_⟩
    rw [if_neg absent, none_]
    simp [totalOf]

/-- Where not both some row has no value and another has the text that is its key, what is found under a key is the
aggregate of all rows with the key. -/
theorem or_missing_eq (typed : HoldKind kind column rows) (discrete : kind.isDiscrete)
    (apart : ∀ a ∈ rows, ∀ b ∈ rows, ¬ (a.value kind column).Mistaken (b.value kind column)) (method : Method)
    (target : Column) (key : String) :
    (totalOf method target (presentWith kind column rows key)).or
        (if key = Value.null.key then totalOf method target (missing kind column rows) else none) =
      totalOf method target (withKey kind column rows key) := by
  by_cases other : key = Value.null.key
  · rw [if_pos other]
    by_cases absent : ∃ row ∈ rows, row.value kind column = .null
    · obtain ⟨row, member, none_⟩ := absent
      have noText : ∀ r ∈ rows, (r.value kind column).key = key → r.value kind column = .null := by
        intro r inside same
        rw [other] at same
        refine ((Value.key_eq_none_iff discrete (typed.holds_value discrete inside)).1 same).resolve_right fun text => ?_
        exact apart row member r inside (Or.inl ⟨none_, text⟩)
      have nobody : presentWith kind column rows key = [] := by
        refine List.filter_eq_nil_iff.2 fun r inside passed => ?_
        obtain ⟨there, same⟩ := of_decide_eq_true passed
        exact there (noText r inside same)
      have all : withKey kind column rows key = missing kind column rows := by
        refine List.filter_congr fun r inside => decide_eq_decide.2 ⟨noText r inside, fun null_ => ?_⟩
        rw [null_, other]
      rw [nobody, all]
      rfl
    · have nobody : missing kind column rows = [] :=
        List.filter_eq_nil_iff.2 fun r inside passed => absent ⟨r, inside, of_decide_eq_true passed⟩
      have all : withKey kind column rows key = presentWith kind column rows key := by
        refine List.filter_congr fun r inside => decide_eq_decide.2 ⟨fun same => ⟨fun null_ => ?_, same⟩, And.right⟩
        exact absent ⟨r, inside, null_⟩
      rw [nobody, all]
      simp [totalOf]
  · have all : withKey kind column rows key = presentWith kind column rows key := by
      refine List.filter_congr fun r _ => decide_eq_decide.2 ⟨fun same => ⟨fun null_ => ?_, same⟩, And.right⟩
      rw [null_] at same
      exact other same.symm
    rw [if_neg other, Option.or_none, all]

end HoldKind
end Reporting.Sql
