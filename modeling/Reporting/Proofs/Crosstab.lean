import Reporting.Computation.Builtin
import Reporting.Proofs.Kinds
import Reporting.Proofs.Memory
import Reporting.Proofs.Parts
import Reporting.Report.Plan

/-!
Cross-tabs with a remainder. A record is in one bucket, but for two kinds of cells (`Crosstab.times_eq`): a missing
one passes the opposite of every comparison, so that the remainder has it beside its own bucket, and the text that is
the key of missing cells is neither the missing value nor, by its key, another one than it. The columns of the buckets
take every record as often (`Crosstab.parts_of_buckets`).
-/

namespace Reporting

namespace Crosstab
variable {c : Crosstab} {cell : Value}

/-- The records with the cell in the dimension are in the bucket. -/
def admits (c : Crosstab) (b : Bucket) (cell : Value) : Bool :=
  (c.filterFor b).all fun p => p.accepts cell

/-- How many buckets the records with the cell in the dimension are in. -/
def times (c : Crosstab) (cell : Value) : Nat :=
  c.buckets.countP fun b => c.admits b cell

theorem admits_id (id : Value) :
    c.admits (.id id) cell = if id = .null then cell.isNull else cell.looselyEquals id := by
  unfold admits filterFor
  cases id <;> simp [Predicate.of, Predicate.accepts, Condition.accepts]

theorem admits_remainder : c.admits .remainder cell = (cell.isNull || !c.ids.any fun id => cell.looselyEquals id) := by
  unfold admits filterFor
  cases cell <;> simp [Predicate.of, Predicate.negate, Predicate.accepts, Condition.accepts, Value.isNull]

theorem times_add (whole : c.customFilters = []) (rest : c.computeRemainder = true) :
    c.times cell = (c.ids.countP fun id => c.admits (.id id) cell) + if c.admits .remainder cell then 1 else 0 := by
  unfold times buckets
  rw [whole, rest]
  simp [List.countP_map, List.countP_cons, Function.comp_def]

variable {kind : FieldKind}

theorem admits_id_iff (discrete : kind.isDiscrete) {id : Value} (hid : kind.holds id) (hcell : kind.holds cell) :
    c.admits (.id id) cell ↔ cell = id ∨ cell = .null ∧ id = .noneText := by
  rw [admits_id]
  by_cases missing : id = .null
  · subst missing
    cases cell <;> simp [Value.isNull, Value.noneText]
  · rw [if_neg missing, Value.looselyEquals_of_holds discrete hcell hid]
    simp [Value.Mistaken, missing]

/-- At most one of the ids admits a cell. -/
theorem countP_ids (discrete : kind.isDiscrete) (distinct : (c.ids.map Value.key).Nodup)
    (ids : ∀ id ∈ c.ids, kind.holds id) (hcell : kind.holds cell) :
    (c.ids.countP fun id => c.admits (.id id) cell) =
      if cell ∈ c.ids ∨ cell = .null ∧ .noneText ∈ c.ids then 1 else 0 := by
  have own := fun id member => admits_id_iff (c := c) discrete (ids id member) hcell
  rw [Parts.countP_of_nodup_map distinct (k := cell.key)]
  · refine if_congr ?_ rfl rfl
    rw [List.any_eq_true]
    constructor
    · rintro ⟨id, member, admitted⟩
      rcases (own id member).1 admitted with rfl | ⟨rfl, rfl⟩
      · exact Or.inl member
      · exact Or.inr ⟨rfl, member⟩
    · rintro (member | ⟨rfl, member⟩)
      · exact ⟨cell, member, (own cell member).2 (Or.inl rfl)⟩
      · exact ⟨.noneText, member, (own _ member).2 (Or.inr ⟨rfl, rfl⟩)⟩
  · intro id member admitted
    rcases (own id member).1 admitted with rfl | ⟨rfl, rfl⟩ <;> rfl

theorem admits_remainder_iff (discrete : kind.isDiscrete) (ids : ∀ id ∈ c.ids, kind.holds id)
    (hcell : kind.holds cell) :
    c.admits .remainder cell ↔ cell = .null ∨ cell ∉ c.ids ∧ (cell = .noneText → .null ∉ c.ids) := by
  rw [admits_remainder]
  by_cases missing : cell = .null
  · simp [missing, Value.isNull]
  · have present : cell.isNull = false := by
      cases cell <;> first | rfl | exact absurd rfl missing
    have none_ : (c.ids.any fun id => cell.looselyEquals id) ↔ cell ∈ c.ids ∨ cell = .noneText ∧ .null ∈ c.ids := by
      rw [List.any_eq_true]
      constructor
      · rintro ⟨id, member, equal⟩
        rcases (Value.looselyEquals_of_holds discrete hcell (ids id member)).1 equal with rfl | ⟨rfl, _⟩ | ⟨rfl, rfl⟩
        · exact Or.inl member
        · exact absurd rfl missing
        · exact Or.inr ⟨rfl, member⟩
      · rintro (member | ⟨rfl, member⟩)
        · exact ⟨cell, member, (Value.looselyEquals_of_holds discrete hcell hcell).2 (Or.inl rfl)⟩
        · exact ⟨.null, member, (Value.looselyEquals_of_holds discrete hcell (ids _ member)).2 (Or.inr (Or.inr ⟨rfl, rfl⟩))⟩
    rw [present, Bool.false_or, Bool.not_eq_true', ← Bool.not_eq_true, none_]
    simp [missing]

/-- A missing cell is in the remainder, whatever else; the text of its key is in no bucket where the missing value is an
id. -/
theorem times_eq (whole : c.customFilters = []) (rest : c.computeRemainder = true) (discrete : kind.isDiscrete)
    (distinct : (c.ids.map Value.key).Nodup) (ids : ∀ id ∈ c.ids, kind.holds id) (hcell : kind.holds cell) :
    c.times cell =
      if cell = .null then if .null ∈ c.ids ∨ .noneText ∈ c.ids then 2 else 1
      else if cell = .noneText ∧ .null ∈ c.ids then 0
      else 1 := by
  rw [times_add whole rest, countP_ids discrete distinct ids hcell, if_congr (admits_remainder_iff discrete ids hcell) rfl rfl]
  by_cases missing : cell = .null
  · simp only [missing, true_and, true_or, if_true]
    split <;> rfl
  by_cases mistaken : cell = .noneText ∧ .null ∈ c.ids
  · -- The text is no id beside the missing value, which has its key.
    have other : cell ∉ c.ids := by
      intro member
      rw [mistaken.1] at member
      cases List.inj_on_of_nodup_map distinct member mistaken.2 rfl
    simp [missing, other, eq_true mistaken.1, mistaken.2]
  · by_cases member : cell ∈ c.ids
    · simp [missing, mistaken, member]
    · simp [missing, mistaken, member]

/-! ## The columns of the buckets -/

theorem path_of_mem_filterFor (whole : c.customFilters = []) (b : Bucket) : ∀ p ∈ c.filterFor b, p.path = c.field := by
  unfold filterFor
  rw [whole]
  cases b <;> simp [Predicate.of, Predicate.negate]

end Crosstab

namespace ComputedColumn

/-- The copy of the column for a bucket. -/
def forBucket (p : ComputedColumn) (dimension : String) (b : Bucket) : ComputedColumn :=
  ⟨p.column.forBucket dimension b, p.computation⟩

theorem forBucket_filters_perm {p : ComputedColumn} (plain : p.column.bucket = none) (dimension : String) (b : Bucket)
    (base : Context) (c : Crosstab) (sides : FilterSet) :
    ((p.context base (some c)).filtersOf p.computation ++ sides ++ c.filterFor b).Perm
      (((p.forBucket dimension b).context base (some c)).filtersOf p.computation ++ sides) := by
  have whole : (p.context base (some c)).filters = base.filters := by simp [context, plain]
  have moved : (sides ++ c.filterFor b).Perm (c.filterFor b ++ sides) := List.perm_append_comm
  have perm := moved.append_left ((p.context base (some c)).filtersOf p.computation)
  refine (List.Perm.of_eq (List.append_assoc ..)).trans (perm.trans (.of_eq ?_))
  have own : ((p.forBucket dimension b).context base (some c)).filters = base.filters ++ c.filterFor b := rfl
  simp only [Context.filtersOf, whole, own, List.append_assoc]
  rfl

end ComputedColumn

/-- With a remainder beside ids of different keys, of one kind with the cells of the dimension, a record is in one
bucket unless its cell is missing and an id has the key of missing cells, when it is in two, or its cell is that key and
the missing value is an id, when it is in none. The columns of the buckets take each record as often as that, and where
that is once, the records of the column without a cross-tab. -/
theorem Crosstab.parts_of_buckets {m : Memory} {c : Crosstab} {base : Context} {place : ResolvedPath} {kind : FieldKind}
    (whole : c.customFilters = []) (rest : c.computeRemainder = true) (distinct : (c.ids.map Value.key).Nodup)
    (led : m.schema.resolve base.entity c.field = .ok place) (discrete : kind.isDiscrete)
    (ids : ∀ id ∈ c.ids, kind.holds id)
    (typed : ∀ record ∈ (m.tableOf base.entity).rows.toList, kind.holds (m.cellAt record place)) :
    (∀ record ∈ (m.tableOf base.entity).rows.toList, c.times (m.cellAt record place) =
      if m.cellAt record place = .null then if .null ∈ c.ids ∨ .noneText ∈ c.ids then 2 else 1
      else if m.cellAt record place = .noneText ∧ .null ∈ c.ids then 0
      else 1) ∧
    ∀ (p : ComputedColumn) (sides : FilterSet) records, p.column.bucket = none →
      m.matching base.entity ((p.context base (some c)).filtersOf p.computation ++ sides) = .ok records →
      ∃ part : Bucket → List Record,
        (∀ dimension, ∀ b ∈ c.buckets, m.matching base.entity
          (((p.forBucket dimension b).context base (some c)).filtersOf p.computation ++ sides) = .ok (part b)) ∧
        (c.buckets.flatMap part).Perm
          (records.flatMap fun record => List.replicate (c.times (m.cellAt record place)) record) ∧
        ((∀ record ∈ records, c.times (m.cellAt record place) = 1) → (c.buckets.flatMap part).Perm records) := by
  refine ⟨fun record member => times_eq whole rest discrete distinct ids (typed record member), ?_⟩
  intro p sides records plain matched
  refine ⟨fun b => records.filter fun record => c.admits b (m.cellAt record place), ?_, ?_, ?_⟩
  · intro dimension b _
    have matched := Memory.matching_append_at matched led (path_of_mem_filterFor whole b)
    exact Memory.matching_of_perm (ComputedColumn.forBucket_filters_perm plain dimension b base c sides) matched
  · exact Parts.flatMap_filter_perm _ _ _
  · intro once
    exact Parts.flatMap_filter_perm_self once

namespace Flags

def flagged (flag : Value) : Record :=
  Keyed.ofList [("flag", flag)]

/-- Sales of no flag and of two flags. -/
def memory : Memory :=
  ((Memory.empty (.ofEntities [(Entity.new "sale").withField ⟨"flag", none, .text, none⟩])).insertAll "sale"
    [flagged .null, flagged (.text "a"), flagged (.text "b")]).1

def context : Context :=
  ⟨"sale", [], none, none, [], .none, none, none⟩

/-- The sales of no flag, those of the first flag and the rest. -/
def byFlag : Crosstab :=
  ⟨"flag", [.null, .text "a"], [], true⟩

def total : ComputedColumn :=
  ⟨.ofComputation Builtin.total, Builtin.total⟩

end Flags

/-- The sale of no flag is in the bucket of no flag and in the rest. -/
theorem Crosstab.unflagged_twice : Flags.byFlag.times .null = 2 ∧ Flags.byFlag.times (.text "b") = 1 ∧
    ∃ part : Bucket → List Record,
      (∀ b ∈ Flags.byFlag.buckets, Flags.memory.matching "sale"
        (((Flags.total.forBucket "flag" b).context Flags.context (some Flags.byFlag)).filtersOf Builtin.total) =
          .ok (part b)) ∧
      (Flags.byFlag.buckets.flatMap part).Perm (Flags.flagged .null :: (Flags.memory.tableOf "sale").rows.toList) := by
  have led : Flags.memory.schema.resolve Flags.context.entity Flags.byFlag.field =
      .ok ⟨"sale", "sale", ⟨"flag", none, .text, none⟩, []⟩ := rfl
  obtain ⟨times, parts⟩ := parts_of_buckets rfl rfl (by decide) led (show FieldKind.text.isDiscrete from rfl)
    (by decide) (by decide)
  obtain ⟨part, matched, perm, _⟩ := parts Flags.total [] (Flags.memory.tableOf "sale").rows.toList rfl rfl
  refine ⟨times (Flags.flagged .null) (by decide), times (Flags.flagged (.text "b")) (by decide), part, ?_, perm⟩
  intro b member
  have found := matched "flag" b member
  rw [List.append_nil] at found
  exact found

end Reporting
