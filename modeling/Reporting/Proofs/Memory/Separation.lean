import Reporting.Proofs.Crosstab

/-!
What groups keep apart. The key of a cell tells it from the other cells of its type just as filters do, but for points
in time: their keys are told to the second, so that two points within a second, which filters tell from one another, are
in one group (`Memory.groups_separate`, `Memory.halves_together`).
-/

namespace Reporting
open Calendar

namespace Value

/-- Two cells of one type: integers, texts, days or truth values, or points in time. -/
inductive Alike : Value → Value → Prop where
  | discrete {kind : FieldKind} {a b : Value} (ha : kind.Has a) (hb : kind.Has b) : Alike a b
  | dateTime (t u : DateTime) : Alike (.dateTime t) (.dateTime u)

/-- The cell without the fraction of a second. -/
def toSecond : Value → Value
  | dateTime t => dateTime t.toSecond
  | v => v

/-- Different points in time within the same second. -/
def Blurred (a b : Value) : Prop :=
  a ≠ b ∧ a.toSecond = b.toSecond

instance (a b : Value) : Decidable (a.Blurred b) :=
  inferInstanceAs (Decidable (_ ∧ _))

variable {a b : Value}

theorem toSecond_of_has {kind : FieldKind} (has : kind.Has a) : a.toSecond = a := by
  cases has <;> rfl

namespace Alike

theorem symm (alike : a.Alike b) : b.Alike a := by
  cases alike with
  | discrete ha hb => exact .discrete hb ha
  | dateTime t u => exact .dateTime u t

theorem ne_null (alike : a.Alike b) : a ≠ .null := by
  cases alike with
  | discrete ha hb => exact ha.ne_null
  | dateTime t u => nofun

/-- Filters tell cells of one type apart. -/
theorem looselyEquals_iff (alike : a.Alike b) : a.looselyEquals b = true ↔ a = b := by
  cases alike with
  | discrete ha hb =>
    rw [looselyEquals_of_holds ha.isDiscrete ha.holds hb.holds, or_iff_left (not_mistaken_of_has ha hb)]
  | dateTime t u =>
    simp only [looselyEquals, order?, dateTime?, beq_iff_eq, Option.some.injEq, dateTime.injEq]
    exact Std.LawfulEqCmp.compare_eq_iff_eq

/-- Keys tell them apart to the second. -/
theorem key_eq_iff_toSecond (alike : a.Alike b) : a.key = b.key ↔ a.toSecond = b.toSecond := by
  cases alike with
  | discrete ha hb =>
    rw [toSecond_of_has ha, toSecond_of_has hb, key_inj_of_holds ha.isDiscrete ha.holds hb.holds,
      or_iff_left (not_mistaken_of_has ha hb)]
  | dateTime t u =>
    rw [toSecond, toSecond, dateTime.injEq]
    exact DateTime.text_eq_iff

/-- The keys of equal cells are the same, and those of points in time within a second. -/
theorem key_eq_iff (alike : a.Alike b) : a.key = b.key ↔ a.looselyEquals b = true ∨ a.Blurred b := by
  rw [alike.looselyEquals_iff, alike.key_eq_iff_toSecond]
  constructor
  · intro same
    by_cases equal : a = b
    · exact Or.inl equal
    · exact Or.inr ⟨equal, same⟩
  · rintro (rfl | ⟨_, same⟩)
    · rfl
    · exact same

end Alike

theorem columnSuffix_eq_iff : (Bucket.id a).columnSuffix = (Bucket.id b).columnSuffix ↔ a.key = b.key :=
  ⟨fun same => (String.append_right_inj "CT").1 same, congrArg ("CT" ++ ·)⟩

end Value

namespace Memory
variable {m : Memory} {entity path : String} {filters : FilterSet} {place : ResolvedPath} {records : List Record}
  {a b : Value}

/-- An exact filter on a cell selects the records with a cell that equals it. -/
theorem matching_exact (other : a ≠ .null) (resolved : m.schema.resolve entity path = .ok place)
    (matched : m.matching entity filters = .ok records) : m.matching entity (filters ++ [.of path (.exact a)]) =
      .ok (records.filter fun record => (m.cellAt record place).looselyEquals a) := by
  rw [matching_append_at matched resolved (by simp [Predicate.of])]
  simp only [List.all_cons, List.all_nil, Bool.and_true, Predicate.accepts_exact other]

/-- Of cells of one type, two have the same key where an exact filter on the one selects the other, and where they are
points in time within a second, which the filter tells apart. So it is with the columns of a cross-tab by them, and with
the records of a group. A group without points in time that are told apart only within a second has the aggregate of the
records that an exact filter on its cell selects. -/
theorem groups_separate (alike : a.Alike b) :
    (a.key = b.key ↔ a.looselyEquals b = true ∨ a.Blurred b) ∧ (a.Blurred b → a.looselyEquals b = false) ∧
    (∀ c : Crosstab, (Bucket.id a).columnSuffix = (Bucket.id b).columnSuffix ↔ c.admits (.id b) a ∨ a.Blurred b) ∧
    ∀ (m : Memory) (entity path : String) (filters : FilterSet) (place : ResolvedPath) (records : List Record),
      m.schema.resolve entity path = .ok place → m.matching entity filters = .ok records →
      ∃ selected, m.matching entity (filters ++ [.of path (.exact b)]) = .ok selected ∧
        (∀ record ∈ records, m.cellAt record place = a →
          (record ∈ m.withKey place records b.key ↔ record ∈ selected ∨ a.Blurred b)) ∧
        ∀ method field target, m.schema.resolve entity field = .ok target →
          (∀ record ∈ records, (m.cellAt record place).Alike b ∧ ¬ (m.cellAt record place).Blurred b) →
          (∃ record ∈ records, m.cellAt record place = b) →
          ∃ groups, m.groupAggregate entity filters path ⟨method, field⟩ = .ok groups ∧
            m.aggregate entity (filters ++ [.of path (.exact b)]) ⟨method, field⟩ = .ok (groups.lookup b.key) := by
  refine ⟨alike.key_eq_iff, fun blurred => ?_, fun c => ?_, ?_⟩
  · rw [← Bool.not_eq_true, alike.looselyEquals_iff]
    exact blurred.1
  · rw [Value.columnSuffix_eq_iff, alike.key_eq_iff, Crosstab.admits_id, if_neg alike.symm.ne_null]
  intro m entity path filters place records resolved matched
  refine ⟨_, matching_exact alike.symm.ne_null resolved matched, ?_, ?_⟩
  · rintro record among rfl
    rw [withKey, List.mem_filter, List.mem_filter, decide_eq_true_iff, alike.key_eq_iff]
    simp [among]
  · rintro method field target reached apart ⟨record, among, same⟩
    have selects : m.withKey place records b.key =
        records.filter fun record => (m.cellAt record place).looselyEquals b := by
      refine List.filter_congr fun other among => ?_
      obtain ⟨alike, notBlurred⟩ := apart other among
      rw [Bool.eq_iff_iff, decide_eq_true_iff, alike.key_eq_iff, or_iff_left notBlurred]
    obtain ⟨groups, answered, _, _, lookup⟩ := groupAggregate_of_matching resolved
      (show m.schema.resolve entity (Aggregation.mk method field).field = .ok target from reached) matched
    refine ⟨groups, answered, aggregate_eq_ok_iff.2
      ⟨target, _, reached, matching_exact alike.symm.ne_null resolved matched, ?_⟩⟩
    rw [lookup, ← selects, if_neg]
    exact List.ne_nil_of_mem (List.mem_filter.2 ⟨among, by simp [same]⟩)

/-! ## Two halves of a second -/

namespace Halves

def visit : Entity :=
  (Entity.new "visit").withField ⟨"at", none, .dateTime, none⟩

/-- The first second of the last day of a year, after so many quarters of it. -/
def quarter (quarters : Fin 4) : DateTime :=
  ⟨⟨2024, 12, 31, by decide⟩, ⟨0, quarters * 250000000, by revert quarters; decide⟩⟩

def visitAt (quarters : Fin 4) : Record :=
  Keyed.ofList [("at", .dateTime (quarter quarters))]

/-- A visit after a quarter of the second and one after three quarters. -/
def memory : Memory where
  schema := .ofEntities [visit]
  tables := Keyed.ofList [("visit", [visitAt 1, visitAt 3].foldl (fun t record => t.insert "id" record) Table.empty)]

end Halves

/-- The visits are in one group, and a filter on the point in time of the second one selects just that one. -/
theorem halves_together : (Value.dateTime (Halves.quarter 1)).Blurred (.dateTime (Halves.quarter 3)) ∧
    (Value.dateTime (Halves.quarter 1)).looselyEquals (.dateTime (Halves.quarter 3)) = false ∧
    ∃ place selected, Halves.memory.matching "visit" [.of "at" (.exact (.dateTime (Halves.quarter 3)))] = .ok selected ∧
      selected = [Halves.visitAt 3] ∧
      Halves.visitAt 1 ∈ Halves.memory.withKey place [Halves.visitAt 1, Halves.visitAt 3]
        (Value.dateTime (Halves.quarter 3)).key := by
  have blurred : (Value.dateTime (Halves.quarter 1)).Blurred (.dateTime (Halves.quarter 3)) := by decide
  obtain ⟨_, apart, _, within⟩ := groups_separate (.dateTime (Halves.quarter 1) (Halves.quarter 3))
  obtain ⟨selected, matched, together, _⟩ := within Halves.memory "visit" "at" [] _ _ rfl rfl
  refine ⟨blurred, apart blurred, _, selected, matched, ?_, (together (Halves.visitAt 1) (by decide) rfl).2 (Or.inr blurred)⟩
  exact Except.ok.inj (matched.symm.trans rfl)

end Memory
end Reporting
