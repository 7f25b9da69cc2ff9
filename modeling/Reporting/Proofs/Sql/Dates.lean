import Reporting.Proofs.Calendar.Sorting
import Reporting.Proofs.Order
import Reporting.Proofs.Sql.Tests

/-!
Days and points in time in a database. It keeps them as texts of two lengths, a bare day among them, and compares the
texts. For whole seconds of the years 0 to 9999 the texts compare as the points in time do (`Sql.compare_storedChars`), so
a test of such a column is true of just the cells that the predicate accepts (`Sql.compilePredicate_of_dated`).
-/

namespace Reporting
open Calendar

/-! ## Days and points in time as cells -/

namespace Value

/-- The cell is a day or a whole second of the years 0 to 9999. -/
inductive IsDated : Value → Prop where
  | date {d : Date} (common : d.IsCommon) : IsDated (.date d)
  | dateTime {t : DateTime} (common : t.IsCommon) : IsDated (.dateTime t)

variable {v w : Value} {t u : DateTime}

theorem IsDated.dateTime? (dated : v.IsDated) : ∃ t, v.dateTime? = some t ∧ t.IsCommon := by
  cases dated with
  | date common => exact ⟨_, rfl, common, rfl⟩
  | dateTime common => exact ⟨_, rfl, common⟩

theorem IsDated.isNull_eq_false (dated : v.IsDated) : v.isNull = false := by
  cases dated <;> rfl

theorem IsDated.looselyEquals_eq (hv : v.IsDated) (hw : w.IsDated) : v.looselyEquals w = (v.order? w == some .eq) := by
  cases hv <;> cases hw <;> rfl

end Value

namespace Condition
variable {condition : Condition} {v : Value}

/-- A day or a point in time passes if it compares as asked with one of the operands. -/
theorem accepts_iff_of_dated (hv : v.IsDated) (typed : ∀ w ∈ condition.operands, w.IsDated) : condition.accepts v = true ↔
    ∃ w ∈ condition.operands, (v.order? w).map condition.comparison.holds = some true := by
  cases condition with
  | exact w =>
    have dated := typed w (List.mem_singleton_self w)
    have equal : (exact w).accepts v = (v.order? w == some .eq) := by
      rw [← hv.looselyEquals_eq dated]
      cases dated <;> rfl
    rw [equal]
    simp [operands, comparison, Sql.Comparison.holds]
  | within ws =>
    simp only [accepts, hv.isNull_eq_false, Bool.not_false, Bool.true_and, List.any_eq_true, operands, comparison]
    refine exists_congr fun w => and_congr_right fun member => ?_
    rw [hv.looselyEquals_eq (typed w member)]
    simp [Sql.Comparison.holds]
  | isNull expected => cases typed _ (List.mem_singleton_self _)
  | _ =>
    rename_i w
    simp only [accepts, operands, comparison, List.mem_singleton, exists_eq_left]
    cases v.order? w with
    | none => simp
    | some o => cases o <;> simp [Sql.Comparison.holds]

theorem isNullTest_of_dated (typed : ∀ w ∈ condition.operands, w.IsDated) : condition.isNullTest = false := by
  cases condition with
  | exact w => cases typed w (List.mem_singleton_self w) <;> rfl
  | isNull expected => cases typed _ (List.mem_singleton_self _)
  | _ => rfl

end Condition

namespace Sql
open FieldKind Text
variable {kind : FieldKind} {v w : Value} {t u : DateTime}

/-! ## The texts that are kept -/

/-- What the database keeps of a point in time: only the day if the column is one of days and the time is midnight. -/
def storedChars (kind : FieldKind) (t : DateTime) : List Char :=
  t.date.chars ['-'] ++ if kind = .date ∧ t.time = Time.midnight then [] else ' ' :: t.time.chars

theorem encode_eq_of_dateTime? (dates : kind = .date ∨ kind = .dateTime) (hv : v.dateTime? = some t) :
    encode kind v = .text (String.ofList (storedChars kind t)) := by
  unfold storedChars
  cases v with
  | date d =>
    cases hv
    rcases dates with rfl | rfl
    · simp [encode, DateTime.atMidnight, Date.text]
    · simp [encode, DateTime.atMidnight, DateTime.text, DateTime.chars]
  | dateTime t =>
    cases hv
    by_cases bare : kind = .date ∧ t.time = Time.midnight
    · simp [encode, bare, Date.text]
    · rw [if_neg bare, encode, if_neg bare]
      rfl
  | _ => cases hv

theorem isAscii_storedChars (common : t.IsCommon) : IsAscii (storedChars kind t) := by
  refine (Date.isAscii_chars common.1).append ?_
  split
  · exact nofun
  · exact .cons (by decide) (Time.isAscii_chars _)

/-- The texts compare as the points in time do, also where one begins with the other. -/
theorem compare_storedChars (ht : t.IsCommon) (hu : u.IsCommon) :
    compare (storedChars kind t) (storedChars kind u) = t.order u := by
  unfold storedChars DateTime.order
  rw [compare_append (by rw [Date.length_chars ht.1, Date.length_chars hu.1]), Date.compare_chars ht.1 hu.1]
  congr 1
  -- On one day the texts go on or end. Only midnight's ends, so it sorts first, as midnight does.
  split
  · rename_i bareT
    rw [bareT.2]
    split
    · rename_i bareU
      rw [bareU.2]
      rfl
    · rename_i timed
      exact (Time.compare_midnight_left fun same => timed ⟨bareT.1, same⟩).symm
  · rename_i timed
    split
    · rename_i bareU
      rw [bareU.2]
      exact (Time.compare_midnight_right fun same => timed ⟨bareU.1, same⟩).symm
    · rw [List.compare_cons_cons, Time.compare_chars ht.2 hu.2]
      simp

/-- The bytes sort as the points in time, and so do the cells. -/
theorem encode_of_dated (dates : kind = .date ∨ kind = .dateTime) (hv : v.IsDated) (hw : w.IsDated) :
    ∃ s t, encode kind v = .text s ∧ encode kind w = .text t ∧ v.order? w = some (compare (bytes s) (bytes t)) ∧
      v.order? w = some (compare s t) := by
  obtain ⟨t, atT, commonT⟩ := hv.dateTime?
  obtain ⟨u, atU, commonU⟩ := hw.dateTime?
  have order : compare (storedChars kind t) (storedChars kind u) = t.order u := compare_storedChars commonT commonU
  refine ⟨_, _, encode_eq_of_dateTime? dates atT, encode_eq_of_dateTime? dates atU, ?_, ?_⟩
  · rw [Value.order?_eq_of_dateTime? atT atU, compare_bytes (isAscii_storedChars commonT) (isAscii_storedChars commonU), order]
  · rw [Value.order?_eq_of_dateTime? atT atU, Text.compare_eq, String.toList_ofList, String.toList_ofList, order]

/-! ## Tests of columns of days and points in time -/

theorem ofKind_of_dates (dates : kind = .date ∨ kind = .dateTime) : Affinity.ofKind kind = .text := by
  rcases dates with rfl | rfl <;> rfl

theorem stored_of_encode (dates : kind = .date ∨ kind = .dateTime) {s : String} (text : encode kind v = .text s) :
    stored kind v = .text s := by
  unfold stored
  rw [text, ofKind_of_dates dates]
  rfl

theorem compareOperand_of_dated (dates : kind = .date ∨ kind = .dateTime) (hv : v.IsDated) (hw : w.IsDated)
    (comparison : Comparison) :
    compareOperand (keptOperand kind v) comparison (encode kind w) = (v.order? w).map comparison.holds := by
  obtain ⟨s, t, encodeV, encodeW, _, order⟩ := encode_of_dated dates hv hw
  unfold compareOperand keptOperand
  rw [order, stored_of_encode dates encodeV, encodeW, ofKind_of_dates dates]
  rfl

theorem eval_testOf_of_dated (dates : kind = .date ∨ kind = .dateTime) {condition : Condition}
    (typed : ∀ w ∈ condition.operands, w.IsDated) (hv : v.IsDated) (c : Column) :
    (testOf c kind condition).eval (fun _ => keptOperand kind v) = some (condition.accepts v) := by
  have asks := Condition.isNullTest_of_dated typed
  have compared : ∀ w ∈ condition.operands, ∀ b, compareOperand (keptOperand kind v) condition.comparison (encode kind w) =
      some b ↔ (v.order? w).map condition.comparison.holds = some b := by
    intro w member b
    rw [compareOperand_of_dated dates hv (typed w member)]
  cases accepted : condition.accepts v with
  | true =>
    rw [eval_testOf_true_iff asks]
    obtain ⟨w, member, holds⟩ := (Condition.accepts_iff_of_dated hv typed).1 accepted
    exact ⟨w, member, (compared w member true).2 holds⟩
  | false =>
    rw [eval_testOf_false_iff asks]
    intro w member
    obtain ⟨s, t, _, _, _, order⟩ := encode_of_dated dates hv (typed w member)
    rw [compared w member, order, Option.map_some, Option.some.injEq, ← Bool.not_eq_true]
    intro holds
    have passes := (Condition.accepts_iff_of_dated hv typed).2 ⟨w, member, by rw [order, Option.map_some, holds]⟩
    rw [accepted] at passes
    cases passes

theorem truthOf_of_dated (dates : kind = .date ∨ kind = .dateTime) {p : Predicate}
    (typed : ∀ w ∈ p.condition.operands, w.IsDated) (hv : v.IsDated) :
    truthOf p kind (keptOperand kind v) = some (p.accepts v) := by
  have test := eval_testOf_of_dated dates typed hv rowNumber
  unfold Predicate.accepts
  cases negated : p.negated with
  | false => rw [truthOf_of_plain negated, test, Bool.bne_false]
  | true =>
    obtain ⟨s, _, encodeV, _⟩ := encode_of_dated dates hv hv
    have there : (keptOperand kind v).cell.isNull = false := by
      rw [keptOperand, stored_of_encode dates encodeV]
      rfl
    rw [truthOf_of_negated negated (Condition.isNullTest_of_dated typed), test, there, Bool.bne_true]
    cases p.condition.accepts v <;> rfl

/-- Cells that are days or whole seconds of the years 0 to 9999 are kept as texts whose bytes sort as the cells do, and a
predicate of a column of days or points in time has a test that is true of just those cells that the predicate accepts
and false of the others. -/
theorem compilePredicate_of_dated {schema : Schema} {entity : Entity} (known : schema.entity entity.name = .ok entity)
    {p : Predicate} {place : ResolvedPath} (resolved : schema.resolve entity.name p.path = .ok place)
    (dates : place.field.kind = .date ∨ place.field.kind = .dateTime) (typed : ∀ w ∈ p.condition.operands, w.IsDated)
    (j : Joins) :
    (∀ v w : Value, v.IsDated → w.IsDated → ∃ s t, encode place.field.kind v = .text s ∧ encode place.field.kind w = .text t ∧
      v.order? w = some (compare (bytes s) (bytes t))) ∧
    ∃ test table j', columnAt schema entity p.path j = .ok ((⟨table, place.field.name⟩, place.field.kind), j') ∧
      compilePredicate schema entity p j = .ok (test, j') ∧
      ∀ (cellAt : Column → Operand) (v : Value), v.IsDated →
        cellAt ⟨table, place.field.name⟩ = keptOperand place.field.kind v → test.eval cellAt = some (p.accepts v) := by
  constructor
  · intro v w hv hw
    obtain ⟨s, t, encodeV, encodeW, sorted, _⟩ := encode_of_dated dates hv hw
    exact ⟨s, t, encodeV, encodeW, sorted⟩
  obtain ⟨table, j', column⟩ := columnAt_of_resolve known resolved j
  refine ⟨_, table, j', column, run_bind_eq_ok_iff.2 ⟨_, j', column, rfl⟩, fun cellAt v hv cell => ?_⟩
  rw [eval_predicateTest, cell]
  exact truthOf_of_dated dates typed hv

namespace Shifts

def entity : Entity :=
  (Entity.new "shift").withField ⟨"begin", none, .date, none⟩

def newYear : Date :=
  ⟨2020, 1, 1, by decide⟩

def morning : DateTime :=
  ⟨newYear, 28800, 0, by decide⟩

/-- The shifts that begin before that morning. -/
def early : Predicate :=
  .of "begin" (.lt (.dateTime morning))

end Shifts

/-- The day comes before its morning, whose text begins with that of the day. -/
theorem early_compiled : ∃ test j',
    compilePredicate (.ofEntities [Shifts.entity]) Shifts.entity Shifts.early Joins.none = .ok (test, j') ∧
      test.eval (fun _ => keptOperand .date (.date Shifts.newYear)) = some true ∧
      test.eval (fun _ => keptOperand .date (.dateTime Shifts.morning)) = some false := by
  have day : Shifts.newYear.IsCommon := ⟨by decide, by decide⟩
  have resolved : (Schema.ofEntities [Shifts.entity]).resolve Shifts.entity.name Shifts.early.path =
      .ok ⟨"shift", "shift", ⟨"begin", none, .date, none⟩, []⟩ := rfl
  have typed : ∀ w ∈ Shifts.early.condition.operands, w.IsDated := List.forall_mem_singleton.2 (.dateTime ⟨day, rfl⟩)
  obtain ⟨-, test, _, j', _, compiled, agree⟩ :=
    compilePredicate_of_dated rfl resolved (Or.inl rfl) typed Joins.none
  refine ⟨test, j', compiled, ?_, ?_⟩
  · rw [agree _ _ (.date day) rfl]
    decide
  · rw [agree _ _ (.dateTime ⟨day, rfl⟩) rfl]
    decide

end Sql
end Reporting
