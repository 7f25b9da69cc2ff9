import Reporting.Proofs.Sql.Cell
import Reporting.Proofs.Sql.Compile

/-!
Tests of a database against the predicates that they are compiled from. A test is true just where the predicate accepts
the cell, unless a missing operand leaves it undecided or a missing cell is taken for the text that is its key
(`compilePredicate_true_iff`).
-/

namespace Reporting

namespace FieldKind
variable {kind : FieldKind} {v w : Value}

/-- Cells of a plain kind are equal for a filter if they compare as equal. -/
theorem Kept.looselyEquals_eq (plain : kind.isPlain) (hv : kind.Kept v) (hw : kind.Kept w) :
    v.looselyEquals w = (v.order? w == some .eq) := by
  cases hv with
  | integer i => cases hw; rfl
  | relation i => cases hw; rfl
  | boolean a => cases hw; rfl
  | text s =>
    cases hw with
    | text t =>
      rw [Bool.eq_iff_iff]
      simp [Value.looselyEquals, Value.order?]
  | _ => cases plain

theorem Kept.order?_eq_iff (plain : kind.isPlain) (hv : kind.Kept v) (hw : kind.Kept w) :
    v.order? w = some .eq ↔ v = w := by
  cases hv with
  | integer i => cases hw; simp [Value.order?, Int64.toInt_inj]
  | relation i => cases hw; simp [Value.order?, Int64.toInt_inj]
  | boolean a => cases hw; simp [Value.order?]
  | text s => cases hw; simp [Value.order?]
  | _ => cases plain

end FieldKind

namespace Condition
variable {kind : FieldKind} {v : Value}

/-- How the test compares the cell with its operands. -/
def comparison : Condition → Sql.Comparison
  | gt _ => .greater
  | gte _ => .atLeast
  | lt _ => .less
  | lte _ => .atMost
  | _ => .equal

/-- The test takes a missing operand for the text that is its key. -/
def TakesForNull (condition : Condition) (v : Value) : Prop :=
  ∃ operands, condition = .within operands ∧ .null ∈ operands ∧ v = .noneText

theorem looselyEquals_iff (plain : kind.isPlain) (hv : kind.Kept v) {w : Value} (hw : kind.Keeps w) :
    v.looselyEquals w = true ↔ (v.order? w).map Sql.Comparison.equal.holds = some true ∨ w = .null ∧ v = .noneText := by
  rcases hw with rfl | hw
  · have undecided : v.order? .null = none := by cases v <;> rfl
    rw [Value.looselyEquals_null_right, or_iff_right hv.ne_null, undecided]
    simp
  · rw [hv.looselyEquals_eq plain hw, or_iff_left fun missing => hw.ne_null missing.1, beq_iff_eq, Option.map_eq_some_iff]
    simp [Sql.Comparison.holds]

/-- A cell that is there passes if it compares as asked with one of the operands. -/
theorem accepts_iff (plain : kind.isPlain) (hv : kind.Kept v) {condition : Condition} (asks : condition.isNullTest = false)
    (typed : ∀ w ∈ condition.operands, kind.Keeps w) : condition.accepts v = true ↔
      (∃ w ∈ condition.operands, (v.order? w).map condition.comparison.holds = some true) ∨ condition.TakesForNull v := by
  cases condition with
  | exact w =>
    have present : w ≠ .null := by
      rintro rfl
      cases asks
    have equal : (exact w).accepts v = v.looselyEquals w := by cases w <;> simp_all [accepts]
    rw [equal, looselyEquals_iff plain hv (typed w (List.mem_singleton_self w)), or_iff_left fun missing => present missing.1]
    simp [operands, comparison, TakesForNull]
  | within ws =>
    have there : v.isNull = false := by cases hv <;> rfl
    simp only [accepts, there, Bool.not_false, Bool.true_and, List.any_eq_true, operands, comparison, TakesForNull,
      within.injEq, exists_eq_left']
    constructor
    · rintro ⟨w, member, equal⟩
      rcases (looselyEquals_iff plain hv (typed w member)).1 equal with same | ⟨rfl, named⟩
      · exact Or.inl ⟨w, member, same⟩
      · exact Or.inr ⟨member, named⟩
    · rintro (⟨w, member, same⟩ | ⟨member, named⟩)
      · exact ⟨w, member, (looselyEquals_iff plain hv (typed w member)).2 (Or.inl same)⟩
      · exact ⟨.null, member, (looselyEquals_iff plain hv (Or.inl rfl)).2 (Or.inr ⟨rfl, named⟩)⟩
  | isNull expected => cases asks
  | _ =>
    rename_i w
    simp only [accepts, operands, comparison, TakesForNull, List.mem_singleton, exists_eq_left, reduceCtorEq, false_and,
      exists_false, or_false]
    cases v.order? w with
    | none => simp
    | some o => cases o <;> simp [Sql.Comparison.holds]

/-- A missing cell passes no comparison but that with the text that is its key. -/
theorem accepts_null_iff {condition : Condition} (asks : condition.isNullTest = false) :
    condition.accepts .null = true ↔ condition = .exact .noneText := by
  cases condition with
  | exact w =>
    have present : w ≠ .null := by
      rintro rfl
      cases asks
    have equal : (exact w).accepts .null = Value.looselyEquals .null w := by cases w <;> simp_all [accepts]
    rw [equal, Value.looselyEquals_null_left, or_iff_right present, exact.injEq]
  | isNull expected => cases asks
  | _ => simp [accepts, Value.isNull, Value.order?]

end Condition

namespace Predicate
variable {p : Predicate} {v : Value}

/-- A database and the predicate do not agree on the cell: a missing cell is taken for the text that is its key, or the
other way around, or a missing operand leaves a negated test undecided that no operand passes. -/
inductive Disputed (p : Predicate) : Value → Prop where
  | absent (named : p.condition = .exact .noneText) : Disputed p .null
  | named (plain : p.negated = false) (operands : List Value) (list : p.condition = .within operands)
      (missing : .null ∈ operands) (other : .noneText ∉ operands) : Disputed p .noneText
  | undecided (negated : p.negated = true) {v : Value} (present : v ≠ .null) (asks : p.condition.isNullTest = false)
      (missing : .null ∈ p.condition.operands) (rejected : p.condition.accepts v = false) : Disputed p v

end Predicate

namespace Sql
open FieldKind
variable {kind : FieldKind} {v w : Value}

/-- The operand that a column of the kind is when it keeps the value. -/
def keptOperand (kind : FieldKind) (v : Value) : Operand :=
  ⟨stored kind v, .ofKind kind⟩

/-- The cell is compared in the database as the value is by a filter. -/
theorem order?_eq_order (plain : kind.isPlain) (hv : kind.Kept v) (hw : kind.Kept w) : v.order? w =
    some (((stored kind v).adapt (.ofKind kind)).order ((encode kind w).adapt (.ofKind kind))) := by
  cases hv with
  | integer i => cases hw; rfl
  | relation i => cases hw; rfl
  | boolean a =>
    cases hw with
    | boolean b => cases a <;> cases b <;> rfl
  | text s => cases hw; rfl
  | _ => cases plain

theorem compareOperand_eq (plain : kind.isPlain) (hv : kind.Keeps v) (hw : kind.Keeps w) (comparison : Comparison) :
    compareOperand (keptOperand kind v) comparison (encode kind w) = (v.order? w).map comparison.holds := by
  rcases hv with rfl | hv
  · unfold compareOperand keptOperand
    rw [stored_null]
    rfl
  rcases hw with rfl | hw
  · have missing : v.order? .null = none := by cases v <;> rfl
    have undecided : (encode kind .null).isNull = true := rfl
    unfold compareOperand
    rw [undecided, Bool.or_true, missing]
    rfl
  · have present : ((stored kind v).isNull || (encode kind w).isNull) = false := by
      cases hv with
      | integer i => cases hw; rfl
      | relation i => cases hw; rfl
      | boolean a => cases hw; rfl
      | text s => cases hw; rfl
      | _ => cases plain
    rw [order?_eq_order plain hv hw]
    unfold compareOperand keptOperand
    dsimp only
    rw [present]
    rfl

/-! ## Truth of tests -/

theorem Truth.not_eq_true_iff {a : Truth} : a.not = some true ↔ a = some false := by
  cases a with
  | none => simp [Truth.not]
  | some b => simp [Truth.not]

theorem Truth.or_eq_true_iff {a b : Truth} : a.or b = some true ↔ a = some true ∨ b = some true := by
  rcases a with _ | _ | _ <;> rcases b with _ | _ | _ <;> simp [Truth.or]

theorem Truth.or_eq_false_iff {a b : Truth} : a.or b = some false ↔ a = some false ∧ b = some false := by
  rcases a with _ | _ | _ <;> rcases b with _ | _ | _ <;> simp [Truth.or]

section Among
variable {left : Operand}

theorem among_eq_true_iff {cells : List Cell} :
    among left cells = some true ↔ ∃ c ∈ cells, compareOperand left .equal c = some true := by
  have from_ : ∀ truth : Truth, cells.foldl (fun truth c => truth.or (compareOperand left .equal c)) truth = some true ↔
      truth = some true ∨ ∃ c ∈ cells, compareOperand left .equal c = some true := by
    induction cells with
    | nil => simp
    | cons c rest ih =>
      intro truth
      rw [List.foldl_cons, ih, Truth.or_eq_true_iff, or_assoc, List.exists_mem_cons_iff]
  exact (from_ _).trans (by simp)

theorem among_eq_false_iff {cells : List Cell} :
    among left cells = some false ↔ ∀ c ∈ cells, compareOperand left .equal c = some false := by
  have from_ : ∀ truth : Truth, cells.foldl (fun truth c => truth.or (compareOperand left .equal c)) truth = some false ↔
      truth = some false ∧ ∀ c ∈ cells, compareOperand left .equal c = some false := by
    induction cells with
    | nil => simp
    | cons c rest ih =>
      intro truth
      rw [List.foldl_cons, ih, Truth.or_eq_false_iff, and_assoc, List.forall_mem_cons]
  exact (from_ _).trans (by simp)

end Among

section Conditions
variable {c : Column} {cellAt : Column → Operand} {condition : Condition}

theorem eval_testOf_true_iff (asks : condition.isNullTest = false) : (testOf c kind condition).eval cellAt = some true ↔
    ∃ w ∈ condition.operands, compareOperand (cellAt c) condition.comparison (encode kind w) = some true := by
  cases condition with
  | exact w =>
    cases w with
    | null => cases asks
    | _ => simp [testOf, Test.eval, Condition.operands, Condition.comparison]
  | within ws =>
    cases ws with
    | nil => simp [testOf, Test.eval, Condition.operands]
    | cons w ws =>
      refine among_eq_true_iff.trans ?_
      simp only [List.mem_map, exists_exists_and_eq_and]
      rfl
  | isNull expected => cases asks
  | _ => simp [testOf, Test.eval, Condition.operands, Condition.comparison]

theorem eval_testOf_false_iff (asks : condition.isNullTest = false) : (testOf c kind condition).eval cellAt = some false ↔
    ∀ w ∈ condition.operands, compareOperand (cellAt c) condition.comparison (encode kind w) = some false := by
  cases condition with
  | exact w =>
    cases w with
    | null => cases asks
    | _ => simp [testOf, Test.eval, Condition.operands, Condition.comparison]
  | within ws =>
    cases ws with
    | nil => simp [testOf, Test.eval, Condition.operands]
    | cons w ws =>
      refine among_eq_false_iff.trans ?_
      simp only [List.forall_mem_map]
      rfl
  | isNull expected => cases asks
  | _ => simp [testOf, Test.eval, Condition.operands, Condition.comparison]

end Conditions

/-! ## Tests of predicates -/

section Predicates
variable {p : Predicate}

theorem truthOf_of_negated (negated : p.negated = true) (asks : p.condition.isNullTest = false) {x : Operand} :
    truthOf p kind x =
      Truth.or (some x.cell.isNull) (Truth.not ((testOf rowNumber kind p.condition).eval fun _ => x)) := by
  unfold truthOf predicateTest
  rw [negated, asks]
  simp [Test.eval]

theorem truthOf_of_plain (plain : p.negated = false) {x : Operand} :
    truthOf p kind x = (testOf rowNumber kind p.condition).eval fun _ => x := by
  unfold truthOf predicateTest
  rw [plain]
  rfl

theorem truthOf_of_isNullTest (asks : p.condition.isNullTest = true) (hv : kind.Keeps v) :
    truthOf p kind (keptOperand kind v) = some (p.accepts v) := by
  have test : (testOf rowNumber kind p.condition).eval (fun _ => keptOperand kind v) = some (p.condition.accepts v) := by
    cases condition : p.condition with
    | exact w =>
      cases w with
      | null => exact congrArg some (isNull_stored hv)
      | _ => simp [condition, Condition.isNullTest] at asks
    | isNull expected =>
      have same : (keptOperand kind v).cell.isNull = v.isNull := isNull_stored hv
      cases expected <;> simp [testOf, Test.eval, Condition.accepts, same]
    | _ => simp [condition, Condition.isNullTest] at asks
  unfold truthOf predicateTest Predicate.accepts
  rw [asks]
  cases p.negated with
  | false =>
    rw [Bool.bne_false]
    exact test
  | true =>
    rw [Bool.bne_true]
    exact congrArg Truth.not test

/-- Of a missing cell. -/
theorem truthOf_null_iff (asks : p.condition.isNullTest = false) :
    truthOf p kind (keptOperand kind .null) = some true ↔ p.negated = true := by
  have missing : (keptOperand kind .null).cell = .null := stored_null kind
  cases negated : p.negated with
  | true =>
    rw [truthOf_of_negated negated asks, Truth.or_eq_true_iff, missing]
    simp [Cell.isNull]
  | false =>
    rw [truthOf_of_plain negated, eval_testOf_true_iff asks]
    simp [compareOperand, missing, Cell.isNull]

theorem agrees_null_iff (asks : p.condition.isNullTest = false) :
    (truthOf p kind (keptOperand kind .null) = some true ↔ p.accepts .null = true) ↔ ¬ p.Disputed .null := by
  have disputed : p.Disputed .null ↔ p.condition.accepts .null = true := by
    rw [Condition.accepts_null_iff asks]
    constructor
    · intro disputed
      cases disputed with
      | absent named => exact named
      | undecided _ present => exact absurd rfl present
    · exact .absent
  rw [truthOf_null_iff asks, disputed]
  unfold Predicate.accepts
  cases p.negated <;> cases p.condition.accepts .null <;> simp

/-- Of a cell that is there, for a test that is not negated. -/
theorem agrees_plain_iff (plain : kind.isPlain) (hv : kind.Kept v) (asks : p.condition.isNullTest = false)
    (typed : ∀ w ∈ p.condition.operands, kind.Keeps w) (negated : p.negated = false) :
    (truthOf p kind (keptOperand kind v) = some true ↔ p.accepts v = true) ↔ ¬ p.Disputed v := by
  have compared : truthOf p kind (keptOperand kind v) = some true ↔
      ∃ w ∈ p.condition.operands, (v.order? w).map p.condition.comparison.holds = some true := by
    rw [truthOf_of_plain negated, eval_testOf_true_iff asks]
    refine exists_congr fun w => and_congr_right fun member => ?_
    rw [compareOperand_eq plain (Or.inr hv) (typed w member)]
  have accepted : p.accepts v = p.condition.accepts v := by
    unfold Predicate.accepts
    rw [negated, Bool.bne_false]
  have disputed : p.Disputed v ↔ p.condition.TakesForNull v ∧ .noneText ∉ p.condition.operands := by
    constructor
    · intro disputed
      cases disputed with
      | absent _ => exact absurd rfl hv.ne_null
      | named _ operands list missing other =>
        refine ⟨⟨operands, list, missing, rfl⟩, ?_⟩
        rw [list]
        exact other
      | undecided negated' => simp [negated] at negated'
    · rintro ⟨⟨operands, list, missing, rfl⟩, other⟩
      rw [list] at other
      exact .named negated operands list missing other
  rw [compared, accepted, Condition.accepts_iff plain hv asks typed, disputed]
  constructor
  · rintro agree ⟨taken, other⟩
    obtain ⟨operands, list, missing, rfl⟩ := id taken
    obtain ⟨w, member, same⟩ := agree.2 (Or.inr taken)
    -- A cell that compares as equal with the text is the text, which is not among the operands.
    obtain ⟨o, order, holds⟩ := Option.map_eq_some_iff.1 same
    have equal : o = .eq := by simpa [list, Condition.comparison, Comparison.holds] using holds
    rcases typed w member with rfl | kept
    · cases order
    · have named := (hv.order?_eq_iff plain kept).1 (order.trans (congrArg some equal))
      exact other (named ▸ member)
  · refine fun agreed => ⟨Or.inl, fun either => either.elim id fun taken => ?_⟩
    obtain ⟨operands, list, missing, rfl⟩ := id taken
    have member : .noneText ∈ p.condition.operands := by
      by_contra other
      exact agreed ⟨taken, other⟩
    refine ⟨_, member, ?_⟩
    rw [(hv.order?_eq_iff plain hv).2 rfl, list]
    rfl

/-- Of a cell that is there, for a negated test. -/
theorem agrees_negated_iff (plain : kind.isPlain) (hv : kind.Kept v) (asks : p.condition.isNullTest = false)
    (typed : ∀ w ∈ p.condition.operands, kind.Keeps w) (negated : p.negated = true) :
    (truthOf p kind (keptOperand kind v) = some true ↔ p.accepts v = true) ↔ ¬ p.Disputed v := by
  have present : v.isNull = false := by cases hv <;> rfl
  have compared : truthOf p kind (keptOperand kind v) = some true ↔
      ∀ w ∈ p.condition.operands, (v.order? w).map p.condition.comparison.holds = some false := by
    have there : (keptOperand kind v).cell.isNull = false := (isNull_stored (Or.inr hv)).trans present
    rw [truthOf_of_negated negated asks, Truth.or_eq_true_iff, Truth.not_eq_true_iff, eval_testOf_false_iff asks, there]
    simp only [Option.some.injEq, Bool.false_eq_true, false_or]
    refine forall₂_congr fun w member => ?_
    rw [compareOperand_eq plain (Or.inr hv) (typed w member)]
  have accepted : p.accepts v = true ↔ p.condition.accepts v = false := by
    unfold Predicate.accepts
    rw [negated, Bool.bne_true, Bool.not_eq_true']
  have disputed : p.Disputed v ↔ .null ∈ p.condition.operands ∧ p.condition.accepts v = false := by
    constructor
    · intro disputed
      cases disputed with
      | absent _ => exact absurd rfl hv.ne_null
      | named plain' => simp [negated] at plain'
      | undecided _ _ _ missing rejected => exact ⟨missing, rejected⟩
    · rintro ⟨missing, rejected⟩
      exact .undecided negated hv.ne_null asks missing rejected
  rw [compared, accepted, disputed]
  by_cases missing : .null ∈ p.condition.operands
  · -- The missing operand is not decided on.
    have undecided : ¬ ∀ w ∈ p.condition.operands, (v.order? w).map p.condition.comparison.holds = some false := by
      intro decided
      have nothing : v.order? .null = none := by cases v <;> rfl
      have false_ := decided .null missing
      rw [nothing] at false_
      cases false_
    rw [iff_false_left undecided, and_iff_right missing]
  · have rejected : p.condition.accepts v = false ↔
        ∀ w ∈ p.condition.operands, (v.order? w).map p.condition.comparison.holds = some false := by
      rw [← Bool.not_eq_true, Condition.accepts_iff plain hv asks typed, not_or, and_iff_left]
      · simp only [not_exists, not_and]
        refine forall₂_congr fun w member => ?_
        rcases typed w member with rfl | kept
        · exact absurd member missing
        · rw [order?_eq_order plain hv kept]
          simp
      · rintro ⟨operands, list, inside, _⟩
        rw [list] at missing
        exact missing inside
    rw [rejected]
    simp [missing]

/-- Whether the test is true of the cell just if the predicate accepts it. -/
theorem agrees_iff (plain : kind.isPlain) (hv : kind.Keeps v)
    (typed : p.condition.isNullTest = true ∨ ∀ w ∈ p.condition.operands, kind.Keeps w) :
    (truthOf p kind (keptOperand kind v) = some true ↔ p.accepts v = true) ↔ ¬ p.Disputed v := by
  cases asks : p.condition.isNullTest with
  | true =>
    have agreed : ¬ p.Disputed v := by
      intro disputed
      cases disputed with
      | absent named => simp [named, Condition.isNullTest, Value.noneText] at asks
      | named _ operands list => simp [list, Condition.isNullTest] at asks
      | undecided _ _ asks' => simp [asks] at asks'
    simp [truthOf_of_isNullTest asks hv, agreed]
  | false =>
    have typed := typed.resolve_left (by simp [asks])
    rcases hv with rfl | hv
    · exact agrees_null_iff asks
    cases negated : p.negated with
    | false => exact agrees_plain_iff plain hv asks typed negated
    | true => exact agrees_negated_iff plain hv asks typed negated

end Predicates

/-- A predicate of integers, texts, truth values or relations has a test, which is true of a cell just if the predicate
accepts it, but where the two are disputed. -/
theorem compilePredicate_true_iff {schema : Schema} {entity : Entity} (known : schema.entity entity.name = .ok entity)
    {p : Predicate} {place : ResolvedPath} (resolved : schema.resolve entity.name p.path = .ok place)
    (plain : place.field.kind.isPlain)
    (typed : p.condition.isNullTest = true ∨ ∀ w ∈ p.condition.operands, place.field.kind.Keeps w) (j : Joins) :
    ∃ test table j', columnAt schema entity p.path j = .ok ((⟨table, place.field.name⟩, place.field.kind), j') ∧
      compilePredicate schema entity p j = .ok (test, j') ∧
      ∀ (cellAt : Column → Operand) (v : Value), place.field.kind.Keeps v →
        cellAt ⟨table, place.field.name⟩ = keptOperand place.field.kind v →
        ((test.eval cellAt = some true ↔ p.accepts v = true) ↔ ¬ p.Disputed v) := by
  obtain ⟨table, j', column⟩ := columnAt_of_resolve known resolved j
  refine ⟨_, table, j', column, run_bind_eq_ok_iff.2 ⟨_, j', column, rfl⟩, fun cellAt v hv cell => ?_⟩
  rw [eval_predicateTest, cell]
  exact agrees_iff plain hv typed

namespace Items

def entity : Entity :=
  (Entity.new "item").withField ⟨"n", none, .integer, none⟩

/-- The items whose number is neither one nor none. -/
def others : Predicate :=
  (Predicate.of "n" (.within [.int 1, .null])).negate

end Items

/-- The number five is neither one nor none, but the test of a database is not true of it. -/
theorem others_undecided : ∃ test j',
    compilePredicate (.ofEntities [Items.entity]) Items.entity Items.others Joins.none = .ok (test, j') ∧
      Items.others.accepts (.int 5) = true ∧ test.eval (fun _ => keptOperand .integer (.int 5)) ≠ some true := by
  have typed : ∀ w ∈ Items.others.condition.operands, FieldKind.integer.Keeps w := by
    intro w member
    simp only [Items.others, Predicate.of, Predicate.negate, Condition.operands, List.mem_cons, List.not_mem_nil,
      or_false] at member
    rcases member with rfl | rfl
    · exact Or.inr (.integer 1)
    · exact Or.inl rfl
  have resolved : (Schema.ofEntities [Items.entity]).resolve Items.entity.name Items.others.path =
      .ok ⟨"item", "item", ⟨"n", none, .integer, none⟩, []⟩ := rfl
  obtain ⟨test, _, j', _, compiled, agree⟩ :=
    compilePredicate_true_iff rfl resolved rfl (Or.inr typed) Joins.none
  have accepted : Items.others.accepts (.int 5) = true := by decide
  have disputed : Items.others.Disputed (.int 5) := .undecided rfl (by decide) rfl (by decide) (by decide)
  have differ := mt (agree (fun _ => keptOperand .integer (.int 5)) (.int 5) (Or.inr (.integer 5)) rfl).1
    (not_not_intro disputed)
  refine ⟨test, j', compiled, accepted, fun true_ => differ ?_⟩
  exact iff_of_true true_ accepted

end Sql
end Reporting
