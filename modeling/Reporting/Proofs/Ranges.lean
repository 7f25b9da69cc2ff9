import Reporting.Filter
import Reporting.Proofs.Decimal.ReadBack

/-!
Ranges and equality. A cell is on at most one side of an operand or equal to it, and at or beyond it just if it is beyond
it or equal to it, unless one of the two is a text that equality and the order take for different numbers
(`Condition.ranges_agree`).
-/

namespace Reporting
open Calendar

namespace Value

def isText : Value → Bool
  | text _ => true
  | _ => false

/-- The cell is a number that its key is read as. -/
def isNumber : Value → Bool
  | int _ => true
  | float x => !x.isNaN
  | _ => false

/-- A cell that is no text compares with its own key, as a text, just if it is a number. -/
theorem order?_key {u : Value} (present : u ≠ null) (other : u.isText = false) :
    u.order? (text u.key) = if u.isNumber then some .eq else none := by
  cases u with
  | null => exact absurd rfl present
  | text s => cases other
  | bool b => cases b <;> decide +kernel
  | int i => exact order?_key_int i
  | float x =>
    rw [order?_key_float, isNumber]
    cases x.isNaN <;> rfl
  | date d => rfl
  | dateTime t => rfl

/-- The text is the key of the cell, which is no number, or is another text that is read as the cell's number. -/
def Disputes (s : String) (u : Value) : Prop :=
  u.isText = false ∧ (s = u.key ∧ u.isNumber = false ∨ s ≠ u.key ∧ u.order? (text s) = some .eq)

/-- One of the cells is a text that equality and the order take for different numbers. -/
def Disputed (v w : Value) : Prop :=
  (∃ s, v = text s ∧ Disputes s w) ∨ ∃ s, w = text s ∧ Disputes s v

section Equality
variable {u v w : Value} {s : String}

/-- Cells of which both or none are texts are equal just if they compare so. -/
theorem looselyEquals_iff_order? (present : v ≠ null) (level : v.isText = w.isText) :
    v.looselyEquals w = true ↔ v.order? w = some .eq := by
  cases v with
  | null => exact absurd rfl present
  | text s =>
    cases w with
    | text t =>
      show (s == t) = true ↔ some (compare s t) = some .eq
      rw [beq_iff_eq, Option.some_inj, Std.LawfulEqOrd.compare_eq_iff_eq]
    | _ => cases level
  | _ =>
    cases w with
    | text t => cases level
    | _ => exact beq_iff_eq

/-- Equality with a text is that of the keys. -/
theorem looselyEquals_text (other : u.isText = false) (s : String) :
    (u.looselyEquals (text s) = true ↔ s = u.key) ∧ ((text s).looselyEquals u = true ↔ s = u.key) := by
  have key : (text s).key = s := rfl
  have same : (u.key == s) = true ↔ s = u.key := beq_iff_eq.trans eq_comm
  have same' : (s == u.key) = true ↔ s = u.key := beq_iff_eq
  cases u with
  | text t => cases other
  | _ => exact ⟨same, same'⟩

theorem order?_text_eq_some (s : String) (u : Value) :
    (text s).order? u = some .eq ↔ u.order? (text s) = some .eq := by
  rw [order?_swap u (text s)]
  cases u.order? (text s) with
  | none => simp
  | some o => cases o <;> simp

/-- A text and a cell of another type are in dispute just if equality and the order say different things. -/
theorem disputes_iff (present : u ≠ null) (other : u.isText = false) :
    Disputes s u ↔ ¬(u.order? (text s) = some .eq ↔ s = u.key) := by
  unfold Disputes
  by_cases same : s = u.key
  · subst same
    rw [order?_key present other]
    cases u.isNumber <;> simp [other]
  · simp [same, other]

theorem isText_cases (v w : Value) : v.isText = w.isText ∨ (∃ s, v = text s ∧ w.isText = false) ∨
    ∃ s, w = text s ∧ v.isText = false := by
  cases v with
  | text s =>
    cases w with
    | text t => exact Or.inl rfl
    | _ => exact Or.inr (Or.inl ⟨s, rfl, rfl⟩)
  | _ =>
    cases w with
    | text t => exact Or.inr (Or.inr ⟨t, rfl, rfl⟩)
    | _ => exact Or.inl rfl

/-- Equal cells are on neither side of each other. -/
theorem order?_of_looselyEquals (hv : v ≠ null) (hw : w ≠ null) (equal : v.looselyEquals w = true) :
    v.order? w = none ∨ v.order? w = some .eq := by
  rcases isText_cases v w with level | ⟨s, rfl, other⟩ | ⟨s, rfl, other⟩
  · exact Or.inr ((looselyEquals_iff_order? hv level).1 equal)
  · rw [(looselyEquals_text other s).2.1 equal, order?_swap w (text w.key), order?_key hw other]
    cases w.isNumber <;> simp
  · rw [(looselyEquals_text other s).1.1 equal, order?_key hv other]
    cases v.isNumber <;> simp

/-- Two cells are in dispute just if equality and the order say different things. -/
theorem disputed_iff (hv : v ≠ null) (hw : w ≠ null) :
    Disputed v w ↔ ¬(v.order? w = some .eq ↔ v.looselyEquals w = true) := by
  unfold Disputed
  rcases isText_cases v w with level | ⟨s, rfl, other⟩ | ⟨s, rfl, other⟩
  · have undisputed : ¬((∃ s, v = text s ∧ Disputes s w) ∨ ∃ s, w = text s ∧ Disputes s v) := by
      rintro (⟨s, rfl, disputes⟩ | ⟨s, rfl, disputes⟩)
      · rw [disputes.1] at level
        cases level
      · rw [disputes.1] at level
        cases level
    simp [undisputed, looselyEquals_iff_order? hv level]
  · rw [(looselyEquals_text other s).2, order?_text_eq_some, ← disputes_iff hw other]
    constructor
    · rintro (⟨t, same, disputes⟩ | ⟨t, rfl, _⟩)
      · cases same
        exact disputes
      · cases other
    · exact fun disputes => Or.inl ⟨s, rfl, disputes⟩
  · rw [(looselyEquals_text other s).1, ← disputes_iff hv other]
    constructor
    · rintro (⟨t, rfl, _⟩ | ⟨t, same, disputes⟩)
      · cases other
      · cases same
        exact disputes
    · exact fun disputes => Or.inr ⟨s, rfl, disputes⟩

end Equality

end Value

namespace Condition
variable {v w : Value}

theorem accepts_exact_iff (present : w ≠ .null) : (exact w).accepts v = true ↔ v.looselyEquals w = true := by
  cases w with
  | null => exact absurd rfl present
  | _ => rfl

theorem accepts_gt_iff : (gt w).accepts v = true ↔ v.order? w = some .gt :=
  beq_iff_eq

theorem accepts_lt_iff : (lt w).accepts v = true ↔ v.order? w = some .lt :=
  beq_iff_eq

theorem accepts_gte_iff : (gte w).accepts v = true ↔ v.order? w = some .gt ∨ v.order? w = some .eq := by
  simp [accepts]

theorem accepts_lte_iff : (lte w).accepts v = true ↔ v.order? w = some .lt ∨ v.order? w = some .eq := by
  simp [accepts]

/-- Seven is at or beyond a text that is read as it, but neither beyond it nor equal to it. -/
theorem seven_apart : Value.int 7 ≠ .null ∧ Value.text "7.0" ≠ .null ∧
    ¬((gte (.text "7.0")).accepts (.int 7) = true ↔
      (gt (.text "7.0")).accepts (.int 7) = true ∨ (exact (.text "7.0")).accepts (.int 7) = true) :=
  ⟨nofun, nofun, by decide +kernel⟩

/-- A range with its end is the range without it and equality, for two cells that are not in dispute and for no others;
and a cell is on at most one side of the operand, and then not equal to it. -/
theorem ranges_agree (hv : v ≠ .null) (hw : w ≠ .null) :
    (((gte w).accepts v = true ↔ (gt w).accepts v = true ∨ (exact w).accepts v = true) ↔ ¬ v.Disputed w) ∧
    (((lte w).accepts v = true ↔ (lt w).accepts v = true ∨ (exact w).accepts v = true) ↔ ¬ v.Disputed w) ∧
    ¬((lt w).accepts v = true ∧ (exact w).accepts v = true) ∧
    ¬((exact w).accepts v = true ∧ (gt w).accepts v = true) ∧
    ¬((lt w).accepts v = true ∧ (gt w).accepts v = true) := by
  have neither := Value.order?_of_looselyEquals hv hw
  have disputed := Value.disputed_iff hv hw
  rw [disputed, not_not, accepts_exact_iff hw, accepts_gt_iff, accepts_lt_iff, accepts_gte_iff, accepts_lte_iff]
  generalize v.order? w = o at *
  generalize (v.looselyEquals w = true) = equal at *
  cases o with
  | none => simp
  | some o => cases o <;> simp_all

/-- A cell with seven and its key are not in dispute; with the text of another numeral for seven it is. -/
theorem numerals_of_seven : Value.int 7 ≠ .null ∧ Value.text "7" ≠ .null ∧ ¬(Value.int 7).Disputed (.text "7") ∧
    Value.text "7.0" ≠ .null ∧ (Value.int 7).Disputed (.text "7.0") ∧ ¬(exact (.text "7.0")).accepts (.int 7) = true := by
  have plain := ranges_agree (v := .int 7) (w := .text "7") nofun nofun
  have pointed := ranges_agree (v := .int 7) (w := .text "7.0") nofun nofun
  refine ⟨nofun, nofun, plain.1.1 (by decide +kernel), nofun, ?_, by decide +kernel⟩
  by_contra undisputed
  exact absurd (pointed.1.2 undisputed) (by decide +kernel)

end Condition
end Reporting
