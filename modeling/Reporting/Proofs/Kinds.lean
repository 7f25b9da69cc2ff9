import Reporting.Proofs.Calendar.Order
import Reporting.Proofs.Calendar.Reading
import Reporting.Proofs.Keys
import Reporting.Schema
import Reporting.Value

/-!
Cells of one kind. Among integers, texts, days and truth values, loose equality is equality
(`Value.looselyEquals_of_holds`), and the key tells the cell (`Value.key_inj_of_holds`), but for missing cells, whose key
is a text that can itself be a cell.
-/

namespace Reporting

namespace FieldKind

/-- The cell is one of the kind, or missing. Relations hold the primary keys of rows. -/
def holds : FieldKind → Value → Bool
  | _, .null => true
  | integer, .int _ => true
  | decimal, .float _ => true
  | text, .text _ => true
  | date, .date _ => true
  | dateTime, .dateTime _ => true
  | boolean, .bool _ => true
  | relation, .int _ => true
  | relation, .text _ => true
  | _, _ => false

/-- Cells of the kind are compared by what they are, not by a number or a time that they stand for. -/
def isDiscrete : FieldKind → Bool
  | integer => true
  | text => true
  | date => true
  | boolean => true
  | _ => false

/-- A cell of a kind that is compared by what it is, and is not missing. -/
inductive Has : FieldKind → Value → Prop where
  | integer (i : Int64) : Has .integer (.int i)
  | text (s : String) : Has .text (.text s)
  | date (d : Calendar.Date) : Has .date (.date d)
  | boolean (b : Bool) : Has .boolean (.bool b)

theorem eq_null_or_has {kind : FieldKind} {v : Value} (discrete : kind.isDiscrete) (hv : kind.holds v) :
    v = .null ∨ kind.Has v := by
  cases kind with
  | integer =>
    cases v with
    | null => exact Or.inl rfl
    | int i => exact Or.inr (.integer i)
    | _ => cases hv
  | text =>
    cases v with
    | null => exact Or.inl rfl
    | text s => exact Or.inr (.text s)
    | _ => cases hv
  | date =>
    cases v with
    | null => exact Or.inl rfl
    | date d => exact Or.inr (.date d)
    | _ => cases hv
  | boolean =>
    cases v with
    | null => exact Or.inl rfl
    | bool b => exact Or.inr (.boolean b)
    | _ => cases hv
  | _ => cases discrete

theorem Has.isDiscrete {kind : FieldKind} {v : Value} (has : kind.Has v) : kind.isDiscrete := by
  cases has <;> rfl

theorem Has.holds {kind : FieldKind} {v : Value} (has : kind.Has v) : kind.holds v := by
  cases has <;> rfl

theorem Has.ne_null {kind : FieldKind} {v : Value} (has : kind.Has v) : v ≠ .null := by
  rintro rfl
  cases has

/-- A cell that a column of the kind keeps as it is: relations hold integers, times are whole seconds, and numbers are
finite and not the zero below zero. -/
inductive Kept : FieldKind → Value → Prop where
  | integer (i : Int64) : Kept .integer (.int i)
  | decimal {x : Float} (finite : x.isFinite) (unsigned : x ≠ -0.0) : Kept .decimal (.float x)
  | text (s : String) : Kept .text (.text s)
  | date (d : Calendar.Date) : Kept .date (.date d)
  | dateTime {t : Calendar.DateTime} (whole : t.time.fraction = 0) : Kept .dateTime (.dateTime t)
  | boolean (b : Bool) : Kept .boolean (.bool b)
  | relation (i : Int64) : Kept .relation (.int i)

/-- The cell is missing, or a column of the kind keeps it as it is. -/
def Keeps (kind : FieldKind) (v : Value) : Prop :=
  v = .null ∨ kind.Kept v

theorem keeps_of_holds {kind : FieldKind} {v : Value} (discrete : kind.isDiscrete) (hv : kind.holds v) : kind.Keeps v := by
  rcases eq_null_or_has discrete hv with rfl | has
  · exact Or.inl rfl
  cases has with
  | integer i => exact Or.inr (.integer i)
  | text s => exact Or.inr (.text s)
  | date d => exact Or.inr (.date d)
  | boolean b => exact Or.inr (.boolean b)

/-- The key of a cell that a column of the kind keeps as it is tells the cell from all others, missing ones included. -/
def isTold : FieldKind → Bool
  | integer => true
  | date => true
  | dateTime => true
  | boolean => true
  | relation => true
  | _ => false

/-- Cells of the kind are integers, texts or truth values. -/
def isPlain : FieldKind → Bool
  | integer => true
  | text => true
  | boolean => true
  | relation => true
  | _ => false

theorem Kept.ne_null {kind : FieldKind} {v : Value} (kept : kind.Kept v) : v ≠ .null := by
  rintro rfl
  cases kept

end FieldKind

namespace Value

/-- The text that is the key of missing cells, as a cell. -/
def noneText : Value := .text "None"

/-- One of the cells is missing and the other is the text that missing cells have as their key. -/
def Mistaken (v w : Value) : Prop :=
  v = null ∧ w = noneText ∨ v = noneText ∧ w = null

instance (v w : Value) : Decidable (v.Mistaken w) :=
  inferInstanceAs (Decidable (_ ∨ _))

theorem looselyEquals_null_left (v : Value) : null.looselyEquals v = true ↔ v = null ∨ v = noneText := by
  unfold noneText
  cases v with
  | text s =>
    simp only [looselyEquals, key, display, beq_iff_eq, reduceCtorEq, false_or, text.injEq]
    exact eq_comm
  | _ => simp [looselyEquals, order?]

theorem looselyEquals_null_right (v : Value) : v.looselyEquals null = true ↔ v = null ∨ v = noneText := by
  unfold noneText
  cases v with
  | text s => simp [looselyEquals, key, display]
  | _ => simp [looselyEquals, order?]

theorem not_mistaken_of_has {kind : FieldKind} {v w : Value} (hv : kind.Has v) (hw : kind.Has w) : ¬ v.Mistaken w := by
  rintro (⟨none_, _⟩ | ⟨_, none_⟩)
  · exact hv.ne_null none_
  · exact hw.ne_null none_

theorem looselyEquals_of_holds {kind : FieldKind} {v w : Value} (discrete : kind.isDiscrete) (hv : kind.holds v)
    (hw : kind.holds w) : v.looselyEquals w = true ↔ v = w ∨ v.Mistaken w := by
  rcases FieldKind.eq_null_or_has discrete hv with rfl | hasV
  · rw [looselyEquals_null_left]
    simp [Mistaken, noneText, eq_comm]
  rcases FieldKind.eq_null_or_has discrete hw with rfl | hasW
  · rw [looselyEquals_null_right]
    simp [Mistaken, noneText]
  rw [or_iff_left (not_mistaken_of_has hasV hasW)]
  cases hasV with
  | integer i =>
    cases hasW with
    | integer j => simp [looselyEquals, order?, Int64.toInt_inj]
  | text s =>
    cases hasW with
    | text t => simp [looselyEquals]
  | date d =>
    cases hasW with
    | date e =>
      simp only [looselyEquals, order?, beq_iff_eq, Option.some.injEq, date.injEq]
      exact Std.LawfulEqCmp.compare_eq_iff_eq
  | boolean a =>
    cases hasW with
    | boolean b => simp [looselyEquals, order?]

theorem key_date_ne_none (d : Calendar.Date) : (date d).key ≠ null.key := by
  intro same
  have read := Calendar.readDateAs?_chars d
  have chars : d.chars ['-'] = ['N', 'o', 'n', 'e'] := String.ofList_injective same
  rw [chars] at read
  cases read

theorem key_dateTime_inj {t u : Calendar.DateTime} (wholeT : t.time.fraction = 0) (wholeU : u.time.fraction = 0)
    (same : (dateTime t).key = (dateTime u).key) : t = u := by
  have chars : t.chars = u.chars := String.ofList_injective same
  have read := Calendar.readDateTimeAs?_chars wholeT
  rw [chars, Calendar.readDateTimeAs?_chars wholeU] at read
  exact (Option.some.inj read).symm

theorem key_dateTime_ne_none {t : Calendar.DateTime} (whole : t.time.fraction = 0) : (dateTime t).key ≠ null.key := by
  intro same
  have read := Calendar.readDateTimeAs?_chars whole
  have chars : t.chars = ['N', 'o', 'n', 'e'] := String.ofList_injective same
  rw [chars] at read
  cases read

theorem key_ne_none_of_kept {kind : FieldKind} {v : Value} (told : kind.isTold) (kept : kind.Kept v) : v.key ≠ null.key := by
  cases kept with
  | integer i => exact key_int_ne_none i
  | decimal => cases told
  | text => cases told
  | date d => exact key_date_ne_none d
  | dateTime whole => exact key_dateTime_ne_none whole
  | boolean b => cases b <;> simp [key, display]
  | relation i => exact key_int_ne_none i

theorem key_inj_of_keeps {kind : FieldKind} {v w : Value} (told : kind.isTold) (hv : kind.Keeps v) (hw : kind.Keeps w) :
    v.key = w.key ↔ v = w := by
  refine ⟨fun same => ?_, congrArg key⟩
  rcases hv with rfl | keptV
  · rcases hw with rfl | keptW
    · rfl
    · exact absurd same.symm (key_ne_none_of_kept told keptW)
  rcases hw with rfl | keptW
  · exact absurd same (key_ne_none_of_kept told keptV)
  cases keptV with
  | integer i =>
    cases keptW with
    | integer j => exact (key_inj rfl rfl).1 same
  | decimal => cases told
  | text => cases told
  | date d =>
    cases keptW with
    | date e => exact congrArg date (Calendar.Date.text_inj same)
  | dateTime wholeT =>
    cases keptW with
    | dateTime wholeU => exact congrArg dateTime (key_dateTime_inj wholeT wholeU same)
  | boolean a =>
    cases keptW with
    | boolean b => cases a <;> cases b <;> simp [key, display] at same ⊢
  | relation i =>
    cases keptW with
    | relation j => exact (key_inj rfl rfl).1 same

theorem key_eq_none_iff {kind : FieldKind} {v : Value} (discrete : kind.isDiscrete) (hv : kind.holds v) :
    v.key = null.key ↔ v = null ∨ v = noneText := by
  rcases FieldKind.eq_null_or_has discrete hv with rfl | has
  · simp
  cases has with
  | integer i => simp [noneText, key_int_ne_none]
  | text s => simp [noneText, key, display]
  | date d => simp [noneText, key_date_ne_none]
  | boolean b => cases b <;> simp [noneText, key, display]

theorem key_inj_of_holds {kind : FieldKind} {v w : Value} (discrete : kind.isDiscrete) (hv : kind.holds v)
    (hw : kind.holds w) : v.key = w.key ↔ v = w ∨ v.Mistaken w := by
  rcases FieldKind.eq_null_or_has discrete hv with rfl | hasV
  · rw [eq_comm, key_eq_none_iff discrete hw]
    simp [Mistaken, noneText, eq_comm]
  rcases FieldKind.eq_null_or_has discrete hw with rfl | hasW
  · rw [key_eq_none_iff discrete hv]
    simp [Mistaken, noneText]
  rw [or_iff_left (not_mistaken_of_has hasV hasW)]
  cases hasV with
  | integer i =>
    cases hasW with
    | integer j => exact key_inj rfl rfl
  | text s =>
    cases hasW with
    | text t => simp [key, display]
  | date d =>
    cases hasW with
    | date e => exact ⟨fun same => congrArg date (Calendar.Date.text_inj same), congrArg key⟩
  | boolean a =>
    cases hasW with
    | boolean b => cases a <;> cases b <;> simp [key, display]

end Value
end Reporting
