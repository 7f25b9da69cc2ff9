import Reporting.Proofs.Calendar.Order
import Reporting.Proofs.Floats
import Reporting.Schema
import Reporting.Value

/-!
The order of cells. Two cells compare alike either way round (`Value.order?_swap`). Three may still be out of line, as a
missing cell compares with neither of two that are in the wrong order, and text compares as a number with numbers but
not with text. Cells of one kind that one order compares are never out of line (`FieldKind.not_outOfLine`).
-/

namespace Reporting
open Calendar

namespace Value

theorem orderFloats_eq (x y : Float) : orderFloats x y = x.toModel.unpack.compare y.toModel.unpack := by
  have less : ∀ x y : Float, x < y ↔ x.toModel.unpack.compare y.toModel.unpack = some .lt := by
    intro x y
    refine (decide_eq_true_iff (p := x.toModel < y.toModel)).trans ?_
    exact beq_iff_eq (a := x.toModel.unpack.compare y.toModel.unpack)
  have same : (x == y) = (x.toModel.unpack.compare y.toModel.unpack == some .eq) := rfl
  unfold orderFloats
  simp only [less, same, Floats.compare_swap x.toModel.unpack y.toModel.unpack]
  cases x.toModel.unpack.compare y.toModel.unpack with
  | none => rfl
  | some o => cases o <;> rfl

theorem orderFloats_swap (x y : Float) : orderFloats y x = (orderFloats x y).map Ordering.swap := by
  rw [orderFloats_eq, orderFloats_eq, Floats.compare_swap]

variable {a b c v w : Value} {t u : DateTime}

/-- The order of two numbers, if both are there. -/
def orderNumbers (x y : Option Float) : Option Ordering :=
  match x, y with
  | some x, some y => orderFloats x y
  | _, _ => none

theorem orderNumbers_swap (x y : Option Float) : orderNumbers y x = (orderNumbers x y).map Ordering.swap := by
  cases x with
  | none => cases y <;> rfl
  | some x =>
    cases y with
    | none => rfl
    | some y => exact orderFloats_swap x y

/-- A text is compared with cells of other types as a number, if it reads as one. -/
theorem order?_text {b : Value} (present : b ≠ null) (other : ∀ t, b ≠ text t) (s : String) :
    (text s).order? b = orderNumbers (text s).toFloat? b.toFloat? ∧
      b.order? (text s) = orderNumbers b.toFloat? (text s).toFloat? := by
  -- The text itself is not looked into.
  generalize read : (text s).toFloat? = x
  cases b with
  | null => exact absurd rfl present
  | text t => exact absurd rfl (other t)
  | _ => constructor <;> (simp only [order?, dateTime?, read]; rfl)

/-- Compared the other way round, two cells come out the other way round. -/
theorem order?_swap (a b : Value) : b.order? a = (a.order? b).map Ordering.swap := by
  have texts : ∀ (s : String) (v : Value), v ≠ null → (∀ t, v ≠ text t) →
      v.order? (text s) = ((text s).order? v).map Ordering.swap ∧
        (text s).order? v = (v.order? (text s)).map Ordering.swap := by
    intro s v present other
    rw [(order?_text present other s).1, (order?_text present other s).2]
    exact ⟨orderNumbers_swap .., orderNumbers_swap ..⟩
  have numbers := orderNumbers_swap a.toFloat? b.toFloat?
  cases a with
  | null => cases b <;> rfl
  | text s =>
    cases b with
    | text t => exact congrArg some Std.OrientedOrd.eq_swap
    | null => rfl
    | _ => exact (texts s _ (by simp) (by simp)).1
  | bool x =>
    cases b with
    | bool y => exact congrArg some Std.OrientedOrd.eq_swap
    | text t => exact (texts t _ (by simp) (by simp)).2
    | null | date | dateTime => rfl
    | _ => exact numbers
  | int i =>
    cases b with
    | int j => exact congrArg some Std.OrientedOrd.eq_swap
    | text t => exact (texts t _ (by simp) (by simp)).2
    | null | date | dateTime => rfl
    | _ => exact numbers
  | float x =>
    cases b with
    | text t => exact (texts t _ (by simp) (by simp)).2
    | null | date | dateTime => rfl
    | _ => exact numbers
  | date d =>
    cases b with
    | date e => exact congrArg some Std.OrientedCmp.eq_swap
    | dateTime u => exact congrArg some Std.OrientedCmp.eq_swap
    | text t => exact (texts t _ (by simp) (by simp)).2
    | _ => rfl
  | dateTime t =>
    cases b with
    | date e => exact congrArg some Std.OrientedCmp.eq_swap
    | dateTime u => exact congrArg some Std.OrientedCmp.eq_swap
    | text t => exact (texts t _ (by simp) (by simp)).2
    | _ => rfl

/-- The first cell is less than the second. -/
def Before (a b : Value) : Prop :=
  a.order? b = some .lt

instance (a b : Value) : Decidable (a.Before b) :=
  inferInstanceAs (Decidable (_ = _))

theorem Before.asymm (before : a.Before b) : ¬ b.Before a := by
  unfold Before at before ⊢
  rw [order?_swap a b, before]
  decide

/-- No two that follow one another are in the wrong order, and yet the last is less than the first. -/
def OutOfLine (a b c : Value) : Prop :=
  ¬ b.Before a ∧ ¬ c.Before b ∧ c.Before a

instance (a b c : Value) : Decidable (a.OutOfLine b c) :=
  inferInstanceAs (Decidable (_ ∧ _))

/-- Days compare as their midnights do. -/
theorem order?_eq_of_dateTime? (hv : v.dateTime? = some t) (hw : w.dateTime? = some u) : v.order? w = some (t.order u) := by
  cases v with
  | date d =>
    cases hv
    cases w with
    | date e =>
      cases hw
      simp [order?, DateTime.order, DateTime.atMidnight]
    | dateTime u => cases hw; rfl
    | _ => cases hw
  | dateTime t =>
    cases hv
    cases w with
    | date e => cases hw; rfl
    | dateTime u => cases hw; rfl
    | _ => cases hw
  | _ => cases hv

/-- What one order compares is in line. -/
theorem not_outOfLine_of_compared {α : Type} (cmp : α → α → Ordering) [Std.TransCmp cmp] (read : Value → Option α)
    (compared : ∀ v w x y, read v = some x → read w = some y → v.order? w = some (cmp x y)) (hasA : (read a).isSome)
    (hasB : (read b).isSome) (hasC : (read c).isSome) : ¬ a.OutOfLine b c := by
  obtain ⟨x, readA⟩ := Option.isSome_iff_exists.1 hasA
  obtain ⟨y, readB⟩ := Option.isSome_iff_exists.1 hasB
  obtain ⟨z, readC⟩ := Option.isSome_iff_exists.1 hasC
  have before : ∀ {v w x y}, read v = some x → read w = some y → (v.Before w ↔ cmp x y = .lt) := by
    intro v w x y readV readW
    rw [Before, compared v w x y readV readW, Option.some.injEq]
  have isLE : ∀ {x y}, cmp x y ≠ .lt → (cmp y x).isLE := fun other =>
    Ordering.isLE_iff_ne_gt.2 fun more => other (Std.OrientedCmp.gt_iff_lt.1 more)
  rintro ⟨first, second, third⟩
  rw [before readB readA] at first
  rw [before readC readB] at second
  rw [before readC readA] at third
  exact Std.OrientedCmp.not_lt_of_isLE (Std.TransCmp.isLE_trans (isLE first) (isLE second)) third

end Value

/-! ## Cells of one kind -/

namespace Value

def int? : Value → Option Int
  | int i => some i.toInt
  | _ => none

def bool? : Value → Option Bool
  | bool b => some b
  | _ => none

/-- The place on the line of a number with a point. -/
def place? : Value → Option (Int × Int × Int)
  | float x => Floats.place? x.toModel.unpack
  | _ => none

end Value

namespace FieldKind

/-- The cells of the kind that one order compares: none that is missing, and no number that is none. Days are compared
with points in time. The keys that relations hold are compared by no one order. -/
def ranks (kind : FieldKind) (v : Value) : Bool :=
  match kind with
  | integer => v.int?.isSome
  | decimal => match v with
    | .float x => !x.isNaN
    | _ => false
  | text => v.text?.isSome
  | date => v.dateTime?.isSome
  | dateTime => v.dateTime?.isSome
  | boolean => v.bool?.isSome
  | relation => false

/-- Cells of one kind are in line. -/
theorem not_outOfLine {kind : FieldKind} {a b c : Value} (hasA : kind.ranks a) (hasB : kind.ranks b) (hasC : kind.ranks c) :
    ¬ a.OutOfLine b c := by
  have times : a.dateTime?.isSome → b.dateTime?.isSome → c.dateTime?.isSome → ¬ a.OutOfLine b c :=
    Value.not_outOfLine_of_compared DateTime.order Value.dateTime? fun _ _ _ _ => Value.order?_eq_of_dateTime?
  cases kind with
  | integer =>
    refine Value.not_outOfLine_of_compared compare Value.int? (fun v w x y readV readW => ?_) hasA hasB hasC
    cases v with
    | int i =>
      cases w with
      | int j => cases readV; cases readW; rfl
      | _ => cases readW
    | _ => cases readV
  | decimal =>
    have placed : ∀ v, decimal.ranks v → v.place?.isSome := by
      intro v ranked
      cases v with
      | float x =>
        obtain ⟨p, place⟩ := Floats.exists_place (Bool.not_eq_eq_eq_not.1 ranked)
        exact Option.isSome_iff_exists.2 ⟨p, place⟩
      | _ => cases ranked
    refine Value.not_outOfLine_of_compared Floats.orderPlaces Value.place? (fun v w x y readV readW => ?_)
      (placed a hasA) (placed b hasB) (placed c hasC)
    cases v with
    | float x =>
      cases w with
      | float y =>
        show Value.orderFloats x y = _
        rw [Value.orderFloats_eq, Floats.compare_eq_places, show Floats.place? x.toModel.unpack = _ from readV,
          show Floats.place? y.toModel.unpack = _ from readW]
        rfl
      | _ => cases readW
    | _ => cases readV
  | text =>
    refine Value.not_outOfLine_of_compared compare Value.text? (fun v w x y readV readW => ?_) hasA hasB hasC
    cases v with
    | text s =>
      cases w with
      | text t => cases readV; cases readW; rfl
      | _ => cases readW
    | _ => cases readV
  | date => exact times hasA hasB hasC
  | dateTime => exact times hasA hasB hasC
  | boolean =>
    refine Value.not_outOfLine_of_compared compare Value.bool? (fun v w x y readV readW => ?_) hasA hasB hasC
    cases v with
    | bool s =>
      cases w with
      | bool t => cases readV; cases readW; rfl
      | _ => cases readW
    | _ => cases readV
  | relation => cases hasA

end FieldKind
end Reporting
