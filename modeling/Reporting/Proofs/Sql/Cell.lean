import Reporting.Proofs.Floats
import Reporting.Proofs.Kinds
import Reporting.Sql.Cell

/-!
Cells that columns keep of values. What a column keeps as it is, is read back as it was (`decode_stored_of_keeps`), and
all such cells but numbers are totally ordered (`Cell.order_eq_rankOrder`), so that equal ones are the same.
-/

namespace Reporting.Sql

/-- The cell that a column of the kind keeps of a value. -/
def stored (kind : FieldKind) (v : Value) : Cell :=
  (encode kind v).store (.ofKind kind)

theorem stored_null (kind : FieldKind) : stored kind .null = .null := by
  cases kind <;> rfl

theorem stored_float {x : Float} (finite : x.isFinite) (unsigned : x ≠ -0.0) : stored .decimal (.float x) = .real x := by
  show Cell.store .real (if x.isNaN then .null else .real x) = _
  rw [Floats.isNaN_of_isFinite finite, if_neg Bool.false_ne_true]
  show (if x == 0 then Cell.real 0 else Cell.real x) = _
  split
  · rename_i zero
    rw [(Floats.eq_zero_of_beq zero).resolve_right unsigned]
  · rfl

/-- A point in time is written to the second in a column of times, so that a fraction would be lost. -/
theorem decode_stored_of_keeps {kind : FieldKind} {v : Value} (kept : kind.Keeps v) : decode kind (stored kind v) = v := by
  rcases kept with rfl | kept
  · rw [stored_null]
    rfl
  cases kept with
  | integer i => rfl
  | decimal finite unsigned =>
    rw [stored_float finite unsigned]
    rfl
  | text s => rfl
  | date d =>
    have read : decode .date (.text d.text) = .date d := by
      simp [decode, Calendar.Date.text, Calendar.readDateAs?_chars]
    exact read
  | @dateTime t whole =>
    have read : decode .dateTime (.text t.text) = .dateTime t := by
      simp [decode, Calendar.DateTime.text, storedTimeForm, Calendar.readDateTimeAs?_chars whole]
    exact read
  | boolean b => cases b <;> rfl
  | relation i => rfl

theorem decode_stored {kind : FieldKind} {v : Value} (discrete : kind.isDiscrete) (hv : kind.holds v) :
    decode kind (stored kind v) = v :=
  decode_stored_of_keeps (FieldKind.keeps_of_holds discrete hv)

theorem isNull_stored {kind : FieldKind} {v : Value} (kept : kind.Keeps v) : (stored kind v).isNull = v.isNull := by
  rcases kept with rfl | kept
  · rw [stored_null]
    rfl
  cases kept with
  | decimal finite unsigned =>
    rw [stored_float finite unsigned]
    rfl
  | _ => rfl

namespace Cell

/-- The cell is no real number, which may be no number. -/
def isPlain : Cell → Bool
  | real _ => false
  | _ => true

/-- The class of a cell, and what it is compared by within the class. -/
def rank : Cell → Nat × Int × String
  | null => (0, 0, "")
  | integer i => (1, i.toInt, "")
  | real _ => (1, 0, "")
  | text s => (2, 0, s)

def rankOrder : Cell → Cell → Ordering :=
  compareLex (compareOn fun c => c.rank.1) (compareLex (compareOn fun c => c.rank.2.1) (compareOn fun c => c.rank.2.2))

instance : Std.TransCmp rankOrder :=
  inferInstanceAs (Std.TransCmp (compareLex _ (compareLex _ _)))

theorem order_eq_rankOrder {a b : Cell} (ha : a.isPlain) (hb : b.isPlain) : a.order b = rankOrder a b := by
  cases a with
  | real x => cases ha
  | null =>
    cases b with
    | real y => cases hb
    | _ => rfl
  | integer i =>
    cases b with
    | real y => cases hb
    | integer j => simp [order, rankOrder, compareLex, compareOn, rank]
    | _ => rfl
  | text s =>
    cases b with
    | real y => cases hb
    | text t => simp [order, rankOrder, compareLex, compareOn, rank]
    | _ => rfl

theorem eq_of_order {a b : Cell} (ha : a.isPlain) (hb : b.isPlain) (same : a.order b = .eq) : a = b := by
  cases a with
  | real x => cases ha
  | null =>
    cases b with
    | null => rfl
    | real y => cases hb
    | _ => cases same
  | integer i =>
    cases b with
    | integer j => rw [Int64.toInt_inj.1 (Int.compare_eq_eq.1 same)]
    | real y => cases hb
    | _ => cases same
  | text s =>
    cases b with
    | text t =>
      have texts : compare s t = .eq := same
      rw [Std.LawfulEqCmp.eq_of_compare texts]
    | real y => cases hb
    | _ => cases same

end Cell

theorem isPlain_stored_of_keeps {kind : FieldKind} {v : Value} (other : kind ≠ .decimal) (kept : kind.Keeps v) :
    (stored kind v).isPlain := by
  rcases kept with rfl | kept
  · rw [stored_null]
    rfl
  cases kept with
  | decimal => exact absurd rfl other
  | _ => rfl

theorem isPlain_stored {kind : FieldKind} {v : Value} (discrete : kind.isDiscrete) (hv : kind.holds v) :
    (stored kind v).isPlain := by
  refine isPlain_stored_of_keeps ?_ (FieldKind.keeps_of_holds discrete hv)
  rintro rfl
  cases discrete

end Reporting.Sql
