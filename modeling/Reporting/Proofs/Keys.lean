import Mathlib
import Reporting.Filter

/-!
Keys of cells. Among integers and missing cells the key tells the cell, so that comparing keys, as groups are
formed, and testing for the cell, as filters do, come to the same.
-/

namespace Reporting
namespace Value

/-- The cell is an integer or missing. -/
def isIntOrNull : Value → Bool
  | null => true
  | int _ => true
  | _ => false

private theorem none_not_isInt : "None".isInt = false := by
  rw [Bool.eq_false_iff]
  intro reads
  rcases String.isInt_iff.1 reads with digits | ⟨rest, same, _⟩
  · have first := String.isNat_iff.1 digits
    simp at first
  · have first := congrArg String.toList same
    simp at first

theorem key_int_ne_none (i : Int64) : (int i).key ≠ null.key := by
  intro same
  have digits := Int.isInt_repr i.toInt
  rw [show i.toInt.repr = "None" from same, none_not_isInt] at digits
  cases digits

/-- The key tells the cell. -/
theorem key_inj {v cell : Value} (hv : v.isIntOrNull) (hcell : cell.isIntOrNull) : cell.key = v.key ↔ cell = v := by
  constructor
  · intro same
    cases v with
    | null =>
      cases cell with
      | null => rfl
      | int i => exact absurd same (key_int_ne_none i)
      | _ => cases hcell
    | int i =>
      cases cell with
      | null => exact absurd same.symm (key_int_ne_none i)
      | int j => rw [Int64.toInt_inj.1 (Int.repr_inj.1 same)]
      | _ => cases hcell
    | _ => cases hv
  · rintro rfl
    rfl

/-- An integer equals itself, and nothing that is missing. -/
theorem looselyEquals_int_iff {v : Value} (hv : v.isIntOrNull) (i : Int64) : (int i).looselyEquals v = true ↔ int i = v := by
  cases v with
  | null => simp [looselyEquals, order?]
  | int j => simp [looselyEquals, order?, Int64.toInt_inj]
  | _ => cases hv

end Value

namespace Predicate

theorem accepts_exact {v : Value} (present : v ≠ .null) (path : String) (cell : Value) :
    (of path (.exact v)).accepts cell = cell.looselyEquals v := by
  cases v with
  | null => exact absurd rfl present
  | _ => simp [of, accepts, Condition.accepts]

/-- The test for the cell itself; a missing cell is tested for being missing. -/
def only (path : String) : Value → Predicate
  | .null => .of path (.isNull true)
  | v => .of path (.exact v)

theorem path_only (path : String) (v : Value) : (only path v).path = path := by
  cases v <;> rfl

/-- Testing for a cell is comparing its key. -/
theorem accepts_only {v cell : Value} (path : String) (hv : v.isIntOrNull) (hcell : cell.isIntOrNull) :
    (only path v).accepts cell = decide (cell.key = v.key) := by
  rw [Bool.eq_iff_iff, decide_eq_true_iff, Value.key_inj hv hcell]
  cases v with
  | null =>
    cases cell with
    | null => simp [only, of, accepts, Condition.accepts, Value.isNull]
    | int i => simp [only, of, accepts, Condition.accepts, Value.isNull]
    | _ => cases hcell
  | int i =>
    cases cell with
    | null => simp [only, of, accepts, Condition.accepts, Value.looselyEquals, Value.order?]
    | int j =>
      simp [only, of, accepts, Condition.accepts, Value.looselyEquals, Value.order?, Int64.toInt_inj]
    | _ => cases hcell
  | _ => cases hv

end Predicate
end Reporting
