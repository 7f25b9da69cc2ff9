import Reporting.Decimal.Layout
import Reporting.Proofs.Floats.Scientific

/-!
The decimals that numbers are written as. The shortest one, and the exact one if none is short, round to the number
(`Decimal.Binary.rounds_shortest`).
-/

namespace Reporting.Decimal
open Floats Float.Model Float.Model.UnpackedFloat

/-! ## Bits -/

section Bits
variable {x : Float} {s : Sign} {m : ℕ} {e : ℤ} {positive : 0 < m}

theorem exponentBits_eq (bits : UInt64) :
    ((bits >>> 52) &&& 0x7FF).toNat = (@unpackExponent .binary64 bits.toBitVec).toNat := by
  have width : (0x7FF : UInt64).toNat = 2 ^ 11 - 1 := rfl
  have parts : (@unpackExponent .binary64 bits.toBitVec).toNat = bits.toNat >>> 52 % 2 ^ 11 := by
    simp only [unpackExponent, BitVec.toNat_cast, BitVec.extractLsb_toNat]
    rfl
  rw [parts, UInt64.toNat_and, UInt64.toNat_shiftRight, width, Nat.and_two_pow_sub_one_eq_mod]
  rfl

theorem mantissaBits_eq (bits : UInt64) :
    (bits &&& 0xFFFFFFFFFFFFF).toNat = (@unpackMantissa .binary64 bits.toBitVec).toNat := by
  have width : (0xFFFFFFFFFFFFF : UInt64).toNat = 2 ^ 52 - 1 := rfl
  have parts : (@unpackMantissa .binary64 bits.toBitVec).toNat = bits.toNat >>> 0 % 2 ^ 52 := by
    simp only [unpackMantissa, BitVec.toNat_cast, BitVec.extractLsb_toNat]
    rfl
  rw [parts, UInt64.toNat_and, width, Nat.and_two_pow_sub_one_eq_mod]
  rfl

theorem signBit_iff (bits : UInt64) :
    (bits >>> 63 == 1) = true ↔ Sign.ofBitVec (@unpackSign .binary64 bits.toBitVec) = .negative := by
  have parts : (@unpackSign .binary64 bits.toBitVec).toNat = bits.toNat >>> 63 % 2 ^ 1 := by
    simp only [unpackSign, BitVec.toNat_cast, BitVec.extractLsb_toNat]
    rfl
  have shifted : (bits >>> 63).toNat = bits.toNat >>> 63 := UInt64.toNat_shiftRight bits 63
  have one : (bits >>> 63 == 1) = true ↔ bits.toNat >>> 63 = 1 := by
    rw [beq_iff_eq, ← UInt64.toNat_inj, shifted]
    rfl
  have zero : @unpackSign .binary64 bits.toBitVec = 0#1 ↔ bits.toNat >>> 63 % 2 = 0 := by
    rw [← BitVec.toNat_inj, parts]
    rfl
  have below : bits.toNat >>> 63 < 2 := by
    have := bits.toNat_lt
    omega
  rw [one, Sign.ofBitVec]
  split
  · rename_i none_
    have := zero.1 none_
    simp
    omega
  · rename_i some_
    have := mt zero.2 some_
    simp
    omega

/-- The magnitude of a finite number. -/
theorem ofBits_eq (parts : x.toModel.unpack = .finite s m e positive) :
    Binary.ofBits x.toBits = ⟨m, e, decide (m = 2 ^ 52 ∧ -1074 < e)⟩ := by
  have held : x.toBits = x.toModel.toBits := rfl
  have inside : (@unpackMantissa .binary64 x.toModel.toBits.toBitVec).toNat < 2 ^ 52 := BitVec.isLt _
  obtain ⟨_, shape⟩ := bits_of_unpack parts
  unfold Binary.ofBits
  dsimp only
  rw [exponentBits_eq, mantissaBits_eq, held]
  generalize (@unpackMantissa .binary64 x.toModel.toBits.toBitVec).toNat = fraction at *
  generalize (@unpackExponent .binary64 x.toModel.toBits.toBitVec).toNat = biased at *
  rcases shape with ⟨zero, rfl, rfl⟩ | ⟨some_, _, rfl, rfl⟩
  · rw [if_pos zero]
    simp
  · rw [if_neg some_.ne']
    congr 1
    refine decide_eq_decide.2 ?_
    omega

end Bits

/-! ## Decimals around a magnitude -/

/-- The number that a decimal is. -/
def Scaled.value (d : Scaled) : ℚ :=
  d.digits * 10 ^ d.exponent

theorem compare_div {a b : ℕ} {d : ℚ} (positive : 0 < d) : compare a b = compare ((a : ℚ) / d) (b / d) := by
  rcases Nat.lt_trichotomy a b with less | rfl | more
  · rw [Nat.compare_eq_lt.2 less, eq_comm, compare_lt_iff_lt]
    exact div_lt_div_of_pos_right (by exact_mod_cast less) positive
  · rw [Nat.compare_eq_eq.2 rfl, eq_comm, compare_eq_iff_eq]
  · rw [Nat.compare_eq_gt.2 more, eq_comm, compare_gt_iff_gt]
    exact div_lt_div_of_pos_right (by exact_mod_cast more) positive

/-- Decimals and binary fractions compare as the numbers that they are. -/
theorem compareScaled_eq (digits : ℕ) (i : ℤ) (mantissa : ℕ) (j : ℤ) :
    compareScaled digits i mantissa j = compare ((digits : ℚ) * 10 ^ i) (mantissa * 2 ^ j) := by
  have positive : (0 : ℚ) < 10 ^ (-i).toNat * 2 ^ (-j).toNat := by positivity
  have left : (digits : ℚ) * 10 ^ i =
      (digits * Nat.pow 10 i.toNat * Nat.pow 2 (-j).toNat : ℕ) / (10 ^ (-i).toNat * 2 ^ (-j).toNat) := by
    rw [zpow_eq_div (by norm_num), eq_div_iff positive.ne', Nat.pow_eq, Nat.pow_eq]
    push_cast
    field_simp
  have right : (mantissa : ℚ) * 2 ^ j =
      (mantissa * Nat.pow 2 j.toNat * Nat.pow 10 (-i).toNat : ℕ) / (10 ^ (-i).toNat * 2 ^ (-j).toNat) := by
    rw [zpow_eq_div (by norm_num), eq_div_iff positive.ne', Nat.pow_eq, Nat.pow_eq]
    push_cast
    field_simp
  rw [left, right]
  exact compare_div positive

section Binary
variable {x : Binary} {m : ℕ} {e : ℤ} {d : Scaled}

/-- The ends of the interval, in quarters of the unit. -/
theorem quarters_eq (canonical : Canonical m e) :
    (((if m = 2 ^ 52 ∧ -1074 < e then 4 * m - 1 else 4 * m - 2 : ℕ) : ℚ) * 2 ^ (e - 2) = lowEnd m e) ∧
      ((4 * m + 2 : ℕ) : ℚ) * 2 ^ (e - 2) = highEnd m e := by
  have positive := canonical.positive
  have unit : (2 : ℚ) ^ (e - 2) = 2 ^ e / 4 := by
    rw [zpow_sub₀ (by norm_num)]
    norm_num
  unfold lowEnd highEnd
  rw [unit]
  constructor
  · split
    · rw [Nat.cast_sub (by omega)]
      push_cast
      ring
    · rw [Nat.cast_sub (by omega)]
      push_cast
      ring
  · push_cast
    ring

/-- A decimal that reads back rounds to the magnitude. -/
theorem Binary.rounds_of_readsBack (canonical : Canonical m e) (shape : x = ⟨m, e, decide (m = 2 ^ 52 ∧ -1074 < e)⟩)
    (reads : x.readsBack d) : Rounds d.value m e := by
  subst shape
  obtain ⟨low, high⟩ := quarters_eq canonical
  unfold readsBack at reads
  simp only [compareScaled_eq, decide_eq_true_eq, Bool.and_eq_true, Bool.or_eq_true, beq_iff_eq, low, high,
    compare_lt_iff_lt, compare_gt_iff_gt, compare_eq_iff_eq] at reads
  exact ⟨reads.1.imp_right fun ⟨even, same⟩ => ⟨same.symm, even⟩, reads.2.imp_right fun ⟨even, same⟩ => ⟨same, even⟩⟩

/-! ## The shortest decimal -/

theorem Binary.readsBack_of_onGrid? {tie : Tie} {grid : ℤ} (found : x.onGrid? tie grid = some d) : x.readsBack d := by
  unfold onGrid? at found
  dsimp only at found
  split at found
  · cases found
  · rename_i lower _
    cases found
    exact lower
  · rename_i _ upper
    cases found
    exact upper
  · rename_i lower upper
    split at found
    · cases found
      exact upper
    · cases found
      exact lower
    · split at found
      · cases found
        exact upper
      · split at found
        · cases found
          exact lower
        · cases found
          exact upper

theorem Binary.readsBack_of_search {tie : Tie} {more : ℕ} {grid : ℤ} (found : x.search tie more grid = some d) :
    x.readsBack d := by
  induction more generalizing grid with
  | zero => cases found
  | succ more ih =>
    unfold search at found
    split at found
    · rename_i here
      cases found
      exact readsBack_of_onGrid? here
    · exact ih found

theorem Scaled.value_strip (count : ℕ) (d : Scaled) : (strip count d).value = d.value := by
  induction count generalizing d with
  | zero => rfl
  | succ count ih =>
    unfold strip
    split
    · rename_i zero
      have tens : d.digits = d.digits / 10 * 10 := by omega
      rw [ih]
      unfold value
      conv => rhs; rw [tens]
      rw [zpow_add_one₀ (by norm_num)]
      push_cast
      ring
    · rfl

theorem Binary.value_exact (x : Binary) : x.exact.value = x.mantissa * 2 ^ x.exponent := by
  unfold exact Scaled.value
  dsimp only
  rw [Nat.pow_eq, Nat.pow_eq, zpow_eq_div (b := 2) (by norm_num)]
  by_cases negative : x.exponent < 0
  · have ten : (10 : ℚ) ^ x.exponent = (2 ^ (-x.exponent).toNat * 5 ^ (-x.exponent).toNat)⁻¹ := by
      rw [zpow_eq_div (by norm_num), Int.toNat_of_nonpos negative.le, ← mul_pow]
      norm_num
    rw [if_pos negative, ten]
    push_cast
    field_simp
  · rw [if_neg negative, Int.toNat_of_nonpos (by omega : -x.exponent ≤ 0)]
    push_cast
    simp

/-- The decimal that a number is written as rounds to it. -/
theorem Binary.rounds_shortest (canonical : Canonical m e) (shape : x = ⟨m, e, decide (m = 2 ^ 52 ∧ -1074 < e)⟩)
    (tie : Tie) : Rounds (x.shortest tie).value m e := by
  have some_ : x.mantissa ≠ 0 := by
    rw [shape]
    exact canonical.positive.ne'
  unfold shortest
  rw [if_neg some_]
  split
  · rename_i found
    rw [Scaled.value_strip]
    exact rounds_of_readsBack canonical shape (readsBack_of_search found)
  · rw [value_exact, shape]
    exact rounds_self m e

end Binary

end Reporting.Decimal
