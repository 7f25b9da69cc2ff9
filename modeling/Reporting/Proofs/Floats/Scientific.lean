import Reporting.Decimal.Reader
import Reporting.Proofs.Calendar.Reading
import Reporting.Proofs.Floats.Rounding

/-!
Decimals as numbers. The number nearest to a decimal is the one whose interval the decimal lies in
(`Decimal.nearest_eq`).
-/

namespace Reporting.Floats
open Float.Model Float.Model.UnpackedFloat

/-! ## Numbers and their parts -/

section Parts
variable {m : ℕ} {e : ℤ} {s : Sign}

theorem unpackSign_packComponents (s : Sign) (e : BitVec 11) (m : BitVec 52) :
    unpackSign (packComponents .binary64 s e m) = s.toBitVec := by
  refine BitVec.eq_of_getLsbD_eq fun i below => ?_
  obtain rfl : i = 0 := by omega
  simp only [unpackSign, packComponents, BitVec.getLsbD_cast, BitVec.getLsbD_extractLsb, BitVec.getLsbD_append]
  rfl

theorem ofBitVec_toBitVec (s : Sign) : Sign.ofBitVec s.toBitVec = s := by
  cases s <;> rfl

theorem toNat_implicit (m : BitVec 52) : (1#1 ++ m).toNat = 2 ^ 52 + m.toNat := by
  rw [BitVec.toNat_append, ← Nat.shiftLeft_add_eq_or_of_lt m.isLt]
  rfl

/-- What the bits of a finite number hold: its mantissa, or all of it but the first bit, which the exponent stands for. -/
theorem bits_of_unpack {b : BitVec Format.binary64.numBits} {positive : 0 < m}
    (parts : UnpackedFloat.unpack .binary64 b = .finite s m e positive) : Sign.ofBitVec (unpackSign b) = s ∧
      ((unpackExponent b).toNat = 0 ∧ m = (unpackMantissa b).toNat ∧ e = -1074 ∨
        0 < (unpackExponent b).toNat ∧ (unpackExponent b).toNat < 2047 ∧ m = 2 ^ 52 + (unpackMantissa b).toNat ∧
          e = (unpackExponent b).toNat - 1075) := by
  have bias : (Format.binary64.exponentBias : ℤ) + (Format.binary64.mantissaBitsWithoutImplicit : ℕ) = 1075 := rfl
  unfold UnpackedFloat.unpack at parts
  dsimp only at parts
  rw [bias] at parts
  have range : (unpackExponent b).toNat < 2 ^ 11 := (unpackExponent b).isLt
  split at parts
  · split at parts <;> cases parts
  · rename_i notOnes
    have finite_ : (unpackExponent b).toNat ≠ 2047 := fun ones => notOnes (BitVec.eq_of_toNat_eq ones)
    split at parts
    · rename_i zeros
      split at parts
      · cases parts
      · cases parts
        rw [zeros]
        exact ⟨rfl, Or.inl ⟨rfl, rfl, rfl⟩⟩
    · rename_i notZeros
      have some_ : (unpackExponent b).toNat ≠ 0 := fun zero => notZeros (BitVec.eq_of_toNat_eq zero)
      injection parts with sign mantissa exponent
      rw [toNat_implicit] at mantissa
      exact ⟨sign, Or.inr ⟨by omega, by omega, mantissa.symm, exponent.symm⟩⟩

/-- The parts of a finite number are a canonical mantissa and exponent. -/
theorem canonical_of_unpack {b : BitVec Format.binary64.numBits} {positive : 0 < m}
    (parts : UnpackedFloat.unpack .binary64 b = .finite s m e positive) : Canonical m e := by
  have inside : (unpackMantissa b).toNat < 2 ^ 52 := (unpackMantissa b).isLt
  obtain ⟨_, ⟨_, rfl, rfl⟩ | ⟨some_, finite_, rfl, rfl⟩⟩ := bits_of_unpack parts
  · exact ⟨positive, by omega, by decide, by decide, Or.inr rfl⟩
  · exact ⟨positive, by omega, by omega, by omega, Or.inl (by omega)⟩

/-- What is put together is a number, unless it was none or has the exponent of what is none. -/
theorem isNaN_packComponents (s : Sign) {e : BitVec 11} {m : BitVec 52} (number : e ≠ -1#11 ∨ m = 0#52) :
    (UnpackedFloat.unpack .binary64 (packComponents .binary64 s e m)).isNaN = false := by
  unfold UnpackedFloat.unpack
  simp only [unpackExponent_packComponents, unpackMantissa_packComponents]
  split
  · rename_i ones
    rw [if_pos (number.resolve_left fun other => other ones)]
    rfl
  · split
    · split <;> rfl
    · rfl

theorem isNaN_pack {u : UnpackedFloat} (number : u.isNaN = false) : (Float.Model.pack u).unpack.isNaN = false := by
  show (UnpackedFloat.unpack .binary64 (UnpackedFloat.pack .binary64 u)).isNaN = false
  cases u with
  | notANumber => cases number
  | infinity s => exact isNaN_packComponents s (Or.inr rfl)
  | zero s => exact isNaN_packComponents s (Or.inr rfl)
  | finite s m e positive =>
    unfold UnpackedFloat.pack
    dsimp only
    split
    · exact isNaN_packComponents s (Or.inr rfl)
    · rename_i inside
      split
      · refine isNaN_packComponents s (Or.inl fun ones => inside ?_)
        have last := congrArg BitVec.toNat ones
        rw [BitVec.toNat_ofNat, show (-1#11).toNat = 2047 from rfl] at last
        have := Nat.mod_le (e + (Format.binary64.exponentBias : ℤ) + (Format.binary64.mantissaBitsWithoutImplicit : ℕ)).toNat (2 ^ 11)
        show 2 ^ 11 ≤ _ + 1
        omega
      · exact isNaN_packComponents s (Or.inl (by decide))

/-- Put together and taken apart, a finite number is the same. -/
theorem unpack_pack_finite (canonical : Canonical m e) (s : Sign) :
    (Float.Model.pack (.finite s m e canonical.positive)).unpack = .finite s m e canonical.positive := by
  have bias : (Format.binary64.exponentBias : ℤ) + (Format.binary64.mantissaBitsWithoutImplicit : ℕ) = 1075 := rfl
  have short := canonical.short
  have least := canonical.least
  have most := canonical.most
  show UnpackedFloat.unpack .binary64 (UnpackedFloat.pack .binary64 (.finite s m e canonical.positive)) = _
  rcases Nat.lt_or_ge m (2 ^ 52) with small | full
  · obtain rfl : e = -1074 := canonical.full.resolve_left (by omega)
    have value : (BitVec.ofNat 52 m).toNat = m := Nat.mod_eq_of_lt small
    have some_ : BitVec.ofNat 52 m ≠ 0#52 := by
      intro none_
      have := congrArg BitVec.toNat none_
      rw [value] at this
      exact canonical.positive.ne' this
    have packed := pack_subnormal s (m := BitVec.ofNat 52 m) (by rw [value]; exact canonical.positive)
    simp only [value] at packed
    rw [packed]
    unfold UnpackedFloat.unpack
    simp only [unpackExponent_packComponents, unpackMantissa_packComponents, unpackSign_packComponents, ofBitVec_toBitVec]
    rw [if_neg (by decide), if_pos trivial, dif_neg some_]
    simp only [value]
    rfl
  · have value : (1#1 ++ BitVec.ofNat 52 m).toNat = m := by
      rw [toNat_implicit, BitVec.toNat_ofNat]
      omega
    have exponent : (BitVec.ofNat 11 (e + 1075).toNat).toNat = (e + 1075).toNat := Nat.mod_eq_of_lt (by omega)
    have first : BitVec.ofNat 11 (e + 1075).toNat ≠ 0#11 := by
      intro zeros
      have := congrArg BitVec.toNat zeros
      rw [exponent, BitVec.toNat_zero] at this
      omega
    have last : BitVec.ofNat 11 (e + 1075).toNat ≠ -1#11 := by
      intro ones
      have := congrArg BitVec.toNat ones
      rw [exponent, show (-1#11).toNat = 2047 from rfl] at this
      omega
    have biased : e = ((BitVec.ofNat 11 (e + 1075).toNat).toNat : ℤ) - 1075 := by
      rw [exponent]
      omega
    have packed := pack_normal s (m := BitVec.ofNat 52 m) first last biased (by rw [value]; exact canonical.positive)
    simp only [value] at packed
    rw [packed]
    unfold UnpackedFloat.unpack
    simp only [unpackExponent_packComponents, unpackMantissa_packComponents, unpackSign_packComponents, ofBitVec_toBitVec]
    rw [if_neg last, if_neg first]
    simp only [value, exponent, bias]
    congr 1
    omega

end Parts

/-! ## Natural numbers and powers of ten -/

/-- The number is finite, with all bits of the mantissa in use, and is the natural one. -/
def Holds (x : Float) (n : ℕ) : Prop :=
  ∃ m e, ∃ positive, x.toModel.unpack = .finite .positive m e positive ∧ 2 ^ 52 ≤ m ∧ (m : ℚ) * 2 ^ e = n

theorem log2_shiftLeft {n : ℕ} (some_ : 0 < n) (shift : ℕ) : (n <<< shift).log2 = n.log2 + shift := by
  have positive : 0 < 2 ^ shift := Nat.two_pow_pos shift
  rw [Nat.shiftLeft_eq, Nat.log2_eq_iff (Nat.mul_pos some_ positive).ne', Nat.add_right_comm, pow_add, pow_add _ _ shift]
  exact ⟨Nat.mul_le_mul_right _ (Nat.log2_self_le some_.ne'), Nat.mul_lt_mul_of_pos_right Nat.lt_log2_self positive⟩

theorem round_eq {m n : ℕ} {e k : ℤ} (some_ : 0 < n) (canonical : Canonical m e) (rounds : Rounds (n * 2 ^ k) m e) (s : Sign) :
    UnpackedFloat.round .binary64 s n k = .finite s m e canonical.positive := by
  unfold UnpackedFloat.round decreaseExponent
  dsimp only
  rw [targetExponent_eq]
  generalize amount : (k - max ((n.log2 : ℤ) + k - 52) (-1074)).toNat = shift
  have bits := log2_shiftLeft some_ shift
  refine roundWithAccuracy_eq canonical rounds ?_ (by omega) s
  have value : (n : ℚ) * 2 ^ k / 2 ^ (k - shift) = (n <<< shift : ℕ) := by
    have unit := two_zpow_pos (k - shift)
    have split : (2 : ℚ) ^ k = 2 ^ (k - shift) * 2 ^ shift := by
      rw [← zpow_natCast, ← two_zpow_add]
      congr 1
      ring
    rw [div_eq_iff unit.ne', split, Nat.shiftLeft_eq]
    push_cast
    ring
  rw [value]
  exact .exact _

theorem holds_toFloat {n : ℕ} (some_ : 0 < n) (short : n < 2 ^ 53) : Holds n.toUInt64.toFloat n := by
  have bits : n.log2 < 53 := (Nat.log2_lt some_.ne').2 short
  have full : (n <<< (52 - n.log2)).log2 = 52 := by
    rw [log2_shiftLeft some_]
    omega
  obtain ⟨least, most⟩ := (Nat.log2_eq_iff (Nat.shiftLeft_pos_iff.2 some_).ne').1 full
  have canonical : Canonical (n <<< (52 - n.log2)) (n.log2 - 52) :=
    ⟨by omega, most, by omega, by omega, Or.inl least⟩
  have value : ((n <<< (52 - n.log2) : ℕ) : ℚ) * 2 ^ ((n.log2 : ℤ) - 52) = n := by
    have exponent : (n.log2 : ℤ) - 52 = -((52 - n.log2 : ℕ) : ℤ) := by omega
    rw [exponent, zpow_neg, zpow_natCast, Nat.shiftLeft_eq]
    push_cast
    field_simp
  have rounds : Rounds (n * 2 ^ (0 : ℤ)) (n <<< (52 - n.log2)) (n.log2 - 52) := by
    rw [zpow_zero, mul_one, ← value]
    exact rounds_self _ _
  refine ⟨_, _, canonical.positive, ?_, least, value⟩
  have same : n.toUInt64.toNat = n := Nat.mod_eq_of_lt (by omega)
  have rounded : UnpackedFloat.ofUInt64 .binary64 n.toUInt64 =
      .finite .positive (n <<< (52 - n.log2)) (n.log2 - 52) canonical.positive := by
    show UnpackedFloat.normalize .binary64 (n.toUInt64.toNat : ℤ) 0 .positive = _
    rw [same]
    unfold UnpackedFloat.normalize
    rw [Int.compare_eq_gt.2 (by exact_mod_cast some_)]
    exact round_eq some_ canonical rounds .positive
  show (Float.Model.pack (UnpackedFloat.ofUInt64 .binary64 n.toUInt64)).unpack = _
  rw [rounded]
  exact unpack_pack_finite canonical .positive

/-- A power with an exponent that can be negative, in powers with natural ones. -/
theorem zpow_eq_div {b : ℚ} (some_ : b ≠ 0) (e : ℤ) : b ^ e = b ^ e.toNat / b ^ (-e).toNat := by
  rw [← zpow_natCast, ← zpow_natCast, ← zpow_sub₀ some_]
  congr 1
  omega

/-- The test whether a number is a power of ten, with all bits of the mantissa in use. -/
def isPowerOfTen (k : ℕ) : UnpackedFloat → Bool
  | .finite .positive m e _ => 2 ^ 52 ≤ m && m * 2 ^ e.toNat == 10 ^ k * 2 ^ (-e).toNat
  | _ => false

theorem powersOfTen : ∀ k : Fin Float.exactlyRepresentablePowersOfTen.size,
    isPowerOfTen k Float.exactlyRepresentablePowersOfTen[k].toModel.unpack := by
  decide

/-- Powers of ten that are numbers themselves. -/
theorem holds_powerOfTen {k : ℕ} (small : k < Float.exactlyRepresentablePowersOfTen.size) :
    Holds Float.exactlyRepresentablePowersOfTen[k] (10 ^ k) := by
  have tested := powersOfTen ⟨k, small⟩
  simp only at tested
  unfold isPowerOfTen at tested
  split at tested
  · rename_i m e positive parts
    rw [Bool.and_eq_true, decide_eq_true_eq, beq_iff_eq] at tested
    refine ⟨m, e, positive, parts, tested.1, ?_⟩
    rw [zpow_eq_div (by norm_num), ← mul_div_assoc, div_eq_iff (by positivity)]
    exact_mod_cast tested.2
  · cases tested

/-! ## Decimals -/

section Decimals
variable {digits m : ℕ} {exponent e : ℤ}

/-- The finite positive number. -/
def finite (canonical : Canonical m e) : Float :=
  ⟨Float.Model.pack (.finite .positive m e canonical.positive)⟩

theorem mul_of_holds {x y : Float} {n n' : ℕ} (left : Holds x n) (right : Holds y n') (canonical : Canonical m e)
    (rounds : Rounds (n * n') m e) : x * y = finite canonical := by
  obtain ⟨m₁, e₁, positive₁, parts₁, full₁, value₁⟩ := left
  obtain ⟨m₂, e₂, positive₂, parts₂, full₂, value₂⟩ := right
  have product : UnpackedFloat.mul .binary64 x.toModel.unpack y.toModel.unpack = .finite .positive m e canonical.positive := by
    rw [parts₁, parts₂]
    refine mul_eq canonical ?_ positive₁ positive₂ (by nlinarith)
    rw [value₁, value₂]
    exact rounds
  show (⟨Float.Model.pack (UnpackedFloat.mul .binary64 x.toModel.unpack y.toModel.unpack)⟩ : Float) = _
  rw [product]
  rfl

theorem div_of_holds {x y : Float} {n n' : ℕ} (left : Holds x n) (right : Holds y n') (canonical : Canonical m e)
    (rounds : Rounds (n / n') m e) : x / y = finite canonical := by
  obtain ⟨m₁, e₁, positive₁, parts₁, _, value₁⟩ := left
  obtain ⟨m₂, e₂, positive₂, parts₂, _, value₂⟩ := right
  have quotient : UnpackedFloat.div .binary64 x.toModel.unpack y.toModel.unpack = .finite .positive m e canonical.positive := by
    rw [parts₁, parts₂]
    refine div_eq canonical ?_ positive₁ positive₂
    rw [value₁, value₂]
    exact rounds
  show (⟨Float.Model.pack (UnpackedFloat.div .binary64 x.toModel.unpack y.toModel.unpack)⟩ : Float) = _
  rw [quotient]
  rfl

/-- A decimal whose exponent is not far out is computed with all of its digits. -/
theorem model_ofScientific_eq (some_ : 0 < digits) (canonical : Canonical m e) (rounds : Rounds (digits * 10 ^ exponent) m e)
    (least : -((2 ^ 11 : ℤ) + digits.log2) ≤ exponent) (most : exponent ≤ 2 ^ 11) :
    UnpackedFloat.ofScientific .binary64 digits exponent = .finite .positive m e canonical.positive := by
  unfold UnpackedFloat.ofScientific
  rw [dif_neg some_.ne', if_neg (not_lt.2 most), if_neg (not_lt.2 least)]
  have power (k : ℕ) : 0 < 10 ^ k := Nat.pow_pos (by norm_num)
  by_cases negative : exponent < 0
  · rw [if_neg (not_le.2 negative)]
    refine div_eq canonical ?_ some_ (power _)
    have value : (digits : ℚ) * 2 ^ (0 : ℤ) / ((10 ^ (-exponent).toNat : ℕ) * 2 ^ (0 : ℤ)) = digits * 10 ^ exponent := by
      rw [zpow_eq_div (b := 10) (by norm_num), Int.toNat_of_nonpos negative.le]
      push_cast
      ring
    rw [value]
    exact rounds
  · rw [if_pos (not_lt.1 negative)]
    have wide : 2 ^ 52 ≤ digits <<< 53 * 10 ^ exponent.toNat := by
      rw [Nat.shiftLeft_eq]
      nlinarith [power exponent.toNat]
    refine mul_eq canonical ?_ (Nat.shiftLeft_pos_iff.2 some_) (power _) wide
    have value : ((digits <<< 53 : ℕ) : ℚ) * 2 ^ (-53 : ℤ) * ((10 ^ exponent.toNat : ℕ) * 2 ^ (0 : ℤ)) =
        digits * 10 ^ exponent := by
      rw [zpow_eq_div (b := 10) (by norm_num), Int.toNat_of_nonpos (by omega : -exponent ≤ 0), Nat.shiftLeft_eq, zpow_neg]
      push_cast
      field_simp
    show Rounds (((digits <<< 53 : ℕ) : ℚ) * 2 ^ (-53 : ℤ) * ((10 ^ exponent.toNat : ℕ) * 2 ^ (0 : ℤ))) m e
    rw [value]
    exact rounds

theorem ofScientific_eq (some_ : 0 < digits) (canonical : Canonical m e) (rounds : Rounds (digits * 10 ^ exponent) m e)
    (least : -((2 ^ 11 : ℤ) + digits.log2) ≤ exponent) (most : exponent ≤ 2 ^ 11) :
    Float.ofScientific digits (decide (exponent < 0)) exponent.natAbs = finite canonical := by
  unfold Float.ofScientific
  split
  · rename_i small
    have whole := holds_toFloat some_ small.1
    have power := holds_powerOfTen (Nat.lt_succ_of_le small.2)
    split
    · rename_i negative
      refine div_of_holds whole power canonical ?_
      have places : exponent = -(exponent.natAbs : ℤ) := by
        have := of_decide_eq_true negative
        omega
      have value : (digits : ℚ) / (10 ^ exponent.natAbs : ℕ) = digits * 10 ^ exponent := by
        conv => rhs; rw [places, zpow_neg, zpow_natCast]
        push_cast
        rw [div_eq_mul_inv]
      rw [value]
      exact rounds
    · rename_i positive
      refine mul_of_holds whole power canonical ?_
      have zeros : exponent = (exponent.natAbs : ℤ) := by
        have : ¬ exponent < 0 := fun negative => positive (decide_eq_true negative)
        omega
      have value : (digits : ℚ) * (10 ^ exponent.natAbs : ℕ) = digits * 10 ^ exponent := by
        conv => rhs; rw [zeros, zpow_natCast]
        push_cast
        rfl
      rw [value]
      exact rounds
  · have same : (if decide (exponent < 0) = true then Int.negOfNat exponent.natAbs else Int.ofNat exponent.natAbs) = exponent := by
      split
      · rename_i negative
        have := of_decide_eq_true negative
        rw [Int.negOfNat_eq]
        show -(exponent.natAbs : ℤ) = exponent
        omega
      · rename_i positive
        have : ¬ exponent < 0 := fun negative => positive (decide_eq_true negative)
        show (exponent.natAbs : ℤ) = exponent
        omega
    dsimp only
    rw [same]
    unfold Float.Model.ofScientific
    rw [model_ofScientific_eq some_ canonical rounds least most]
    rfl

/-! ## Decimals of any size -/

theorem isNaN_roundWithAccuracy (s : Sign) (n : ℕ) (k : ℤ) (a : Accuracy) :
    (roundWithAccuracy .binary64 s n k a).isNaN = false := by
  unfold roundWithAccuracy
  dsimp only
  split <;> rfl

theorem isNaN_model_ofScientific (digits : ℕ) (exponent : ℤ) :
    (UnpackedFloat.ofScientific .binary64 digits exponent).isNaN = false := by
  unfold UnpackedFloat.ofScientific
  split
  · rfl
  · split
    · rfl
    · split
      · rfl
      · split
        · exact isNaN_roundWithAccuracy ..
        · exact isNaN_roundWithAccuracy ..

theorem isNaN_mul {x y : Float} {n n' : ℕ} (left : Holds x n) (right : Holds y n') : (x * y).isNaN = false := by
  obtain ⟨m₁, e₁, positive₁, parts₁, _⟩ := left
  obtain ⟨m₂, e₂, positive₂, parts₂, _⟩ := right
  refine isNaN_pack (u := UnpackedFloat.mul .binary64 x.toModel.unpack y.toModel.unpack) ?_
  rw [parts₁, parts₂]
  exact isNaN_roundWithAccuracy ..

theorem isNaN_div {x y : Float} {n n' : ℕ} (left : Holds x n) (right : Holds y n') : (x / y).isNaN = false := by
  obtain ⟨m₁, e₁, positive₁, parts₁, _⟩ := left
  obtain ⟨m₂, e₂, positive₂, parts₂, _⟩ := right
  refine isNaN_pack (u := UnpackedFloat.div .binary64 x.toModel.unpack y.toModel.unpack) ?_
  rw [parts₁, parts₂]
  exact isNaN_roundWithAccuracy ..

/-- Decimals are numbers, if only infinite ones. -/
theorem isNaN_ofScientific (some_ : 0 < digits) (negative : Bool) (k : ℕ) :
    (Float.ofScientific digits negative k).isNaN = false := by
  unfold Float.ofScientific
  split
  · rename_i small
    have whole := holds_toFloat some_ small.1
    have power := holds_powerOfTen (Nat.lt_succ_of_le small.2)
    split
    · exact isNaN_div whole power
    · exact isNaN_mul whole power
  · exact isNaN_pack (isNaN_model_ofScientific ..)

end Decimals
end Reporting.Floats

namespace Reporting.Decimal
open Floats Text
variable {digits m : ℕ} {exponent e : ℤ}

theorem length_digitsOf_pos (n : ℕ) : 0 < (digitsOf n).length :=
  List.length_pos_of_ne_nil (digitsOf_ne_nil n)

theorem pow_le_of_digitsOf (some_ : 0 < digits) : 10 ^ ((digitsOf digits).length - 1) ≤ digits := by
  by_contra less
  rcases Nat.eq_zero_or_pos ((digitsOf digits).length - 1) with none_ | some'
  · rw [none_] at less
    omega
  · have shorter := (Nat.length_toDigits_le_iff (b := 10) (by norm_num) some').2 (not_le.1 less)
    have positive := length_digitsOf_pos digits
    unfold digitsOf at some' positive
    unfold digitsOf at shorter
    omega

theorem lt_pow_digitsOf (digits : ℕ) : digits < 10 ^ (digitsOf digits).length :=
  (Nat.length_toDigits_le_iff (b := 10) (by norm_num) (length_digitsOf_pos digits)).1 le_rfl

theorem ten_zpow_add (d e : ℤ) : (10 : ℚ) ^ (d + e) = 10 ^ d * 10 ^ e :=
  zpow_add₀ (by norm_num) d e

theorem ten_zpow_le {d e : ℤ} (below : d ≤ e) : (10 : ℚ) ^ d ≤ 10 ^ e :=
  zpow_le_zpow_right₀ (by norm_num) below

theorem two_pow_le_ten_pow (k : ℕ) : (2 : ℚ) ^ ((3 * k : ℕ) : ℤ) ≤ 10 ^ (k : ℤ) := by
  rw [zpow_natCast, zpow_natCast, pow_mul]
  exact pow_le_pow_left₀ (by norm_num) (by norm_num) k

/-- Decimals that round to a finite number are not so far out that their digits are not looked at. -/
theorem lead_of_rounds (some_ : 0 < digits) (canonical : Canonical m e) (rounds : Rounds (digits * 10 ^ exponent) m e) :
    -400 ≤ ((digitsOf digits).length : ℤ) + exponent ∧ ((digitsOf digits).length : ℤ) + exponent ≤ 400 := by
  have power : (0 : ℚ) < 10 ^ exponent := zpow_pos (by norm_num) exponent
  have positive := length_digitsOf_pos digits
  constructor
  · by_contra tiny
    have below : (digits : ℚ) * 10 ^ exponent < 10 ^ (-401 : ℤ) := by
      have digits_ : (digits : ℚ) < 10 ^ ((digitsOf digits).length : ℤ) := by
        rw [zpow_natCast]
        exact_mod_cast lt_pow_digitsOf digits
      calc
        (digits : ℚ) * 10 ^ exponent < 10 ^ ((digitsOf digits).length : ℤ) * 10 ^ exponent :=
          mul_lt_mul_of_pos_right digits_ power
        _ = 10 ^ (((digitsOf digits).length : ℤ) + exponent) := (ten_zpow_add _ _).symm
        _ ≤ 10 ^ (-401 : ℤ) := ten_zpow_le (by omega)
    have above : (1 : ℚ) / 2 * 2 ^ (-1074 : ℤ) ≤ digits * 10 ^ exponent := by
      have one : (1 : ℚ) / 2 ≤ m - 1 / 2 := by
        have : (1 : ℚ) ≤ m := by exact_mod_cast canonical.positive
        linarith
      have unit : (2 : ℚ) ^ (-1074 : ℤ) ≤ 2 ^ e := zpow_le_zpow_right₀ (by norm_num) canonical.least
      exact (mul_le_mul one unit (two_zpow_pos _).le (by linarith)).trans rounds.half_le
    have apart : (10 : ℚ) ^ (-401 : ℤ) ≤ 1 / 2 * 2 ^ (-1074 : ℤ) := by
      calc
        (10 : ℚ) ^ (-401 : ℤ) = (10 ^ ((401 : ℕ) : ℤ))⁻¹ := zpow_neg 10 401
        _ ≤ (2 ^ ((3 * 401 : ℕ) : ℤ))⁻¹ := inv_anti₀ (two_zpow_pos _) (two_pow_le_ten_pow 401)
        _ = 2 ^ (-1203 : ℤ) := (zpow_neg 2 1203).symm
        _ ≤ 2 ^ (-1 + -1074 : ℤ) := zpow_le_zpow_right₀ (by norm_num) (by norm_num)
        _ = 1 / 2 * 2 ^ (-1074 : ℤ) := by rw [two_zpow_add, zpow_neg_one, one_div]
    exact absurd (above.trans_lt below) (not_lt.2 apart)
  · by_contra huge
    have above : (10 : ℚ) ^ (400 : ℤ) ≤ digits * 10 ^ exponent := by
      have digits_ : (10 : ℚ) ^ (((digitsOf digits).length - 1 : ℕ) : ℤ) ≤ digits := by
        rw [zpow_natCast]
        exact_mod_cast pow_le_of_digitsOf some_
      calc
        (10 : ℚ) ^ (400 : ℤ) ≤ 10 ^ ((((digitsOf digits).length - 1 : ℕ) : ℤ) + exponent) := ten_zpow_le (by omega)
        _ = 10 ^ (((digitsOf digits).length - 1 : ℕ) : ℤ) * 10 ^ exponent := ten_zpow_add _ _
        _ ≤ digits * 10 ^ exponent := mul_le_mul_of_nonneg_right digits_ power.le
    have below : (digits : ℚ) * 10 ^ exponent ≤ 2 ^ (53 : ℤ) * 2 ^ (971 : ℤ) := by
      have short : (m : ℚ) + 1 / 2 ≤ 2 ^ (53 : ℤ) := by
        have : (m : ℚ) + 1 ≤ 2 ^ (53 : ℤ) := by exact_mod_cast canonical.short
        linarith
      have unit : (2 : ℚ) ^ e ≤ 2 ^ (971 : ℤ) := zpow_le_zpow_right₀ (by norm_num) canonical.most
      exact rounds.le_half.trans (mul_le_mul short unit (two_zpow_pos _).le (two_zpow_pos _).le)
    have apart : (2 : ℚ) ^ (53 : ℤ) * 2 ^ (971 : ℤ) < 10 ^ (400 : ℤ) := by
      calc
        (2 : ℚ) ^ (53 : ℤ) * 2 ^ (971 : ℤ) = 2 ^ (53 + 971 : ℤ) := (two_zpow_add 53 971).symm
        _ < 2 ^ ((3 * 400 : ℕ) : ℤ) := two_zpow_lt.2 (by norm_num)
        _ ≤ 10 ^ ((400 : ℕ) : ℤ) := two_pow_le_ten_pow 400
    exact absurd (above.trans below) (not_le.2 apart)

/-- A decimal is read as the finite number whose interval it lies in. -/
theorem nearest_eq (canonical : Canonical m e) (rounds : Rounds (digits * 10 ^ exponent) m e) :
    nearest digits exponent = finite canonical := by
  have some_ : 0 < digits := by
    refine Nat.pos_of_ne_zero fun none_ => ?_
    have positive := rounds.pos canonical
    rw [none_] at positive
    simp at positive
  obtain ⟨least, most⟩ := lead_of_rounds some_ canonical rounds
  have positive := length_digitsOf_pos digits
  have bits : (digitsOf digits).length - 1 ≤ digits.log2 := by
    rw [Nat.le_log2 some_.ne']
    exact (Nat.pow_le_pow_left (by norm_num) _).trans (pow_le_of_digitsOf some_)
  unfold nearest
  rw [if_neg some_.ne']
  dsimp only
  rw [if_neg (by omega), if_neg (by omega)]
  exact ofScientific_eq some_ canonical rounds (by omega) (by omega)

theorem isNaN_nearest (digits : ℕ) (exponent : ℤ) : (nearest digits exponent).isNaN = false := by
  unfold nearest
  split
  · decide
  · rename_i some_
    dsimp only
    split
    · exact isNaN_ofScientific Nat.one_pos false 400
    · split
      · decide
      · exact isNaN_ofScientific (Nat.pos_of_ne_zero some_) ..

/-- A natural number of few digits is read as the number that it stands for. -/
theorem nearest_natural {n : ℕ} (short : n < 10 ^ 20) : nearest n 0 = Float.ofNat n := by
  have length : (digitsOf n).length ≤ 20 := (Nat.length_toDigits_le_iff (b := 10) (by norm_num) (by norm_num)).2 short
  unfold nearest
  split
  · rename_i zero
    rw [zero]
    rfl
  · dsimp only
    rw [if_neg (by omega), if_neg (by omega)]
    rfl

end Reporting.Decimal
