import Mathlib

/-!
Floating-point numbers by their bits. A number is what its sign, its exponent and its mantissa make when they are
put together (`pack_unpack`), so that adding zero changes none but a zero (`add_zero_or`). Two numbers compare as their
places on the line do (`compare_eq_places`).
-/

namespace Reporting.Floats
open Float.Model Float.Model.UnpackedFloat

theorem toBitVec_ofBitVec (v : BitVec 1) : (Sign.ofBitVec v).toBitVec = v := by
  revert v
  decide

/-- The bits of a number are those of its sign, its exponent and its mantissa. -/
theorem packComponents_parts (b : BitVec Format.binary64.numBits) :
    packComponents .binary64 (Sign.ofBitVec (unpackSign b)) (unpackExponent b) (unpackMantissa b) = b := by
  unfold packComponents
  rw [toBitVec_ofBitVec]
  refine BitVec.eq_of_getLsbD_eq fun i below => ?_
  have inside : i < 64 := below
  simp only [BitVec.getLsbD_append, unpackSign, unpackExponent, unpackMantissa, BitVec.getLsbD_cast,
    BitVec.getLsbD_extractLsb]
  by_cases low : i < 52
  · simp [low]
  · by_cases middle : i - 52 < 11
    · simp [low, middle, show 52 + (i - 52) = i by omega]
    · have last : i = 63 := by omega
      subst last
      simp only [Nat.reduceLT, reduceIte, Nat.reduceSub, Nat.reduceAdd, Nat.sub_self, Nat.add_zero, decide_true,
        Bool.true_and]

/-- The exponent is neither the first, of small numbers, nor the last, of what is infinite or no number. -/
theorem pack_normal (s : Sign) {e : BitVec 11} {m : BitVec 52} (first : e ≠ 0#11) (last : e ≠ -1#11)
    {exponent : Int} (biased : exponent = (e.toNat : Int) - 1075) (positive : 0 < (1#1 ++ m).toNat) :
    UnpackedFloat.pack .binary64 (.finite s (1#1 ++ m).toNat exponent positive) = packComponents .binary64 s e m := by
  -- the leading bit, which is not kept, makes the mantissa one of 53 bits
  have mantissa : (1#1 ++ m).toNat = 2 ^ 52 + m.toNat := by
    rw [BitVec.toNat_append, ← Nat.shiftLeft_add_eq_or_of_lt m.isLt]
    rfl
  have inside := m.isLt
  have bits : (2 ^ 52 + m.toNat).log2 = 52 := by
    rw [Nat.log2_eq_iff (by omega)]
    omega
  have exponents : e.toNat ≠ 0 ∧ e.toNat ≠ 2047 := by
    refine ⟨fun zero => first (BitVec.eq_of_toNat_eq zero), fun ones => last (BitVec.eq_of_toNat_eq ?_)⟩
    rw [ones]
    rfl
  have small := e.isLt
  have again : (exponent + (Format.binary64.exponentBias : Nat) +
      (Format.binary64.mantissaBitsWithoutImplicit : Nat)).toNat = e.toNat := by
    have bias : Format.binary64.exponentBias = 1023 := rfl
    have width : Format.binary64.mantissaBitsWithoutImplicit = 52 := rfl
    omega
  have implicit : BitVec.ofNat 52 (2 ^ 52 + m.toNat) = m := by
    refine BitVec.eq_of_toNat_eq ?_
    rw [BitVec.toNat_ofNat]
    omega
  unfold UnpackedFloat.pack
  simp only [again, mantissa, bits]
  rw [if_neg (by omega), if_pos (show 52 + 1 = Format.binary64.mantissaBits from rfl), implicit, BitVec.ofNat_toNat,
    BitVec.setWidth_eq]

theorem pack_subnormal (s : Sign) {m : BitVec 52} (positive : 0 < m.toNat) :
    UnpackedFloat.pack .binary64 (.finite s m.toNat (-1074) positive) = packComponents .binary64 s 0#11 m := by
  have few : ¬m.toNat.log2 + 1 = Format.binary64.mantissaBits := by
    have below : m.toNat.log2 < 52 := (Nat.log2_lt (Nat.ne_of_gt positive)).2 m.isLt
    have width : Format.binary64.mantissaBits = 53 := rfl
    omega
  unfold UnpackedFloat.pack
  dsimp only
  rw [if_neg (by decide), if_neg few, BitVec.ofNat_toNat, BitVec.setWidth_eq]

/-- Taken apart and put together, a number is the same. -/
theorem pack_unpack (x : Float.Model) : Float.Model.pack x.unpack = x := by
  obtain ⟨bits, valid⟩ := x
  have parts := packComponents_parts bits.toBitVec
  have same : UnpackedFloat.pack .binary64 (UnpackedFloat.unpack .binary64 bits.toBitVec) = bits.toBitVec := by
    unfold UnpackedFloat.unpack
    dsimp only
    split
    · rename_i ones
      split
      · rename_i zero
        rw [ones, zero] at parts
        exact parts
      · rename_i nonzero
        exact (valid.eq_packedNaN ones nonzero).symm
    · rename_i notOnes
      split
      · rename_i zeros
        rw [zeros] at parts ⊢
        split
        · rename_i zero
          rw [zero] at parts
          exact parts
        · exact (pack_subnormal _ _).trans parts
      · rename_i notZeros
        exact (pack_normal _ notZeros notOnes rfl _).trans parts
  unfold Float.Model.pack Float.Model.unpack
  simp only [same]

/-- Zero added to a number changes nothing but the sign of a zero. -/
theorem add_zero_or (x : Float) : x + 0 = x ∨ (x == 0) = true ∧ (x + 0 == 0) = true := by
  have zero : (0 : Float).toModel.unpack = .zero .positive := rfl
  have same := pack_unpack x.toModel
  have sum : x + 0 = ⟨Float.Model.pack (UnpackedFloat.add .binary64 x.toModel.unpack (0 : Float).toModel.unpack)⟩ := rfl
  rw [sum, zero]
  cases parts : x.toModel.unpack with
  | zero s =>
    rw [parts] at same
    refine Or.inr ?_
    have it : x = ⟨Float.Model.pack (.zero s)⟩ := by rw [same]
    subst it
    cases s <;> decide
  | notANumber =>
    rw [parts] at same
    exact Or.inl (congrArg Float.ofModel same)
  | infinity s =>
    rw [parts] at same
    exact Or.inl (congrArg Float.ofModel same)
  | finite s m e positive =>
    rw [parts] at same
    exact Or.inl (congrArg Float.ofModel same)

theorem isNaN_of_isFinite {x : Float} (finite : x.isFinite) : x.isNaN = false := by
  have parts : x.toModel.unpack.isFinite = true := finite
  show x.toModel.unpack.isNaN = false
  cases unpacked : x.toModel.unpack with
  | notANumber =>
    rw [unpacked] at parts
    cases parts
  | _ => rfl

/-- What equals zero is one of the two zeros. -/
theorem eq_zero_of_beq {x : Float} (zero : (x == 0) = true) : x = 0 ∨ x = -0.0 := by
  have same := pack_unpack x.toModel
  have equal : (x.toModel.unpack.compare (.zero .positive) == some .eq) = true := zero
  cases parts : x.toModel.unpack with
  | zero s =>
    rw [parts] at same
    have it : x = ⟨Float.Model.pack (.zero s)⟩ := by rw [same]
    subst it
    cases s
    · exact Or.inr (by decide)
    · exact Or.inl (by decide)
  | notANumber =>
    rw [parts] at equal
    cases equal
  | infinity s =>
    rw [parts] at equal
    cases s <;> cases equal
  | finite s m e positive =>
    rw [parts] at equal
    cases s <;> cases equal

/-! ## Places on the line -/

/-- Where a number is on the line: on which side of zero, and how far from it. What is no number is nowhere. -/
def place? : UnpackedFloat → Option (Int × Int × Int)
  | notANumber => none
  | infinity .positive => some (2, 0, 0)
  | infinity .negative => some (-2, 0, 0)
  | zero _ => some (0, 0, 0)
  | finite .positive mantissa exponent _ => some (1, exponent, mantissa)
  | finite .negative mantissa exponent _ => some (-1, -exponent, -mantissa)

def orderPlaces : Int × Int × Int → Int × Int × Int → Ordering :=
  compareLex (compareOn (·.1)) (compareLex (compareOn (·.2.1)) (compareOn (·.2.2)))

instance : Std.TransCmp orderPlaces :=
  inferInstanceAs (Std.TransCmp (compareLex (compareOn _) (compareLex (compareOn _) (compareOn _))))

theorem compare_neg (a b : Int) : compare (-a) (-b) = compare b a := by
  rcases Int.lt_trichotomy a b with less | rfl | more
  · rw [Int.compare_eq_gt.2 less, Int.compare_eq_gt.2 (Int.neg_lt_neg less)]
  · rw [Int.compare_eq_eq.2 rfl, Int.compare_eq_eq.2 rfl]
  · rw [Int.compare_eq_lt.2 more, Int.compare_eq_lt.2 (Int.neg_lt_neg more)]

theorem compare_natCast (a b : Nat) : compare (a : Int) (b : Int) = compare a b := by
  rcases Nat.lt_trichotomy a b with less | rfl | more
  · rw [Nat.compare_eq_lt.2 less, Int.compare_eq_lt.2 (by omega)]
  · rw [Nat.compare_eq_eq.2 rfl, Int.compare_eq_eq.2 rfl]
  · rw [Nat.compare_eq_gt.2 more, Int.compare_eq_gt.2 (by omega)]

/-- Numbers compare as their places do. -/
theorem compare_eq_places (x y : UnpackedFloat) :
    x.compare y = (place? x).bind fun p => (place? y).map fun q => orderPlaces p q := by
  cases x with
  | notANumber => rfl
  | infinity s =>
    cases y with
    | notANumber => cases s <;> rfl
    | infinity t => cases s <;> cases t <;> rfl
    | zero t => cases s <;> rfl
    | finite t => cases s <;> cases t <;> rfl
  | zero s =>
    cases y with
    | notANumber => rfl
    | infinity t => cases t <;> rfl
    | zero t => rfl
    | finite t => cases t <;> rfl
  | finite s m e =>
    cases y with
    | notANumber => cases s <;> rfl
    | infinity t => cases s <;> cases t <;> rfl
    | zero t => cases s <;> rfl
    | finite t m' e' =>
      cases s with
      | positive =>
        cases t with
        | positive =>
          show some ((compare e e').then (compare m m')) = some ((compare e e').then (compare (m : Int) (m' : Int)))
          rw [compare_natCast]
        | negative => rfl
      | negative =>
        cases t with
        | positive => rfl
        | negative =>
          show some ((compare e e').then (compare m m')).swap =
            some ((compare (-e) (-e')).then (compare (-(m : Int)) (-(m' : Int))))
          rw [compare_neg, compare_neg, compare_natCast, Ordering.swap_then, ← Std.OrientedOrd.eq_swap,
            ← Std.OrientedOrd.eq_swap]

theorem compare_swap (x y : UnpackedFloat) : y.compare x = (x.compare y).map Ordering.swap := by
  rw [compare_eq_places, compare_eq_places]
  cases place? x with
  | none => cases place? y <;> rfl
  | some p =>
    cases place? y with
    | none => rfl
    | some q => exact congrArg some Std.OrientedCmp.eq_swap

theorem exists_place {x : Float} (number : x.isNaN = false) : ∃ p, place? x.toModel.unpack = some p := by
  have parts : x.toModel.unpack.isNaN = false := number
  cases unpacked : x.toModel.unpack with
  | notANumber =>
    rw [unpacked] at parts
    cases parts
  | infinity s => cases s <;> exact ⟨_, rfl⟩
  | zero s => exact ⟨_, rfl⟩
  | finite s => cases s <;> exact ⟨_, rfl⟩

end Reporting.Floats
