import Mathlib
import Reporting.Proofs.Floats

/-!
Rounding. A number is rounded to the finite one whose interval it lies in (`roundWithAccuracy_eq`), whichever way it is
given: as a product (`mul_eq`) or as a quotient (`div_eq`).
-/

namespace Reporting.Floats
open Float.Model Float.Model.UnpackedFloat

/-! ## Mantissas with what is left over -/

/-- The mantissa is the integral part of the number, and the bits after it tell on which side of the middle the number
lies. -/
inductive Approximates : ExtendedMantissa → ℚ → Prop where
  | exact (n : ℕ) : Approximates ⟨n, false, false⟩ n
  | low {n : ℕ} {x : ℚ} (above : n < x) (below : x < n + 1 / 2) : Approximates ⟨n, false, true⟩ x
  | half (n : ℕ) : Approximates ⟨n, true, false⟩ (n + 1 / 2)
  | high {n : ℕ} {x : ℚ} (above : n + 1 / 2 < x) (below : x < n + 1) : Approximates ⟨n, true, true⟩ x

section Approximates
variable {em : ExtendedMantissa} {x : ℚ}

/-- The mantissa is the number, or the number lies between it and the next. -/
theorem Approximates.exact_or_between (approximates : Approximates em x) :
    em.roundBit = false ∧ em.stickyBit = false ∧ x = em.mantissa ∨
      (em.roundBit || em.stickyBit) = true ∧ (em.mantissa : ℚ) < x ∧ x < em.mantissa + 1 := by
  cases approximates with
  | exact n => exact Or.inl ⟨rfl, rfl, rfl⟩
  | low above below => exact Or.inr ⟨rfl, above, by linarith⟩
  | half n => exact Or.inr ⟨rfl, by simp, by norm_num⟩
  | high above below => exact Or.inr ⟨rfl, by linarith, below⟩

theorem Approximates.bounds (approximates : Approximates em x) : (em.mantissa : ℚ) ≤ x ∧ x < em.mantissa + 1 := by
  rcases approximates.exact_or_between with ⟨_, _, rfl⟩ | ⟨_, above, below⟩
  · exact ⟨le_rfl, by simp⟩
  · exact ⟨above.le, below⟩

theorem Approximates.shiftRightOne (approximates : Approximates em x) : Approximates em.shiftRightOne (x / 2) := by
  -- The last bit of the mantissa becomes the first one after it.
  have shift_even (k : ℕ) (r s : Bool) : ExtendedMantissa.shiftRightOne ⟨2 * k, r, s⟩ = ⟨k, false, r || s⟩ := by
    simp [ExtendedMantissa.shiftRightOne]
  have shift_odd (k : ℕ) (r s : Bool) : ExtendedMantissa.shiftRightOne ⟨2 * k + 1, r, s⟩ = ⟨k, true, r || s⟩ := by
    simp [ExtendedMantissa.shiftRightOne]
    omega
  have between := approximates.exact_or_between
  obtain ⟨n, r, s⟩ := em
  obtain ⟨k, rfl | rfl⟩ := n.even_or_odd'
  · rw [shift_even]
    rcases between with ⟨none_, none', value⟩ | ⟨some_, above, below⟩
    · obtain rfl : r = false := none_
      obtain rfl : s = false := none'
      have half : x / 2 = k := by
        rw [value]
        push_cast
        ring
      rw [half]
      exact .exact k
    · push_cast at above below
      rw [some_]
      exact .low (by linarith) (by linarith)
  · rw [shift_odd]
    rcases between with ⟨none_, none', value⟩ | ⟨some_, above, below⟩
    · obtain rfl : r = false := none_
      obtain rfl : s = false := none'
      have half : x / 2 = k + 1 / 2 := by
        rw [value]
        push_cast
        ring
      rw [half]
      exact .half k
    · push_cast at above below
      rw [some_]
      exact .high (by linarith) (by linarith)

theorem Approximates.shiftRight (approximates : Approximates em x) (count : ℕ) :
    Approximates (em >>> count) (x / 2 ^ count) := by
  show Approximates (count.repeat ExtendedMantissa.shiftRightOne em) (x / 2 ^ count)
  induction count with
  | zero => simpa [Nat.repeat] using approximates
  | succ count ih =>
    have value : x / 2 ^ (count + 1) = x / 2 ^ count / 2 := by rw [pow_succ, div_div]
    rw [value]
    exact ih.shiftRightOne

/-- The natural number is the nearest, or an even one of two that are equally near. -/
def Nearest (x : ℚ) (n : ℕ) : Prop :=
  ((n : ℚ) - 1 / 2 < x ∨ n - 1 / 2 = x ∧ n % 2 = 0) ∧ (x < n + 1 / 2 ∨ x = n + 1 / 2 ∧ n % 2 = 0)

theorem Approximates.roundedMantissa_eq (approximates : Approximates em x) {n : ℕ} (nearest : Nearest x n) :
    em.roundedMantissa = n := by
  obtain ⟨lower, upper⟩ := nearest
  have least : (n : ℚ) - 1 / 2 ≤ x := by
    rcases lower with less | ⟨same, _⟩ <;> linarith
  have most : x ≤ n + 1 / 2 := by
    rcases upper with less | ⟨same, _⟩ <;> linarith
  cases approximates with
  | exact k =>
    have below : (k : ℚ) < n + 1 := by linarith
    have above : (n : ℚ) < k + 1 := by linarith
    norm_cast at below above
    show k = n
    omega
  | @low k x above below =>
    have below' : (k : ℚ) < n + 1 := by linarith
    have above' : (n : ℚ) < k + 1 := by linarith
    norm_cast at below' above'
    show k = n
    omega
  | half k =>
    have below : (k : ℚ) < n + 1 := by linarith
    have above : (n : ℚ) < k + 2 := by linarith
    norm_cast at below above
    show k + k % 2 = n
    rcases (by omega : n = k ∨ n = k + 1) with rfl | rfl
    · rcases upper with less | ⟨_, even⟩
      · exact absurd less (lt_irrefl _)
      · omega
    · rcases lower with less | ⟨_, even⟩
      · push_cast at less
        linarith
      · omega
  | @high k x above below =>
    have below' : (k : ℚ) < n := by linarith
    have above' : (n : ℚ) < k + 2 := by linarith
    norm_cast at below' above'
    show k + 1 = n
    omega

end Approximates

/-! ## Finite magnitudes -/

/-- The mantissa and the exponent of a finite number: all bits of the mantissa are in use, unless the exponent is the
least. -/
structure Canonical (m : ℕ) (e : ℤ) : Prop where
  positive : 0 < m
  short : m < 2 ^ 53
  least : -1074 ≤ e
  most : e ≤ 971
  full : 2 ^ 52 ≤ m ∨ e = -1074

/-- Where the numbers begin that round to the magnitude. The gap below the least full mantissa is half of the one above
it. -/
def lowEnd (m : ℕ) (e : ℤ) : ℚ :=
  (if m = 2 ^ 52 ∧ -1074 < e then (m : ℚ) - 1 / 4 else m - 1 / 2) * 2 ^ e

/-- Where the numbers end that round to the magnitude. -/
def highEnd (m : ℕ) (e : ℤ) : ℚ :=
  (m + 1 / 2) * 2 ^ e

/-- The number rounds to the magnitude; of the ends only those of an even mantissa do. -/
structure Rounds (q : ℚ) (m : ℕ) (e : ℤ) : Prop where
  low : lowEnd m e < q ∨ lowEnd m e = q ∧ m % 2 = 0
  high : q < highEnd m e ∨ q = highEnd m e ∧ m % 2 = 0

section Rounds
variable {q : ℚ} {m : ℕ} {e : ℤ}

theorem two_zpow_pos (e : ℤ) : (0 : ℚ) < 2 ^ e :=
  zpow_pos (by norm_num) e

theorem two_zpow_add (d e : ℤ) : (2 : ℚ) ^ (d + e) = 2 ^ d * 2 ^ e :=
  zpow_add₀ (by norm_num) d e

theorem two_zpow_lt {d e : ℤ} : (2 : ℚ) ^ d < 2 ^ e ↔ d < e :=
  zpow_lt_zpow_iff_right₀ (by norm_num)

theorem rounds_self (m : ℕ) (e : ℤ) : Rounds (m * 2 ^ e) m e := by
  have positive := two_zpow_pos e
  refine ⟨Or.inl ?_, Or.inl ?_⟩
  · unfold lowEnd
    split <;> nlinarith
  · unfold highEnd
    nlinarith

theorem Rounds.half_le (rounds : Rounds q m e) : ((m : ℚ) - 1 / 2) * 2 ^ e ≤ q := by
  have positive := two_zpow_pos e
  have least : lowEnd m e ≤ q := by
    rcases rounds.low with less | ⟨same, _⟩
    · exact less.le
    · exact same.le
  refine le_trans ?_ least
  unfold lowEnd
  split <;> nlinarith

theorem Rounds.le_half (rounds : Rounds q m e) : q ≤ ((m : ℚ) + 1 / 2) * 2 ^ e := by
  rcases rounds.high with less | ⟨same, _⟩
  · exact less.le
  · exact same.le

theorem Rounds.pos (rounds : Rounds q m e) (canonical : Canonical m e) : 0 < q := by
  have positive := two_zpow_pos e
  have one : (1 : ℚ) ≤ m := by exact_mod_cast canonical.positive
  have least := rounds.half_le
  nlinarith

theorem Rounds.log_lt (rounds : Rounds q m e) (canonical : Canonical m e) {l : ℤ} (low : (2 : ℚ) ^ l ≤ q) : l < 53 + e := by
  have positive := two_zpow_pos e
  have short : (m : ℚ) + 1 ≤ 2 ^ (53 : ℤ) := by exact_mod_cast canonical.short
  have most := rounds.le_half
  rw [← two_zpow_lt, two_zpow_add]
  nlinarith

theorem Rounds.lt_log (rounds : Rounds q m e) (full : 2 ^ 52 ≤ m) {l : ℤ} (high : q < 2 ^ l) : 51 + e < l := by
  have positive := two_zpow_pos e
  have full : (2 : ℚ) ^ (52 : ℤ) ≤ m := by exact_mod_cast full
  have scaled := mul_le_mul_of_nonneg_right full positive.le
  have half := rounds.half_le
  rw [← two_zpow_lt, two_zpow_add]
  norm_num at scaled ⊢
  linarith

/-- Only numbers right below the least full magnitude are less than it. -/
theorem Rounds.eq_of_beneath (rounds : Rounds q m e) (full : 2 ^ 52 ≤ m) (beneath : q < 2 ^ (52 : ℤ) * 2 ^ e) : m = 2 ^ 52 := by
  have positive := two_zpow_pos e
  by_contra other
  have natural : 2 ^ 52 + 1 ≤ m := by omega
  have more : (2 : ℚ) ^ (52 : ℤ) + 1 ≤ m := by exact_mod_cast natural
  have half := rounds.half_le
  nlinarith

/-- A number that rounds to the magnitude is measured in its unit, or lies right below the power of two that the
magnitude is. -/
theorem Rounds.exponent_cases (rounds : Rounds q m e) (canonical : Canonical m e) {l : ℤ} (low : (2 : ℚ) ^ l ≤ q)
    (high : q < 2 ^ (l + 1)) :
    max (l - 52) (-1074) = e ∨ max (l - 52) (-1074) = e - 1 ∧ m = 2 ^ 52 ∧ -1074 < e ∧ q < 2 ^ (52 : ℤ) * 2 ^ e := by
  have below := rounds.log_lt canonical low
  have least := canonical.least
  by_cases lowest : e = -1074
  · exact Or.inl (by omega)
  have full := canonical.full.resolve_right lowest
  have above := rounds.lt_log full high
  by_cases next : l = 52 + e
  · exact Or.inl (by omega)
  obtain rfl : l = 51 + e := by omega
  have beneath : q < 2 ^ (52 : ℤ) * 2 ^ e := by
    rw [← two_zpow_add]
    convert high using 2
    ring
  exact Or.inr ⟨by omega, rounds.eq_of_beneath full beneath, by omega, beneath⟩

theorem Rounds.nearest (rounds : Rounds q m e) : Nearest (q / 2 ^ e) m := by
  have positive := two_zpow_pos e
  have above : ((m : ℚ) - 1 / 2) * 2 ^ e ≤ lowEnd m e := by
    unfold lowEnd
    split <;> nlinarith
  constructor
  · rw [lt_div_iff₀ positive, eq_div_iff positive.ne']
    rcases rounds.low with less | ⟨same, even⟩
    · exact Or.inl (above.trans_lt less)
    · exact (same ▸ above).lt_or_eq.imp_right fun equal => ⟨equal, even⟩
  · rw [div_lt_iff₀ positive, div_eq_iff positive.ne']
    exact rounds.high

/-- Below a power of two, the unit is half as large. -/
theorem Rounds.nearest_below (rounds : Rounds q m e) (power : m = 2 ^ 52) (above : -1074 < e)
    (beneath : q < 2 ^ (52 : ℤ) * 2 ^ e) : Nearest (q / 2 ^ (e - 1)) (2 ^ 53) := by
  have positive := two_zpow_pos (e - 1)
  have unit : (2 : ℚ) ^ e = 2 * 2 ^ (e - 1) := by
    rw [zpow_sub_one₀ (by norm_num)]
    ring
  have lowest : lowEnd m e = (((2 ^ 53 : ℕ) : ℚ) - 1 / 2) * 2 ^ (e - 1) := by
    rw [lowEnd, if_pos ⟨power, above⟩, power, unit]
    push_cast
    ring
  constructor
  · rw [lt_div_iff₀ positive, eq_div_iff positive.ne', ← lowest]
    exact rounds.low.imp_right fun ⟨same, _⟩ => ⟨same, by norm_num⟩
  · refine Or.inl ?_
    rw [div_lt_iff₀ positive]
    rw [unit] at beneath
    push_cast
    norm_num at beneath ⊢
    linarith

end Rounds

/-! ## Rounding -/

section Rounding
variable {q : ℚ} {m n : ℕ} {e k : ℤ} {a : Accuracy}

theorem targetExponent_binary64 (l : ℤ) : Format.binary64.targetExponent l = max (l - 53) (-1074) :=
  rfl

theorem totalExponent_eq (n : ℕ) (k : ℤ) : totalExponent n k = n.log2 + k + 1 := by
  unfold totalExponent
  ring

theorem targetExponent_eq (n : ℕ) (k : ℤ) :
    Format.binary64.targetExponent (totalExponent n k) = max ((n.log2 : ℤ) + k - 52) (-1074) := by
  rw [totalExponent_eq, targetExponent_binary64]
  congr 1
  ring

theorem mantissa_ofMantissaAndAccuracy (n : ℕ) (a : Accuracy) : (ExtendedMantissa.ofMantissaAndAccuracy n a).mantissa = n := by
  cases a with
  | exact => rfl
  | inexact middle => cases middle <;> rfl

/-- The first of the shifts that rounding takes. -/
theorem shiftToTargetExponent_approximates (approximates : Approximates (ExtendedMantissa.ofMantissaAndAccuracy n a) (q / 2 ^ k))
    {t : ℤ} (target : max ((n.log2 : ℤ) + k - 52) (-1074) = t) (wide : k ≤ t) :
    ∃ em, shiftToTargetExponent .binary64 n k a = (em, t) ∧ Approximates em (q / 2 ^ t) := by
  obtain ⟨count, rfl⟩ : ∃ count : ℕ, t = k + count := ⟨(t - k).toNat, by omega⟩
  have amount : (k + (count : ℤ) - k).toNat = count := by omega
  refine ⟨ExtendedMantissa.ofMantissaAndAccuracy n a >>> count, ?_, ?_⟩
  · unfold shiftToTargetExponent shiftToExponent
    dsimp only
    rw [targetExponent_eq, target, amount]
  · rw [two_zpow_add, zpow_natCast, ← div_div]
    exact approximates.shiftRight count

/-- The second shift leaves a mantissa that is not too long. -/
theorem shiftToTargetExponent_canonical (canonical : Canonical m e) :
    shiftToTargetExponent .binary64 m e .exact = (⟨m, false, false⟩, e) := by
  have bits : m.log2 < 53 := (Nat.log2_lt canonical.positive.ne').2 canonical.short
  have amount : (max ((m.log2 : ℤ) + e - 52) (-1074) - e).toNat = 0 := by
    have := canonical.least
    omega
  unfold shiftToTargetExponent shiftToExponent
  dsimp only
  rw [targetExponent_eq, amount]
  simp [HShiftRight.hShiftRight, Nat.repeat, ExtendedMantissa.ofMantissaAndAccuracy]

/-- A mantissa that has become one too long is halved. -/
theorem shiftToTargetExponent_overflow (above : -1074 < e) :
    shiftToTargetExponent .binary64 (2 ^ 53) (e - 1) .exact = (⟨2 ^ 52, false, false⟩, e) := by
  have amount : (max (((2 ^ 53 : ℕ).log2 : ℤ) + (e - 1) - 52) (-1074) - (e - 1)).toNat = 1 := by
    rw [Nat.log2_two_pow]
    omega
  unfold shiftToTargetExponent shiftToExponent
  dsimp only
  rw [targetExponent_eq, amount]
  simp [HShiftRight.hShiftRight, Nat.repeat, ExtendedMantissa.ofMantissaAndAccuracy, ExtendedMantissa.shiftRightOne]

/-- The target of the first shift is the exponent of the magnitude, but for numbers right below a power of two. -/
theorem Rounds.target_cases (rounds : Rounds q m e) (canonical : Canonical m e) (low : (n : ℚ) ≤ q / 2 ^ k)
    (high : q / 2 ^ k < n + 1) (wide : k ≤ max ((n.log2 : ℤ) + k - 52) (-1074)) :
    max ((n.log2 : ℤ) + k - 52) (-1074) = e ∨
      max ((n.log2 : ℤ) + k - 52) (-1074) = e - 1 ∧ m = 2 ^ 52 ∧ -1074 < e ∧ q < 2 ^ (52 : ℤ) * 2 ^ e := by
  have positive := two_zpow_pos k
  rw [le_div_iff₀ positive] at low
  rw [div_lt_iff₀ positive] at high
  rcases Nat.eq_zero_or_pos n with rfl | some_
  · -- Less than one unit is left, so the unit is that of the least magnitudes.
    simp only [Nat.log2_zero, Nat.cast_zero, zero_add, one_mul] at wide high ⊢
    refine Or.inl ?_
    have lowest : e = -1074 := by
      by_contra other
      have less := rounds.lt_log (canonical.full.resolve_right other) high
      have least := canonical.least
      omega
    omega
  · have least : (2 : ℚ) ^ (n.log2 : ℤ) ≤ n := by
      rw [zpow_natCast]
      exact_mod_cast Nat.log2_self_le some_.ne'
    have most : (n : ℚ) + 1 ≤ 2 ^ ((n.log2 : ℤ) + 1) := by
      have next : n + 1 ≤ 2 ^ (n.log2 + 1) := Nat.lt_log2_self
      exact_mod_cast next
    refine rounds.exponent_cases canonical ?_ ?_
    · rw [two_zpow_add]
      exact (mul_le_mul_of_nonneg_right least positive.le).trans low
    · rw [show (n.log2 : ℤ) + k + 1 = n.log2 + 1 + k by ring, two_zpow_add]
      exact high.trans_le (mul_le_mul_of_nonneg_right most positive.le)

/-- What is rounded is rounded to the magnitude whose interval it lies in, if there are enough bits to begin with. -/
theorem roundWithAccuracy_eq (canonical : Canonical m e) (rounds : Rounds q m e)
    (approximates : Approximates (ExtendedMantissa.ofMantissaAndAccuracy n a) (q / 2 ^ k))
    (wide : k ≤ max ((n.log2 : ℤ) + k - 52) (-1074)) (s : Sign) :
    roundWithAccuracy .binary64 s n k a = .finite s m e canonical.positive := by
  obtain ⟨low, high⟩ := approximates.bounds
  rw [mantissa_ofMantissaAndAccuracy] at low high
  obtain ⟨em, shifted, approximates'⟩ := shiftToTargetExponent_approximates approximates rfl wide
  unfold roundWithAccuracy
  rw [shifted]
  dsimp only
  rcases rounds.target_cases canonical low high wide with target | ⟨target, rfl, above, beneath⟩
  · rw [target] at approximates' ⊢
    rw [approximates'.roundedMantissa_eq rounds.nearest, shiftToTargetExponent_canonical canonical]
    exact dif_neg canonical.positive.ne'
  · rw [target] at approximates' ⊢
    rw [approximates'.roundedMantissa_eq (rounds.nearest_below rfl above beneath), shiftToTargetExponent_overflow above]
    exact dif_neg (by norm_num)

/-! ## Products and quotients -/

variable {n' : ℕ} {k' : ℤ}

/-- The product is rounded to the magnitude whose interval it lies in. -/
theorem mul_eq (canonical : Canonical m e) (rounds : Rounds (n * 2 ^ k * (n' * 2 ^ k')) m e) (some_ : 0 < n) (some' : 0 < n')
    (wide : 2 ^ 52 ≤ n * n') : UnpackedFloat.mul .binary64 (.finite .positive n k some_) (.finite .positive n' k' some') =
      .finite .positive m e canonical.positive := by
  have exact_ : (n : ℚ) * 2 ^ k * (n' * 2 ^ k') / 2 ^ (k + k') = (n * n' : ℕ) := by
    rw [two_zpow_add, div_eq_iff (by positivity)]
    push_cast
    ring
  have bits : 52 ≤ (n * n').log2 := (Nat.le_log2 (Nat.mul_pos some_ some').ne').2 wide
  refine roundWithAccuracy_eq canonical rounds ?_ (by omega) _
  rw [exact_]
  exact .exact _

theorem approximates_div (n d : ℕ) (some_ : 0 < d) :
    Approximates (ExtendedMantissa.ofMantissaAndAccuracy (n / d) (accuracyOfFraction (n % d) d)) ((n : ℚ) / d) := by
  have positive : (0 : ℚ) < d := by exact_mod_cast some_
  have parts : (n : ℚ) / d = (n / d : ℕ) + (n % d : ℕ) / d := by
    rw [div_eq_iff positive.ne', add_mul, div_mul_cancel₀ _ positive.ne']
    exact_mod_cast (Nat.div_add_mod' n d).symm
  have left := Nat.mod_lt n some_
  rw [parts]
  generalize n / d = whole at *
  generalize n % d = left_ at *
  unfold accuracyOfFraction
  by_cases none_ : left_ = 0
  · rw [if_pos none_, none_, Nat.cast_zero, zero_div, add_zero]
    exact .exact whole
  · rw [if_neg none_]
    have above : (0 : ℚ) < left_ / d := by
      have : (0 : ℚ) < left_ := by exact_mod_cast Nat.pos_of_ne_zero none_
      positivity
    have below : (left_ : ℚ) / d < 1 := by
      rw [div_lt_one positive]
      exact_mod_cast left
    rcases Nat.lt_trichotomy (2 * left_) d with less | same | more
    · rw [Nat.compare_eq_lt.2 less]
      refine .low (by linarith) ?_
      have : (left_ : ℚ) / d < 1 / 2 := by
        rw [div_lt_div_iff₀ positive (by norm_num)]
        exact_mod_cast (by omega : left_ * 2 < 1 * d)
      linarith
    · rw [Nat.compare_eq_eq.2 same]
      have : (left_ : ℚ) / d = 1 / 2 := by
        rw [div_eq_div_iff positive.ne' (by norm_num)]
        exact_mod_cast (by omega : left_ * 2 = 1 * d)
      rw [this]
      exact .half whole
    · rw [Nat.compare_eq_gt.2 more]
      refine .high ?_ (by linarith)
      have : (1 : ℚ) / 2 < left_ / d := by
        rw [div_lt_div_iff₀ (by norm_num) positive]
        exact_mod_cast (by omega : 1 * d < left_ * 2)
      linarith

/-- A quotient of a number that is shifted far enough to the left has a mantissa of 53 bits. -/
theorem le_log2_div {shift : ℕ} (some_ : 0 < n) (some' : 0 < n') (far : n'.log2 + 53 ≤ n.log2 + shift) :
    52 ≤ (n <<< shift / n').log2 := by
  have quotient : 2 ^ 52 ≤ n <<< shift / n' := by
    rw [Nat.le_div_iff_mul_le some', Nat.shiftLeft_eq]
    calc
      2 ^ 52 * n' ≤ 2 ^ 52 * 2 ^ (n'.log2 + 1) := Nat.mul_le_mul_left _ Nat.lt_log2_self.le
      _ = 2 ^ (n'.log2 + 53) := by ring
      _ ≤ 2 ^ (n.log2 + shift) := Nat.pow_le_pow_right (by norm_num) far
      _ = 2 ^ n.log2 * 2 ^ shift := by ring
      _ ≤ n * 2 ^ shift := Nat.mul_le_mul_right _ (Nat.log2_self_le some_.ne')
  exact (Nat.le_log2 (by omega)).2 quotient

/-- The quotient is rounded to the magnitude whose interval it lies in. -/
theorem div_eq (canonical : Canonical m e) (rounds : Rounds (n * 2 ^ k / (n' * 2 ^ k')) m e) (some_ : 0 < n) (some' : 0 < n') :
    UnpackedFloat.div .binary64 (.finite .positive n k some_) (.finite .positive n' k' some') =
      .finite .positive m e canonical.positive := by
  have target : Format.binary64.targetExponent (totalExponent n k - totalExponent n' k') =
      max ((n.log2 : ℤ) + k - (n'.log2 + k') - 53) (-1074) := by
    rw [totalExponent_eq, totalExponent_eq, targetExponent_binary64]
    congr 1
    ring
  show roundWithAccuracy .binary64 _ _ _ _ = _
  rw [target]
  generalize unit : min (k - k') (max ((n.log2 : ℤ) + k - (n'.log2 + k') - 53) (-1074)) = t
  generalize amount : (k - k' - t).toNat = shift
  have exponent : k = k' + t + shift := by omega
  refine roundWithAccuracy_eq canonical rounds ?_ ?_ _
  · have value : (n : ℚ) * 2 ^ k / (n' * 2 ^ k') / 2 ^ t = (n <<< shift : ℕ) / n' := by
      have positive : (0 : ℚ) < n' := by exact_mod_cast some'
      have unit' := two_zpow_pos t
      have unit'' := two_zpow_pos k'
      rw [exponent, two_zpow_add, two_zpow_add, zpow_natCast, Nat.shiftLeft_eq]
      push_cast
      field_simp
    rw [value]
    exact approximates_div _ _ some'
  · rcases le_or_gt t (-1074) with least | more
    · exact le_max_of_le_right least
    · have bits : 52 ≤ (n <<< shift / n').log2 := le_log2_div some_ some' (by omega)
      exact le_max_of_le_left (by omega)

end Rounding
end Reporting.Floats
