import Reporting.Proofs.Csv.Cells
import Reporting.Proofs.Decimal.Shortest
import Reporting.Proofs.Order

/-!
Numbers read back from their texts. A finite number is read from the decimal that it is written as, and from its digits
if it is an integer (`Value.toFloat?_key_finite`).
-/

namespace Reporting

namespace Text

theorem runValue_append_zeros (digits : List Char) (count : ℕ) :
    runValue (digits ++ List.replicate count '0') = runValue digits * 10 ^ count := by
  have run : ∀ n : ℕ, (List.replicate count '0').foldl (fun n c => 10 * n + digitValue c) n = n * 10 ^ count := by
    induction count with
    | zero => simp
    | succ count ih =>
      intro n
      have zero : digitValue '0' = 0 := rfl
      rw [List.replicate_succ, List.foldl_cons, ih, zero, pow_succ]
      ring
  unfold runValue
  rw [List.foldl_append, run]

end Text

namespace Decimal
open Text Floats Float.Model Float.Model.UnpackedFloat

/-! ## Numerals -/

section Reading
variable {whole places : List Char}

theorem readMagnitude?_whole (some_ : whole ≠ []) (digits : ∀ c ∈ whole, c.isDigit) :
    readMagnitude? whole = some (nearest (runValue whole) 0) := by
  have taken : whole.takeWhile Char.isDigit = whole := List.takeWhile_eq_self_iff.2 digits
  have left : whole.dropWhile Char.isDigit = [] := List.dropWhile_eq_nil_iff.2 digits
  unfold readMagnitude?
  dsimp only
  rw [taken, left]
  dsimp only
  rw [if_neg (by simpa using some_), List.append_nil]
  rfl

theorem readMagnitude?_point (some_ : whole ≠ []) (before : ∀ c ∈ whole, c.isDigit) (after : ∀ c ∈ places, c.isDigit) :
    readMagnitude? (whole ++ '.' :: places) = some (nearest (runValue (whole ++ places)) (-places.length)) := by
  have point : Char.isDigit '.' = false := rfl
  have taken : (whole ++ '.' :: places).takeWhile Char.isDigit = whole := by
    rw [List.takeWhile_append_of_pos before, List.takeWhile_cons_of_neg (by simp [point]), List.append_nil]
  have left : (whole ++ '.' :: places).dropWhile Char.isDigit = '.' :: places := by
    rw [List.dropWhile_append_of_pos before, List.dropWhile_cons_of_neg (by simp [point])]
  have taken' : places.takeWhile Char.isDigit = places := List.takeWhile_eq_self_iff.2 after
  have left' : places.dropWhile Char.isDigit = [] := List.dropWhile_eq_nil_iff.2 after
  unfold readMagnitude?
  simp only [taken, left, taken', left']
  rw [if_neg (by simp [some_])]
  simp [readExponent?]

end Reading

/-- The text is read as the number nearest to the decimal. It begins with a digit and has no blank. -/
structure Numeral (s : List Char) (n : ℕ) (k : ℤ) : Prop where
  reads : readMagnitude? s = some (nearest n k)
  first : ∃ c rest, s = c :: rest ∧ c.isDigit
  plain : ∀ c ∈ s, isBlank c = false

theorem numeral_whole (whole : List Char) (some_ : whole ≠ []) (digits : ∀ c ∈ whole, c.isDigit) :
    Numeral whole (runValue whole) 0 where
  reads := readMagnitude?_whole some_ digits
  first := by
    obtain ⟨c, rest, rfl⟩ := List.exists_cons_of_ne_nil some_
    exact ⟨c, rest, rfl, digits c (List.mem_cons_self ..)⟩
  plain c member := isBlank_of_isDigit (digits c member)

theorem numeral_digitsOf (n : ℕ) : Numeral (digitsOf n) n 0 := by
  have numeral := numeral_whole _ (digitsOf_ne_nil n) fun c => isDigit_of_mem_digitsOf
  rwa [runValue_digitsOf] at numeral

/-- Digits with a point among them are read as all digits, less the places after the point. -/
theorem numeral_point (whole places : List Char) (some_ : whole ≠ []) (before : ∀ c ∈ whole, c.isDigit)
    (after : ∀ c ∈ places, c.isDigit) : Numeral (whole ++ '.' :: places) (runValue (whole ++ places)) (-places.length) where
  reads := readMagnitude?_point some_ before after
  first := by
    obtain ⟨c, rest, rfl⟩ := List.exists_cons_of_ne_nil some_
    exact ⟨c, rest ++ '.' :: places, rfl, before c (List.mem_cons_self ..)⟩
  plain c member := by
    rcases List.mem_append.1 member with inside | inside
    · exact isBlank_of_isDigit (before c inside)
    · rcases List.mem_cons.1 inside with rfl | inside
      · rfl
      · exact isBlank_of_isDigit (after c inside)

/-- What is written without an exponent is read as a decimal of the same value. -/
theorem numeral_positionalText (d : Scaled) : ∃ (n : ℕ) (k : ℤ),
    Numeral (plain.positionalText (digitsOf d.digits) d.exponent) n k ∧ n * 10 ^ k = d.value := by
  have digits : ∀ c ∈ digitsOf d.digits, c.isDigit := fun c => isDigit_of_mem_digitsOf
  have some_ := digitsOf_ne_nil d.digits
  have zeros : ∀ count, ∀ c ∈ List.replicate count '0', c.isDigit := by
    intro count c member
    rw [(List.mem_replicate.1 member).2]
    rfl
  unfold Layout.positionalText
  by_cases integral : 0 ≤ d.exponent
  · rw [if_pos integral]
    have shown : digitsOf d.digits ++ List.replicate d.exponent.toNat '0' ++ (if plain.pointZero then ['.', '0'] else []) =
        digitsOf d.digits ++ List.replicate d.exponent.toNat '0' := List.append_nil _
    have numeral := numeral_whole (digitsOf d.digits ++ List.replicate d.exponent.toNat '0') (by simp [some_])
      fun c member => (List.mem_append.1 member).elim (digits c) (zeros _ c)
    rw [runValue_append_zeros, runValue_digitsOf] at numeral
    rw [shown]
    refine ⟨_, 0, numeral, ?_⟩
    unfold Scaled.value
    conv => rhs; rw [← Int.toNat_of_nonneg integral, zpow_natCast]
    push_cast
    rw [mul_one]
  · rw [if_neg integral]
    have exponent : d.exponent = -((-d.exponent).toNat : ℤ) := by omega
    have value : d.value = d.digits * 10 ^ (-((-d.exponent).toNat : ℤ)) := by
      rw [← exponent]
      rfl
    dsimp only
    generalize (-d.exponent).toNat = count at *
    refine ⟨d.digits, -(count : ℤ), ?_, value.symm⟩
    split
    · rename_i inside
      have point := numeral_point ((digitsOf d.digits).take ((digitsOf d.digits).length - count))
        ((digitsOf d.digits).drop ((digitsOf d.digits).length - count))
        (List.ne_nil_of_length_pos (by rw [List.length_take]; omega)) (fun c member => digits c (List.mem_of_mem_take member))
        (fun c member => digits c (List.mem_of_mem_drop member))
      have places : (digitsOf d.digits).length - ((digitsOf d.digits).length - count) = count := by omega
      rwa [List.take_append_drop, runValue_digitsOf, List.length_drop, places] at point
    · rename_i outside
      have point := numeral_point ['0'] (List.replicate (count - (digitsOf d.digits).length) '0' ++ digitsOf d.digits)
        (by simp) (by simp) (fun c member => (List.mem_append.1 member).elim (zeros _ c) (digits c))
      have front : runValue (['0'] ++ (List.replicate (count - (digitsOf d.digits).length) '0' ++ digitsOf d.digits)) = d.digits := by
        show runValue (List.replicate (count - (digitsOf d.digits).length) '0' ++ digitsOf d.digits) = d.digits
        rw [runValue_zeros, runValue_digitsOf]
      have places : count - (digitsOf d.digits).length + (digitsOf d.digits).length = count := by omega
      rwa [front, List.length_append, List.length_replicate, places] at point

/-! ## Signed numbers -/

/-- The number with the sign. -/
def signed : Sign → Float → Float
  | .negative, x => -x
  | .positive, x => x

/-- The text with the sign in front; only a minus is written. -/
def signedText : Sign → List Char → List Char
  | .negative, s => '-' :: s
  | .positive, s => s

section Numeral
variable {s : List Char} {n : ℕ} {k : ℤ}

theorem Numeral.readFloat? (numeral : Numeral s n k) (sign : Sign) :
    readFloat? (signedText sign s) = some (signed sign (nearest n k)) := by
  have reads := numeral.reads
  obtain ⟨c, rest, rfl, digit⟩ := numeral.first
  have unsigned : splitSign (c :: rest) = (false, c :: rest) := by
    unfold splitSign
    split
    · rename_i same
      cases same
      cases digit
    · rename_i same
      cases same
      cases digit
    · rfl
  cases sign with
  | negative => simp [signedText, signed, Decimal.readFloat?, splitSign, reads]
  | positive => simp [signedText, signed, Decimal.readFloat?, unsigned, reads]

theorem Numeral.tight (numeral : Numeral s n k) (sign : Sign) : Tight (signedText sign s) := by
  refine tight_of_forall fun c member => ?_
  cases sign with
  | negative =>
    rcases List.mem_cons.1 member with rfl | inside
    · rfl
    · exact numeral.plain c inside
  | positive => exact numeral.plain c member

end Numeral

section Finite
variable {x : Float} {sign : Sign} {m : ℕ} {e : ℤ} {positive : 0 < m}

/-- A finite number is the magnitude of its parts, with its sign. -/
theorem eq_signed_finite (parts : x.toModel.unpack = .finite sign m e positive) (canonical : Canonical m e) :
    x = signed sign (finite canonical) := by
  have same := pack_unpack x.toModel
  rw [parts] at same
  cases sign with
  | negative =>
    have unpacked : (finite canonical).toModel.unpack = .finite .positive m e canonical.positive :=
      unpack_pack_finite canonical .positive
    show x = ⟨Float.Model.pack (finite canonical).toModel.unpack.neg⟩
    rw [unpacked]
    exact congrArg Float.ofModel same.symm
  | positive => exact congrArg Float.ofModel same.symm

/-- The number is read from a numeral that rounds to its magnitude, with its sign in front. -/
theorem readFloat?_signedText (parts : x.toModel.unpack = .finite sign m e positive) {s : List Char} {n : ℕ} {k : ℤ}
    (numeral : Numeral s n k) (rounds : Rounds (n * 10 ^ k) m e) : readFloat? (signedText sign s) = some x := by
  have canonical := canonical_of_unpack (b := x.toModel.toBits.toBitVec) parts
  rw [eq_signed_finite parts canonical, ← nearest_eq canonical rounds]
  exact numeral.readFloat? sign

theorem isNaN_eq (parts : x.toModel.unpack = .finite sign m e positive) : x.isNaN = false := by
  show x.toModel.unpack.isNaN = false
  rw [parts]
  rfl

theorem isInf_eq (parts : x.toModel.unpack = .finite sign m e positive) : x.isInf = false := by
  show x.toModel.unpack.isInf = false
  rw [parts]
  rfl

theorem signBit_eq (parts : x.toModel.unpack = .finite sign m e positive) :
    (x.toBits >>> 63 == 1) = match sign with | .negative => true | .positive => false := by
  have negative := signBit_iff x.toBits
  rw [(bits_of_unpack (b := x.toBits.toBitVec) parts).1] at negative
  cases sign with
  | negative => exact negative.2 rfl
  | positive => exact Bool.eq_false_iff.2 fun minus => by cases negative.1 minus

/-- The text of a finite number. -/
theorem toList_text (parts : x.toModel.unpack = .finite sign m e positive) : (text x).toList =
    signedText sign (plain.positionalText (digitsOf ((Binary.ofBits x.toBits).shortest .up).digits)
      ((Binary.ofBits x.toBits).shortest .up).exponent) := by
  unfold text Layout.render
  rw [isNaN_eq parts, isInf_eq parts, if_neg Bool.false_ne_true]
  dsimp only
  rw [signBit_eq parts, if_neg Bool.false_ne_true, String.toList_ofList]
  cases sign <;> rfl

/-- An integral number is the integer, with the sign. -/
theorem integral?_eq_some {i : ℤ} (parts : x.toModel.unpack = .finite sign m e positive) (integral : integral? x = some i) :
    (i.natAbs : ℚ) = m * 2 ^ e ∧ (toString i).toList = signedText sign (digitsOf i.natAbs) := by
  unfold integral? at integral
  rw [isNaN_eq parts, isInf_eq parts, ofBits_eq parts, signBit_eq parts, if_neg (by simp)] at integral
  dsimp only at integral
  split at integral
  · rename_i whole
    rw [Nat.pow_eq, Nat.pow_eq] at integral
    rw [Nat.pow_eq] at whole
    obtain ⟨k, rfl⟩ := Nat.dvd_of_mod_eq_zero whole
    rw [Nat.mul_div_cancel_left k (by positivity)] at integral
    have some_ : 0 < k * 2 ^ e.toNat := by
      have := Nat.pos_of_mul_pos_left positive
      positivity
    have value : ((k * 2 ^ e.toNat : ℕ) : ℚ) = (2 ^ (-e).toNat * k : ℕ) * 2 ^ e := by
      rw [zpow_eq_div (by norm_num) e]
      push_cast
      field_simp
    generalize k * 2 ^ e.toNat = n at *
    rw [← value, toList_toString]
    cases sign with
    | negative =>
      obtain rfl : -(n : ℤ) = i := Option.some.inj integral
      rw [if_pos (by omega), Int.natAbs_neg, Int.natAbs_natCast]
      exact ⟨rfl, rfl⟩
    | positive =>
      obtain rfl : (n : ℤ) = i := Option.some.inj integral
      rw [if_neg (by omega), Int.natAbs_natCast]
      exact ⟨rfl, rfl⟩
  · cases integral

end Finite

end Decimal

namespace Value
open Text Decimal Floats Float.Model Float.Model.UnpackedFloat

theorem toFloat?_text {s : List Char} {x : Float} {t : String} (chars : t.toList = s) (tight : Tight s)
    (read : readFloat? s = some x) : (text t).toFloat? = some x := by
  show readFloat? (trimChars t.toList) = some x
  rw [chars, tight.trimChars_eq, read]

/-- The key of a finite number that is not zero is read as the number. -/
theorem toFloat?_key_finite {x : Float} {sign : Sign} {m : ℕ} {e : ℤ} {positive : 0 < m}
    (parts : x.toModel.unpack = .finite sign m e positive) : (text (float x).key).toFloat? = some x := by
  have canonical := canonical_of_unpack (b := x.toModel.toBits.toBitVec) parts
  have shown : (text (Decimal.text x)).toFloat? = some x := by
    obtain ⟨n, k, numeral, value⟩ := numeral_positionalText ((Binary.ofBits x.toBits).shortest .up)
    have rounds := Binary.rounds_shortest canonical (ofBits_eq parts) .up
    rw [← value] at rounds
    exact toFloat?_text (toList_text parts) (numeral.tight sign) (readFloat?_signedText parts numeral rounds)
  unfold key
  dsimp only
  split
  · rename_i i integral
    split
    · obtain ⟨value, chars⟩ := integral?_eq_some parts integral
      have numeral := numeral_digitsOf i.natAbs
      have rounds : Rounds (i.natAbs * 10 ^ (0 : ℤ)) m e := by
        rw [zpow_zero, mul_one, value]
        exact rounds_self m e
      exact toFloat?_text chars (numeral.tight sign) (readFloat?_signedText parts numeral rounds)
    · exact shown
  · exact shown

theorem orderFloats_self {x : Float} (number : x.isNaN = false) : orderFloats x x = some .eq := by
  obtain ⟨p, place⟩ := exists_place number
  rw [orderFloats_eq, compare_eq_places, place]
  exact congrArg some Std.ReflCmp.compare_self

/-- A number and its key, read as a number, are equal, unless it is no number. -/
theorem order?_key_float (x : Float) : (float x).order? (text (float x).key) = if x.isNaN then none else some .eq := by
  have same := pack_unpack x.toModel
  have number : x.isNaN = x.toModel.unpack.isNaN := rfl
  cases parts : x.toModel.unpack with
  | notANumber =>
    rw [number, parts, (order?_text (by nofun) (by nofun) _).2]
    cases (text (float x).key).toFloat? with
    | none => rfl
    | some y =>
      show orderFloats x y = none
      rw [orderFloats_eq, parts]
      rfl
  | infinity sign =>
    rw [parts] at same
    obtain rfl : x = ⟨Float.Model.pack (.infinity sign)⟩ := by rw [same]
    cases sign <;> decide +kernel
  | zero sign =>
    rw [parts] at same
    obtain rfl : x = ⟨Float.Model.pack (.zero sign)⟩ := by rw [same]
    cases sign <;> decide +kernel
  | finite sign m e positive =>
    have finite_ := isNaN_eq parts
    rw [finite_, if_neg Bool.false_ne_true, (order?_text (by nofun) (by nofun) _).2, toFloat?_key_finite parts]
    exact orderFloats_self finite_

/-- The sign in front of an integer's digits. -/
def signOf (i : ℤ) : Sign :=
  if i < 0 then .negative else .positive

theorem toList_toString_eq (i : ℤ) : (toString i).toList = signedText (signOf i) (digitsOf i.natAbs) := by
  rw [toList_toString, signOf]
  split <;> rfl

theorem ofInt_eq_signed (i : ℤ) : Float.ofInt i = signed (signOf i) (Float.ofNat i.natAbs) := by
  cases i with
  | ofNat n => rfl
  | negSucc n =>
    have negative : signOf (.negSucc n) = .negative := if_pos (Int.negSucc_lt_zero n)
    rw [negative]
    rfl

theorem isNaN_signed {x : Float} (number : x.isNaN = false) (sign : Sign) : (signed sign x).isNaN = false := by
  have parts : x.toModel.unpack.isNaN = false := number
  cases sign with
  | negative =>
    refine isNaN_pack (u := x.toModel.unpack.neg) ?_
    cases unpacked : x.toModel.unpack with
    | notANumber =>
      rw [unpacked] at parts
      cases parts
    | _ => rfl
  | positive => exact number

/-- An integer and its key, read as a number, are equal. -/
theorem order?_key_int (i : Int64) : (int i).order? (text (int i).key) = some .eq := by
  have short : i.toInt.natAbs < 10 ^ 20 := by
    have least := i.le_toInt
    have most := i.toInt_lt
    omega
  have numeral := numeral_digitsOf i.toInt.natAbs
  have value : signed (signOf i.toInt) (nearest i.toInt.natAbs 0) = intToFloat i := by
    rw [nearest_natural short]
    exact (ofInt_eq_signed i.toInt).symm
  have read : (text (int i).key).toFloat? = some (intToFloat i) := by
    rw [← value]
    exact toFloat?_text (toList_toString_eq i.toInt) (numeral.tight _) (numeral.readFloat? _)
  rw [(order?_text (by nofun) (by nofun) _).2, read]
  refine orderFloats_self ?_
  rw [← value]
  exact isNaN_signed (isNaN_nearest ..) _

end Value
end Reporting
