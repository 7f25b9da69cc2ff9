import Reporting.Proofs.Calendar.Order
import Reporting.Proofs.Calendar.Reading

/-!
Texts that sort as dates do. Digits of one width compare as the numbers do (`Text.compare_padded`), and what begins with
texts of one length compares by them first (`Text.compare_append`). So days of the years 0 to 9999 that are written out
compare as the days do (`Calendar.Date.compare_chars`), and whole seconds of a day as the times do
(`Calendar.Time.compare_chars`).
-/

namespace Reporting
namespace Text

/-! ## Characters and bytes -/

theorem ordering_eq_of_iff {a b : Ordering} (less : a = .lt ↔ b = .lt) (same : a = .eq ↔ b = .eq) : a = b := by
  cases a <;> cases b <;> simp at less same ⊢

/-- Where the beginnings have one length, they decide if they differ. -/
theorem compare_append {α : Type} [Ord α] {as bs : List α} (level : as.length = bs.length) (cs ds : List α) :
    compare (as ++ cs) (bs ++ ds) = (compare as bs).then (compare cs ds) := by
  induction as generalizing bs with
  | nil =>
    cases bs with
    | nil => rfl
    | cons b bs => cases level
  | cons a as ih =>
    cases bs with
    | nil => cases level
    | cons b bs =>
      rw [List.cons_append, List.cons_append, List.compare_cons_cons, List.compare_cons_cons,
        ih (Nat.succ.inj level), Ordering.then_assoc]

theorem compare_chars_eq_lt_iff {as bs : List Char} : compare as bs = .lt ↔ as < bs := by
  induction as generalizing bs with
  | nil => cases bs <;> simp
  | cons a as ih =>
    cases bs with
    | nil => simp
    | cons b bs =>
      rw [List.compare_cons_cons, Ordering.then_eq_lt, List.cons_lt_cons_iff, ih, Std.LawfulEqOrd.compare_eq_iff_eq,
        show compare a b = .lt ↔ a < b from compareOfLessAndEq_eq_lt]

/-- Texts compare by their characters. -/
theorem compare_eq (s t : String) : compare s t = compare s.toList t.toList := by
  apply ordering_eq_of_iff
  · rw [compare_chars_eq_lt_iff, ← String.lt_iff]
    exact compareOfLessAndEq_eq_lt
  · rw [Std.LawfulEqOrd.compare_eq_iff_eq, Std.LawfulEqOrd.compare_eq_iff_eq, String.toList_inj]

/-- The bytes of a text. -/
def bytes (s : String) : List UInt8 :=
  s.toByteArray.data.toList

/-- The characters in which dates are written have one byte each. -/
def IsAscii (cs : List Char) : Prop :=
  ∀ c ∈ cs, c.toNat < 128

theorem bytes_ofList {cs : List Char} (ascii : IsAscii cs) :
    bytes (String.ofList cs) = cs.map fun c => UInt8.ofNat c.toNat := by
  unfold bytes
  rw [String.toByteArray_ofList, List.utf8Encode, List.data_toByteArray]
  show cs.flatMap String.utf8EncodeChar = _
  induction cs with
  | nil => rfl
  | cons c cs ih =>
    have small : c.toNat ≤ 127 := Nat.le_of_lt_succ (ascii c (List.mem_cons_self ..))
    have single : String.utf8EncodeChar c = [UInt8.ofNat c.toNat] := by simp [String.utf8EncodeChar, small]
    rw [List.flatMap_cons, single, ih fun d member => ascii d (List.mem_cons_of_mem c member)]
    rfl

/-- Comparing the bytes is comparing the characters. -/
theorem compare_bytes {as bs : List Char} (ha : IsAscii as) (hb : IsAscii bs) :
    compare (bytes (String.ofList as)) (bytes (String.ofList bs)) = compare as bs := by
  rw [bytes_ofList ha, bytes_ofList hb]
  induction as generalizing bs with
  | nil => cases bs <;> rfl
  | cons a as ih =>
    cases bs with
    | nil => rfl
    | cons b bs =>
      obtain ⟨smallA, restA⟩ := List.forall_mem_cons.1 ha
      obtain ⟨smallB, restB⟩ := List.forall_mem_cons.1 hb
      have size : UInt8.size = 256 := rfl
      have first : compare (UInt8.ofNat a.toNat) (UInt8.ofNat b.toNat) = compare a b := by
        apply ordering_eq_of_iff
        · rw [show compare a b = .lt ↔ a < b from compareOfLessAndEq_eq_lt,
            show compare (UInt8.ofNat a.toNat) (UInt8.ofNat b.toNat) = .lt ↔ _ < _ from compareOfLessAndEq_eq_lt,
            UInt8.lt_iff_toNat_lt, UInt8.toNat_ofNat_of_lt' (by omega), UInt8.toNat_ofNat_of_lt' (by omega)]
          rfl
        · rw [Std.LawfulEqOrd.compare_eq_iff_eq, Std.LawfulEqOrd.compare_eq_iff_eq, ← UInt8.toNat_inj,
            UInt8.toNat_ofNat_of_lt' (by omega), UInt8.toNat_ofNat_of_lt' (by omega), Char.toNat_inj]
      rw [List.map_cons, List.map_cons, List.compare_cons_cons, List.compare_cons_cons, ih restA restB, first]

/-! ## Digits -/

theorem runValue_cons (c : Char) (cs : List Char) : runValue (c :: cs) = digitValue c * Nat.pow 10 cs.length + runValue cs := by
  have first : runValue (c :: cs) = Nat.ofDigitChars 10 cs (10 * 0 + digitValue c) := rfl
  rw [first, Nat.ofDigitChars_eq_ofDigitChars_zero, Nat.mul_zero, Nat.zero_add, Nat.mul_comm]
  rfl

theorem digitValue_lt {c : Char} (digit : c.isDigit) : digitValue c < 10 := by
  have within : 48 ≤ c.toNat ∧ c.toNat ≤ 57 := by simpa [Char.isDigit, UInt32.le_iff_toNat_le] using digit
  unfold digitValue
  omega

theorem compare_digitValue {c d : Char} (hc : c.isDigit) (hd : d.isDigit) :
    compare (digitValue c) (digitValue d) = compare c d := by
  have withinC : 48 ≤ c.toNat ∧ c.toNat ≤ 57 := by simpa [Char.isDigit, UInt32.le_iff_toNat_le] using hc
  have withinD : 48 ≤ d.toNat ∧ d.toNat ≤ 57 := by simpa [Char.isDigit, UInt32.le_iff_toNat_le] using hd
  have less : c < d ↔ c.toNat < d.toNat := Iff.rfl
  unfold digitValue
  apply ordering_eq_of_iff
  · rw [Nat.compare_eq_lt, show compare c d = .lt ↔ c < d from compareOfLessAndEq_eq_lt, less]
    omega
  · rw [Nat.compare_eq_eq, Std.LawfulEqOrd.compare_eq_iff_eq, ← Char.toNat_inj]
    omega

theorem runValue_lt {cs : List Char} (digits : ∀ c ∈ cs, c.isDigit) : runValue cs < Nat.pow 10 cs.length := by
  induction cs with
  | nil => decide
  | cons c cs ih =>
    rw [List.forall_mem_cons] at digits
    have first := digitValue_lt digits.1
    have rest := ih digits.2
    have whole : digitValue c * Nat.pow 10 cs.length ≤ 9 * Nat.pow 10 cs.length := Nat.mul_le_mul_right _ (by omega)
    have next : Nat.pow 10 (c :: cs).length = Nat.pow 10 cs.length * 10 := rfl
    rw [runValue_cons, next]
    omega

/-- The leading number decides where it differs. -/
theorem compare_mul_add {x y a b size : Nat} (ha : a < size) (hb : b < size) :
    compare (x * size + a) (y * size + b) = (compare x y).then (compare a b) := by
  have bigger : ∀ {x y a b : Nat}, a < size → x < y → x * size + a < y * size + b := by
    intro x y a b small less
    have := Nat.mul_le_mul_right size less
    rw [Nat.succ_mul] at this
    omega
  rcases Nat.lt_trichotomy x y with less | rfl | more
  · rw [Nat.compare_eq_lt.2 (bigger ha less), Nat.compare_eq_lt.2 less]
    rfl
  · rw [Nat.compare_eq_eq.2 rfl, Ordering.eq_then]
    apply ordering_eq_of_iff
    · rw [Nat.compare_eq_lt, Nat.compare_eq_lt]
      omega
    · rw [Nat.compare_eq_eq, Nat.compare_eq_eq]
      omega
  · rw [Nat.compare_eq_gt.2 (bigger hb more), Nat.compare_eq_gt.2 more]
    rfl

/-- Runs of as many digits compare as the numbers do. -/
theorem compare_digits {as bs : List Char} (ha : ∀ c ∈ as, c.isDigit) (hb : ∀ c ∈ bs, c.isDigit)
    (level : as.length = bs.length) : compare as bs = compare (runValue as) (runValue bs) := by
  induction as generalizing bs with
  | nil =>
    cases bs with
    | nil => rfl
    | cons b bs => cases level
  | cons a as ih =>
    cases bs with
    | nil => cases level
    | cons b bs =>
      rw [List.forall_mem_cons] at ha hb
      have level' : as.length = bs.length := Nat.succ.inj level
      have small := runValue_lt ha.2
      rw [level'] at small
      rw [List.compare_cons_cons, ih ha.2 hb.2 level', runValue_cons, runValue_cons, level',
        compare_mul_add small (runValue_lt hb.2), compare_digitValue ha.1 hb.1]

/-- Numbers of one width decide before what is written after them. -/
theorem compare_padded {width m n : Nat} (some_ : 0 < width) (hm : m < Nat.pow 10 width) (hn : n < Nat.pow 10 width)
    (as bs : List Char) : compare (padded width m ++ as) (padded width n ++ bs) = (compare m n).then (compare as bs) := by
  have level := (length_padded some_ hm).trans (length_padded some_ hn).symm
  rw [compare_append level, compare_digits (fun c => isDigit_of_mem_padded) (fun c => isDigit_of_mem_padded) level,
    runValue_padded, runValue_padded]

theorem compare_two {m n : Nat} (hm : m < 100) (hn : n < 100) (as bs : List Char) :
    compare (padded 2 m ++ as) (padded 2 n ++ bs) = (compare m n).then (compare as bs) :=
  compare_padded (by decide) hm hn as bs

theorem isAscii_padded (width n : Nat) : IsAscii (padded width n) := by
  intro c member
  have within : 48 ≤ c.toNat ∧ c.toNat ≤ 57 := by
    simpa [Char.isDigit, UInt32.le_iff_toNat_le] using isDigit_of_mem_padded member
  omega

theorem IsAscii.append {as bs : List Char} (ha : IsAscii as) (hb : IsAscii bs) : IsAscii (as ++ bs) :=
  List.forall_mem_append.2 ⟨ha, hb⟩

theorem IsAscii.cons {c : Char} {cs : List Char} (small : c.toNat < 128) (rest : IsAscii cs) : IsAscii (c :: cs) :=
  List.forall_mem_cons.2 ⟨small, rest⟩

end Text

namespace Calendar
open Text

/-! ## Days -/

namespace Date

/-- The year is written with four digits and without a sign. -/
def IsCommon (d : Date) : Prop :=
  0 ≤ d.year ∧ d.year ≤ 9999

variable {d e : Date}

theorem chars_eq (common : d.IsCommon) :
    d.chars ['-'] = padded 4 d.year.toNat ++ '-' :: (padded 2 d.month ++ '-' :: (padded 2 d.day ++ [])) := by
  have year : yearChars d.year = padded 4 d.year.toNat := if_pos common
  simp [chars, year]

theorem length_chars (common : d.IsCommon) : (d.chars ['-']).length = 10 := by
  have bounds := d.bounds
  have last := common.2
  have year : (padded 4 d.year.toNat).length = 4 :=
    length_padded (by decide) (show d.year.toNat < 10000 by omega)
  have two : ∀ {n : Nat}, n < 100 → (padded 2 n).length = 2 := fun small => length_padded (by decide) small
  rw [chars_eq common]
  simp [year, two (show d.month < 100 by omega), two (show d.day < 100 by omega)]

theorem isAscii_chars (common : d.IsCommon) : IsAscii (d.chars ['-']) := by
  rw [chars_eq common]
  exact .append (isAscii_padded _ _) (.cons (by decide) (.append (isAscii_padded _ _)
    (.cons (by decide) (.append (isAscii_padded _ _) nofun))))

/-- Days of the years 0 to 9999 sort as their texts. -/
theorem compare_chars (hd : d.IsCommon) (he : e.IsCommon) : compare (d.chars ['-']) (e.chars ['-']) = d.order e := by
  have boundsD := d.bounds
  have boundsE := e.bounds
  have lastD := hd.2
  have lastE := he.2
  have yearD : d.year.toNat < 10000 := by omega
  have yearE : e.year.toNat < 10000 := by omega
  have years : compare d.year.toNat e.year.toNat = compare d.year e.year := by
    have := hd.1
    have := he.1
    apply ordering_eq_of_iff
    · rw [Nat.compare_eq_lt, Int.compare_eq_lt]
      omega
    · rw [Nat.compare_eq_eq, Int.compare_eq_eq]
      omega
  rw [chars_eq hd, chars_eq he, compare_padded (by decide) yearD yearE, List.compare_cons_cons,
    compare_two (by omega) (by omega), List.compare_cons_cons, compare_two (by omega) (by omega), years]
  simp [order]

end Date

/-! ## Points in time -/

theorem Time.isAscii_chars (t : Time) : IsAscii t.chars :=
  .append (.append (isAscii_padded _ _) (.cons (by decide) (isAscii_padded _ _))) (.cons (by decide) (isAscii_padded _ _))

/-- Whole seconds of a day sort as their texts. A leap second comes last in its minute. -/
theorem Time.compare_chars {t u : Time} (ht : t.fraction = 0) (hu : u.fraction = 0) :
    compare t.chars u.chars = (compare t.second u.second).then (compare t.nano u.nano) := by
  obtain ⟨second, nano, inside, short, leap⟩ := t
  obtain ⟨second', nano', inside', short', leap'⟩ := u
  simp only [fraction, nanosPerSecond] at ht hu short short' leap leap'
  have shown : ∀ t : Time,
      t.chars = padded 2 t.hours ++ ':' :: (padded 2 t.minutes ++ ':' :: (padded 2 t.seconds ++ [])) := by
    intro t
    simp [chars]
  rw [shown, shown]
  simp only [hours, minutes, seconds, nanosPerSecond]
  rw [compare_two (by omega) (by omega), List.compare_cons_cons, compare_two (by omega) (by omega),
    List.compare_cons_cons, compare_two (by omega) (by omega)]
  simp only [Std.ReflCmp.compare_self, Ordering.eq_then, Ordering.then_eq]
  apply ordering_eq_of_iff
  · simp only [Ordering.then_eq_lt, Nat.compare_eq_lt, Nat.compare_eq_eq]
    omega
  · simp only [Ordering.then_eq_eq, Nat.compare_eq_eq]
    omega

/-- Nothing comes before midnight. -/
theorem Time.compare_midnight_left {t : Time} (other : t ≠ midnight) :
    (compare midnight.second t.second).then (compare midnight.nano t.nano) = .lt := by
  obtain ⟨second, nano, valid⟩ := t
  rw [Ordering.then_eq_lt, Nat.compare_eq_lt, Nat.compare_eq_eq, Nat.compare_eq_lt]
  by_contra none
  simp only [midnight] at none
  obtain ⟨rfl, rfl⟩ : second = 0 ∧ nano = 0 := by omega
  exact other rfl

theorem Time.compare_midnight_right {t : Time} (other : t ≠ midnight) :
    (compare t.second midnight.second).then (compare t.nano midnight.nano) = .gt := by
  rw [← Ordering.swap_eq_lt, Ordering.swap_then, ← Std.OrientedOrd.eq_swap, ← Std.OrientedOrd.eq_swap]
  exact Time.compare_midnight_left other

/-- The point in time is a whole second of the years 0 to 9999. -/
def DateTime.IsCommon (t : DateTime) : Prop :=
  t.date.IsCommon ∧ t.time.fraction = 0

end Calendar
end Reporting
