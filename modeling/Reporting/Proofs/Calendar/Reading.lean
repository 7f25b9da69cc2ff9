import Mathlib.Data.List.TakeDrop
import Reporting.Calendar.Reader
import Reporting.Calendar.Text

/-!
Reading what was written. The digits of a number read as the number, however many zeros are in front
(`Text.runValue_padded`), and a day that is written out with its year first reads as the day (`readDateAs?_chars`), so
that different days have different texts. Points in time have different texts when they differ by more than the fraction
of a second (`DateTime.text_eq_iff`).
-/

namespace Reporting

/-! ## Runs of digits -/

namespace Text

theorem runValue_digitsOf (n : Nat) : runValue (digitsOf n) = n :=
  Nat.ofDigitChars_toDigits (by decide) (by decide)

theorem runValue_zeros (count : Nat) (digits : List Char) :
    runValue (List.replicate count '0' ++ digits) = runValue digits := by
  induction count with
  | zero => rfl
  | succ count ih => exact ih

theorem runValue_padded (width n : Nat) : runValue (padded width n) = n := by
  unfold padded padZeros
  rw [runValue_zeros, runValue_digitsOf]

theorem isDigit_of_mem_digitsOf {n : Nat} {c : Char} (member : c ∈ digitsOf n) : c.isDigit :=
  Nat.isDigit_of_mem_toDigits (by decide) (by decide) member

theorem isDigit_of_mem_padded {width n : Nat} {c : Char} (member : c ∈ padded width n) : c.isDigit := by
  rcases List.mem_append.1 member with zero | digit
  · rw [(List.mem_replicate.1 zero).2]
    rfl
  · exact isDigit_of_mem_digitsOf digit

theorem digitsOf_ne_nil (n : Nat) : digitsOf n ≠ [] := by
  unfold digitsOf
  rw [Nat.toDigits_eq_if (by decide)]
  split <;> simp

theorem padded_ne_nil (width n : Nat) : padded width n ≠ [] :=
  List.append_ne_nil_of_right_ne_nil _ (digitsOf_ne_nil n)

theorem length_padded {width n : Nat} (some_ : 0 < width) (fits : n < Nat.pow 10 width) : (padded width n).length = width := by
  have short : (digitsOf n).length ≤ width := (Nat.length_toDigits_le_iff (by decide) some_).2 fits
  unfold padded padZeros
  rw [List.length_append, List.length_replicate]
  omega

theorem skipBlanks_of_head {c : Char} (plain : isBlank c = false) (rest : List Char) : skipBlanks (c :: rest) = c :: rest := by
  unfold skipBlanks
  rw [List.dropWhile_cons_of_neg (by simp [plain])]

theorem isBlank_of_isDigit {c : Char} (digit : c.isDigit) : isBlank c = false := by
  have within : 48 ≤ c.toNat ∧ c.toNat ≤ 57 := by simpa [Char.isDigit, UInt32.le_iff_toNat_le] using digit
  unfold isBlank
  simp
  omega

theorem skipBlanks_padded (width n : Nat) (rest : List Char) :
    skipBlanks (padded width n ++ rest) = padded width n ++ rest := by
  have digits : ∀ c ∈ padded width n, c.isDigit := fun c => isDigit_of_mem_padded
  cases shape : padded width n with
  | nil => exact absurd shape (padded_ne_nil width n)
  | cons c cs =>
    rw [shape] at digits
    exact skipBlanks_of_head (isBlank_of_isDigit (digits c (List.mem_cons_self ..))) _

theorem skipBlanks_blank_padded (width n : Nat) (rest : List Char) :
    skipBlanks (' ' :: (padded width n ++ rest)) = padded width n ++ rest :=
  (List.dropWhile_cons_of_pos (by decide)).trans (skipBlanks_padded width n rest)

end Text

namespace Calendar
open Text

/-- A run of digits reads as its value, where it has as many digits as are read or no digit follows. -/
theorem readDigits?_append {most : Nat} {digits : List Char} (rest : List Char) (all : ∀ c ∈ digits, c.isDigit)
    (some_ : digits ≠ []) (ends : digits.length = most ∨ digits.length ≤ most ∧ ∀ c ∈ rest.head?, c.isDigit = false) :
    readDigits? most (digits ++ rest) = some (runValue digits, rest) := by
  have within : digits.length ≤ most := ends.elim Nat.le_of_eq And.left
  have stops : (rest.take (most - digits.length)).takeWhile Char.isDigit = [] := by
    rcases ends with exact | ⟨_, other⟩
    · rw [exact, Nat.sub_self]
      rfl
    · cases rest with
      | nil => simp
      | cons c rest =>
        have plain := other c rfl
        cases most - digits.length with
        | zero => rfl
        | succ left => simp [plain]
  have taken : ((digits ++ rest).take most).takeWhile Char.isDigit = digits := by
    rw [List.take_append, List.take_of_length_le within, List.takeWhile_append_of_pos all, stops, List.append_nil]
  unfold readDigits?
  simp only [taken]
  rw [if_neg (by simpa using some_), List.drop_left]

/-! ## Days -/

theorem readDigits?_padded {width k : Nat} (some_ : 0 < width) (fits : k < Nat.pow 10 width) (rest : List Char) :
    readDigits? width (padded width k ++ rest) = some (k, rest) := by
  rw [readDigits?_append rest (fun c => isDigit_of_mem_padded) (padded_ne_nil width k)
    (Or.inl (length_padded some_ fits)), runValue_padded]

/-- However many digits there may be, they end where another character follows. -/
theorem readDigits?_padded_of_head (width k : Nat) {rest : List Char} (ends : ∀ c ∈ rest.head?, c.isDigit = false) :
    readDigits? (padded width k ++ rest).length (padded width k ++ rest) = some (k, rest) := by
  rw [readDigits?_append rest (fun c => isDigit_of_mem_padded) (padded_ne_nil width k)
    (Or.inr ⟨by simp, ends⟩), runValue_padded]

theorem readYear?_padded {k : Nat} (fits : k < 10000) (rest : List Char) :
    readYear? (padded 4 k ++ rest) = some ((k : Int), rest) := by
  have value := readDigits?_padded (show 0 < 4 by decide) fits rest
  have digits : ∀ c ∈ padded 4 k, c.isDigit := fun c => isDigit_of_mem_padded
  cases shape : padded 4 k with
  | nil => exact absurd shape (padded_ne_nil 4 k)
  | cons c cs =>
    rw [shape] at value
    have digit := digits c (by simp [shape])
    unfold readYear?
    split
    · rename_i same
      cases same
      cases digit
    · rename_i same
      cases same
      cases digit
    · rw [value]
      rfl

namespace Numbers
variable (n : Numbers)

/-- A year is read with its sign, up to what is no digit. -/
theorem read?_year (year : Int) {rest : List Char} (ends : ∀ c ∈ rest.head?, c.isDigit = false) :
    n.read? .year (yearChars year ++ rest) = some ({ n with year := year }, rest) := by
  unfold read? yearChars
  by_cases usual : 0 ≤ year ∧ year ≤ 9999
  · have same : (year.toNat : Int) = year := Int.toNat_of_nonneg usual.1
    rw [if_pos usual]
    dsimp only
    rw [skipBlanks_padded, readYear?_padded (by omega), same]
    rfl
  · rw [if_neg usual]
    dsimp only
    by_cases negative : year < 0
    · have same : -(year.natAbs : Int) = year := by omega
      rw [if_pos negative, List.cons_append, skipBlanks_of_head rfl, readYear?, readDigits?_padded_of_head 4 _ ends]
      show some ({ n with year := -(year.natAbs : Int) }, rest) = _
      rw [same]
    · have same : (year.natAbs : Int) = year := by omega
      rw [if_neg negative, List.cons_append, skipBlanks_of_head rfl, readYear?, readDigits?_padded_of_head 4 _ ends]
      show some ({ n with year := (year.natAbs : Int) }, rest) = _
      rw [same]

/-- The numbers with another in place of one of two digits. -/
def withPart : Part → Nat → Numbers
  | .year, _ => n
  | .month, k => { n with month := k }
  | .day, k => { n with day := k }
  | .hour, k => { n with hour := k }
  | .minute, k => { n with minute := k }
  | .second, k => { n with second := k }

theorem read?_padded {part : Part} (short : part ≠ .year) {k : Nat} (fits : k < 100) (rest : List Char) :
    n.read? part (padded 2 k ++ rest) = some (n.withPart part k, rest) := by
  unfold read?
  dsimp only
  rw [skipBlanks_padded, readDigits?_padded (by decide) fits]
  cases part with
  | year => exact absurd rfl short
  | _ => rfl

end Numbers

/-- A day that is written out with its year first and marks between its numbers. -/
theorem readDateAs?_chars (d : Date) :
    readDateAs? (dateForm .year .month .day '-') (d.chars ['-']) = some d := by
  have bounds := d.bounds
  have split : d.chars ['-'] = yearChars d.year ++ '-' :: (padded 2 d.month ++ '-' :: (padded 2 d.day ++ [])) := by
    simp [Date.chars]
  unfold readDateAs? dateForm
  rw [split]
  simp only [readForm?, Piece.read?]
  rw [Numbers.read?_year _ _ (by simp)]
  simp only [if_true]
  rw [Numbers.read?_padded _ (by decide) (by omega)]
  simp only [if_true]
  rw [Numbers.read?_padded _ (by decide) (by omega)]
  simp [readForm?, Numbers.withPart, Numbers.date?, Date.ofNumbers?, d.valid]

theorem Date.text_inj {d e : Date} (same : d.text = e.text) : d = e := by
  have chars : d.chars ['-'] = e.chars ['-'] := String.ofList_injective same
  have read := readDateAs?_chars d
  rw [chars, readDateAs?_chars e] at read
  exact (Option.some.inj read).symm

/-- Days are told without marks between their numbers, too: month and day have two digits each. -/
theorem Date.compactText_inj {d e : Date} (same : d.compactText = e.compactText) : d = e := by
  have boundsD := d.bounds
  have boundsE := e.bounds
  have two : ∀ {k : Nat}, k < 100 → (padded 2 k).length = 2 := fun small => length_padded (by decide) small
  have written : d.chars [] = e.chars [] := String.ofList_injective same
  simp only [chars, List.append_nil] at written
  obtain ⟨front, day⟩ := List.append_inj' written (by rw [two (by omega), two (by omega)])
  obtain ⟨year, month⟩ := List.append_inj' front (by rw [two (by omega), two (by omega)])
  apply text_inj
  unfold text Date.chars
  rw [year, month, day]

theorem Date.not_mem_chars (d : Date) {c : Char} (digit : c.isDigit = false) (sign : c ≠ '-' ∧ c ≠ '+') : c ∉ d.chars [] := by
  have digits : ∀ width n, c ∉ padded width n := by
    intro width n member
    rw [isDigit_of_mem_padded member] at digit
    cases digit
  unfold Date.chars yearChars
  split_ifs <;> simp [digits, sign]

/-! ## Points in time -/

/-- A time of day is told by what the clock shows, if it is a whole second. -/
theorem Time.ofClock?_shown {t : Time} (whole : t.fraction = 0) : ofClock? t.hours t.minutes t.seconds 0 = some t := by
  obtain ⟨second, nano, valid⟩ := t
  have inside : second < 86400 := valid.1
  have short : nano < 2 * 1000000000 := valid.2.1
  have leap : 1000000000 ≤ nano → second % 60 = 59 := valid.2.2
  have shown : nano % 1000000000 = 0 := whole
  show ofClock? (second / 3600) (second / 60 % 60) (second % 60 + nano / 1000000000) 0 = _
  unfold ofClock? nanosPerSecond
  rcases (show nano = 0 ∨ nano = 1000000000 by omega) with rfl | rfl
  · have again : second / 3600 * 3600 + second / 60 % 60 * 60 + second % 60 = second := by omega
    rw [Nat.zero_div, Nat.add_zero, if_neg (by omega), if_neg (by omega)]
    simp only [again]
    rw [dif_pos valid]
  · have last := leap (Nat.le_refl _)
    have again : second / 3600 * 3600 + second / 60 % 60 * 60 + 59 = second := by omega
    rw [last, if_neg (by omega), if_pos (by decide)]
    simp only [again]
    rw [dif_pos valid]

/-- A whole second that is written out after its day. -/
theorem readDateTimeAs?_chars {t : DateTime} (whole : t.time.fraction = 0) :
    readDateTimeAs? (dateForm .year .month .day '-' ++ .blanks :: secondForm) t.chars = some t := by
  obtain ⟨d, time⟩ := t
  have bounds := d.bounds
  have valid := time.valid
  have hours : time.hours < 100 := by
    have := valid.1
    unfold Time.hours
    omega
  have minutes : time.minutes < 100 := by
    unfold Time.minutes
    omega
  have seconds : time.seconds < 100 := by
    have : time.nano < 2 * 1000000000 := valid.2.1
    show time.second % 60 + time.nano / 1000000000 < 100
    omega
  have split : (DateTime.mk d time).chars = yearChars d.year ++ '-' :: (padded 2 d.month ++ '-' :: (padded 2 d.day ++
      ' ' :: (padded 2 time.hours ++ ':' :: (padded 2 time.minutes ++ ':' :: (padded 2 time.seconds ++ []))))) := by
    simp [DateTime.chars, Date.chars, Time.chars]
  unfold readDateTimeAs? dateForm secondForm minuteForm
  rw [split]
  simp only [List.cons_append, List.nil_append, readForm?, Piece.read?]
  rw [Numbers.read?_year _ _ (by simp)]
  simp only [if_true]
  rw [Numbers.read?_padded _ (by decide) (by omega)]
  simp only [if_true]
  rw [Numbers.read?_padded _ (by decide) (by omega)]
  simp only [skipBlanks_blank_padded]
  rw [Numbers.read?_padded _ (by decide) hours]
  simp only [if_true]
  rw [Numbers.read?_padded _ (by decide) minutes]
  simp only [if_true]
  rw [Numbers.read?_padded _ (by decide) seconds]
  simp [readForm?, Numbers.withPart, Numbers.dateTime?, Numbers.date?, Numbers.time?, Date.ofNumbers?, d.valid,
    Time.ofClock?_shown whole]

/-! ## Whole seconds -/

/-- The time without the fraction of the second; a leap second stays one. -/
def Time.toSecond (t : Time) : Time :=
  ⟨t.second, t.nano / nanosPerSecond * nanosPerSecond, t.valid.1,
    Nat.lt_of_le_of_lt (Nat.div_mul_le_self ..) t.valid.2.1,
    fun leap => t.valid.2.2 (Nat.le_trans leap (Nat.div_mul_le_self ..))⟩

namespace Time

theorem chars_toSecond (t : Time) : t.toSecond.chars = t.chars := by
  have seconds : t.toSecond.seconds = t.seconds :=
    congrArg (t.second % 60 + ·) (Nat.mul_div_cancel _ (by decide))
  unfold chars
  rw [seconds]
  rfl

end Time

namespace DateTime

/-- The point in time without the fraction of the second. -/
def toSecond (t : DateTime) : DateTime :=
  ⟨t.date, t.time.toSecond⟩

theorem fraction_toSecond (t : DateTime) : t.toSecond.time.fraction = 0 :=
  Nat.mul_mod_left ..

theorem text_toSecond (t : DateTime) : t.toSecond.text = t.text := by
  unfold text chars
  rw [show t.toSecond.time.chars = t.time.chars from t.time.chars_toSecond]
  rfl

/-- The text tells a point in time to the second. -/
theorem text_eq_iff {t u : DateTime} : t.text = u.text ↔ t.toSecond = u.toSecond := by
  constructor
  · intro same
    rw [← text_toSecond t, ← text_toSecond u] at same
    have chars : t.toSecond.chars = u.toSecond.chars := String.ofList_injective same
    have read := readDateTimeAs?_chars t.fraction_toSecond
    rw [chars, readDateTimeAs?_chars u.fraction_toSecond] at read
    exact (Option.some.inj read).symm
  · intro same
    rw [← text_toSecond t, same, text_toSecond]

end DateTime

/-! ## What data files hold -/

/-- A day that is written out is read as data files have it, up to blanks after it. -/
theorem readForm?_isoDate (d : Date) (n : Numbers) (more : List Piece) (rest : List Char) :
    readForm? (isoDateForm ++ more) n (d.chars ['-'] ++ rest) =
      readForm? more { n with year := d.year, month := d.month, day := d.day } (skipBlanks rest) := by
  have bounds := d.bounds
  have split : d.chars ['-'] ++ rest =
      yearChars d.year ++ '-' :: (padded 2 d.month ++ '-' :: (padded 2 d.day ++ rest)) := by
    simp [Date.chars]
  have mark : ∀ rest, skipBlanks ('-' :: rest) = '-' :: rest := skipBlanks_of_head rfl
  unfold isoDateForm
  rw [split]
  simp only [List.cons_append, List.nil_append, readForm?, Piece.read?]
  rw [Numbers.read?_year _ _ (by simp)]
  simp only [mark, if_true]
  rw [Numbers.read?_padded _ (by decide) (by omega)]
  simp only [mark, if_true]
  rw [Numbers.read?_padded _ (by decide) (by omega)]
  rfl

theorem readIsoDate?_text (d : Date) : readIsoDate? d.text = some d := by
  have read := readForm?_isoDate d {} [] []
  rw [List.append_nil, List.append_nil] at read
  unfold readIsoDate? readDateAs? Date.text
  rw [String.toList_ofList, read]
  simp [readForm?, skipBlanks, Numbers.date?, Date.ofNumbers?, d.valid]

/-- The text of a point in time is not how data files write one: it has no T. -/
theorem readIsoDateTime?_text (t : DateTime) : readIsoDateTime? t.text = none := by
  have digits : ∀ c ∈ padded 2 t.time.hours, c.isDigit := fun c => isDigit_of_mem_padded
  unfold readIsoDateTime? readDateTimeAs? isoDateTimeForm DateTime.text DateTime.chars Time.chars
  rw [String.toList_ofList, readForm?_isoDate, List.append_assoc, skipBlanks_blank_padded]
  cases shape : padded 2 t.time.hours with
  | nil => exact absurd shape (padded_ne_nil 2 t.time.hours)
  | cons c rest =>
    have digit := digits c (by simp [shape])
    have other : 'T' ≠ c := by
      rintro rfl
      cases digit
    simp [readForm?, Piece.read?, other]

end Calendar
end Reporting
