import Reporting.Proofs.Calendar.Order

/-!
Days and months by number. The day after is the one with the next number (`Date.next?_cases`), so that going on by days
or months is adding to a number, and leaves the calendar just if the sum is beyond the number of its last day or month
(`Date.addDays?_eq_some_iff`, `Date.addMonths?_eq_some_iff`).
-/

namespace Reporting.Calendar

/-- The number of days of a year. -/
def daysInYear (year : Int) : Nat :=
  if isLeap year then 366 else 365

/-- The number of days from the first day of year 0 to that of the year. -/
def daysBeforeYear (year : Int) : Int :=
  365 * year + (year + 3) / 4 - (year + 99) / 100 + (year + 399) / 400

/-- The number of days of the months before. -/
def daysBeforeMonth (year : Int) (month : Nat) : Nat :=
  (List.range (month - 1)).foldl (fun days m => days + daysIn year (m + 1)) 0

theorem daysBeforeYear_succ (year : Int) :
    daysBeforeYear (year + 1) = daysBeforeYear year + daysInYear year := by
  have leap : isLeap year = true ↔ year % 4 = 0 ∧ (year % 100 ≠ 0 ∨ year % 400 = 0) := by simp [isLeap]
  unfold daysBeforeYear daysInYear
  split
  · rename_i yes
    have := leap.1 yes
    omega
  · rename_i no
    have := mt leap.2 no
    omega

theorem daysBeforeMonth_succ (year : Int) {month : Nat} (first : 1 ≤ month) :
    daysBeforeMonth year (month + 1) = daysBeforeMonth year month + daysIn year month := by
  obtain ⟨m, rfl⟩ := Nat.exists_eq_add_of_le' first
  simp [daysBeforeMonth, List.range_succ]

theorem daysIn_pos (year : Int) (month : Nat) : 1 ≤ daysIn year month := by
  unfold daysIn
  split
  · split <;> decide
  · split <;> decide

theorem daysBeforeMonth_first (year : Int) : daysBeforeMonth year 1 = 0 :=
  rfl

/-- The twelve months make a year. -/
theorem daysBeforeMonth_last (year : Int) :
    daysBeforeMonth year 12 + daysIn year 12 = daysInYear year := by
  cases leap : isLeap year <;> simp [daysBeforeMonth, List.range, List.range.loop, daysIn, daysInYear, leap]

namespace Date
variable {d e : Date}

/-- The number of a day; the first day of year 0 has number one. -/
def number (d : Date) : Int :=
  daysBeforeYear d.year + (daysBeforeMonth d.year d.month + d.day : Nat)

/-- The number of a month; the first month of year 0 has number zero. -/
def monthNumber (d : Date) : Int :=
  d.year * 12 + (d.month - 1 : Nat)

/-- The last day of the calendar. -/
def last : Date := ⟨maxYear, 12, 31, by decide⟩

theorem ofNumbers?_of_valid {year : Int} {month day : Nat} (valid : ValidDate year month day) :
    ofNumbers? year month day = some ⟨year, month, day, valid⟩ :=
  dif_pos valid

theorem ofNumbers?_eq_none {year : Int} {month day : Nat} (invalid : ¬ ValidDate year month day) :
    ofNumbers? year month day = none :=
  dif_neg invalid

/-! ## Days one after another -/

theorem next?_of_short (within : d.day + 1 ≤ daysIn d.year d.month) :
    ∃ e, d.next? = some e ∧ e.number = d.number + 1 := by
  have valid := d.valid
  have same : ValidDate d.year d.month (d.day + 1) := by
    unfold ValidDate at valid ⊢
    omega
  refine ⟨_, by rw [next?, ofNumbers?_of_valid same]; rfl, ?_⟩
  simp only [number]
  omega

/-- After the last day of a month comes the first of the next one. -/
theorem next?_of_full (full : d.day = daysIn d.year d.month) (short : d.month < 12) :
    ∃ e, d.next? = some e ∧ e.number = d.number + 1 := by
  have valid := d.valid
  have none_ : ofNumbers? d.year d.month (d.day + 1) = none := ofNumbers?_eq_none fun v => by
    have := v.2.2.2.2.2
    omega
  have later : ValidDate d.year (d.month + 1) 1 := by
    have some_ := daysIn_pos d.year (d.month + 1)
    unfold ValidDate at valid ⊢
    omega
  refine ⟨_, by rw [next?, none_, ofNumbers?_of_valid later]; rfl, ?_⟩
  simp only [number, daysBeforeMonth_succ d.year d.bounds.2.1]
  omega

/-- After the last day of December comes the first of the next year, which may be beyond the calendar. -/
theorem next?_of_december (full : d.day = daysIn d.year d.month) (december : d.month = 12) :
    d.next? = (ofNumbers? (d.year + 1) 1 1) ∧ ∀ e, d.next? = some e → e.number = d.number + 1 := by
  have none_ : ofNumbers? d.year d.month (d.day + 1) = none := ofNumbers?_eq_none fun v => by
    have := v.2.2.2.2.2
    omega
  have none' : ofNumbers? d.year (d.month + 1) 1 = none := ofNumbers?_eq_none fun v => by
    have := v.2.2.2.1
    omega
  have turn : d.next? = ofNumbers? (d.year + 1) 1 1 := by rw [next?, none_, none']; rfl
  refine ⟨turn, fun e found => ?_⟩
  rw [turn] at found
  obtain ⟨year, month, day⟩ := ofNumbers?_eq_some found
  have whole := daysBeforeMonth_last d.year
  have before := daysBeforeYear_succ d.year
  rw [december] at full
  unfold number
  rw [year, month, day, december, full, daysBeforeMonth_first, before]
  omega

/-- The day after has the next number. Only the last day has none. -/
theorem next?_cases (d : Date) : (∃ e, d.next? = some e ∧ e.number = d.number + 1) ∨ d.next? = none ∧ d = last := by
  have valid := d.valid
  unfold ValidDate at valid
  by_cases within : d.day + 1 ≤ daysIn d.year d.month
  · exact Or.inl (next?_of_short within)
  have full : d.day = daysIn d.year d.month := by omega
  by_cases short : d.month < 12
  · exact Or.inl (next?_of_full full short)
  have december : d.month = 12 := by omega
  obtain ⟨turn, number⟩ := next?_of_december full december
  by_cases before : d.year < maxYear
  · have first : ValidDate (d.year + 1) 1 1 := by
      have some_ := daysIn_pos (d.year + 1) 1
      unfold ValidDate
      omega
    have found := turn.trans (ofNumbers?_of_valid first)
    exact Or.inl ⟨_, found, number _ found⟩
  · have beyond : ofNumbers? (d.year + 1) 1 1 = none := ofNumbers?_eq_none fun v => by
      have := v.2.1
      omega
    refine Or.inr ⟨turn.trans beyond, ?_⟩
    have year : d.year = maxYear := by omega
    have day : d.day = 31 := by rw [full, december]; rfl
    cases d
    cases year
    cases december
    cases day
    rfl

/-! ## Numbers tell days -/

theorem daysBeforeMonth_mono (year : Int) {month later : Nat} (first : 1 ≤ month) (before : month < later) :
    daysBeforeMonth year month + daysIn year month ≤ daysBeforeMonth year later := by
  induction before with
  | refl => exact Nat.le_of_eq (daysBeforeMonth_succ year first).symm
  | @step later before ih =>
    rw [Nat.succ_eq_add_one, daysBeforeMonth_succ year (Nat.lt_of_lt_of_le (Nat.succ_pos month) before)]
    exact Nat.le_trans ih (Nat.le_add_right ..)

theorem daysBeforeYear_mono {year later : Int} (before : year < later) :
    daysBeforeYear year + daysInYear year ≤ daysBeforeYear later := by
  rw [← daysBeforeYear_succ]
  unfold daysBeforeYear
  omega

/-- A day is within its year. -/
theorem number_le (d : Date) :
    daysBeforeYear d.year < d.number ∧ d.number ≤ daysBeforeYear d.year + daysInYear d.year := by
  have valid := d.valid
  unfold ValidDate at valid
  have whole := daysBeforeMonth_last d.year
  have within : daysBeforeMonth d.year d.month + daysIn d.year d.month ≤
      daysBeforeMonth d.year 12 + daysIn d.year 12 := by
    rcases Nat.lt_or_eq_of_le valid.2.2.2.1 with earlier | december
    · have := daysBeforeMonth_mono d.year valid.2.2.1 earlier
      omega
    · exact Nat.le_of_eq (by rw [december])
  unfold number
  omega

theorem number_lt_of_order (earlier : d.order e = .lt) : d.number < e.number := by
  have validD := d.valid
  have validE := e.valid
  unfold ValidDate at validD validE
  have yearD := d.number_le
  have yearE := e.number_le
  simp only [order, Ordering.then_eq_lt, Int.compare_eq_lt, Int.compare_eq_eq, Nat.compare_eq_lt,
    Nat.compare_eq_eq] at earlier
  rcases earlier with year | ⟨year, month | ⟨month, day⟩⟩
  · have := daysBeforeYear_mono year
    omega
  · have := daysBeforeMonth_mono d.year validD.2.2.1 month
    unfold number
    rw [← year]
    omega
  · unfold number
    rw [← year, ← month]
    omega

theorem number_inj : d.number = e.number ↔ d = e := by
  refine ⟨fun same => ?_, congrArg number⟩
  cases order : d.order e with
  | eq => exact Std.LawfulEqCmp.eq_of_compare order
  | lt =>
    have := number_lt_of_order order
    omega
  | gt =>
    have := number_lt_of_order (Std.OrientedCmp.lt_of_gt order)
    omega

theorem number_le_last (d : Date) : d.number ≤ last.number := by
  cases order : d.order last with
  | eq => exact Int.le_of_eq (number_inj.2 (Std.LawfulEqCmp.eq_of_compare order))
  | lt => exact Int.le_of_lt (number_lt_of_order order)
  | gt =>
    have bounds := d.bounds
    simp only [Date.order, last, Ordering.then_eq_gt, Int.compare_eq_gt, Int.compare_eq_eq, Nat.compare_eq_gt,
      Nat.compare_eq_eq] at order
    omega

/-! ## Going on -/

theorem addDays?_eq_some_iff {count : Nat} : d.addDays? count = some e ↔ e.number = d.number + count := by
  induction count generalizing d with
  | zero =>
    rw [addDays?, Option.some.injEq, ← number_inj]
    constructor <;> intro same <;> omega
  | succ count ih =>
    rw [addDays?]
    rcases next?_cases d with ⟨next, found, number⟩ | ⟨none_, rfl⟩
    · rw [found]
      dsimp only
      rw [ih, number]
      constructor <;> intro same <;> omega
    · rw [none_]
      have := e.number_le_last
      constructor
      · rintro ⟨⟩
      · intro same
        omega

theorem addDays?_eq_none_iff {count : Nat} : d.addDays? count = none ↔ last.number < d.number + count := by
  induction count generalizing d with
  | zero =>
    have := d.number_le_last
    constructor
    · rintro ⟨⟩
    · intro beyond
      omega
  | succ count ih =>
    rw [addDays?]
    rcases next?_cases d with ⟨next, found, number⟩ | ⟨none_, rfl⟩
    · rw [found]
      dsimp only
      rw [ih, number]
      constructor <;> intro beyond <;> omega
    · rw [none_]
      constructor
      · intro _
        omega
      · exact fun _ => rfl

theorem addMonths?_eq_some_iff {count : Nat} : d.addMonths? count = some e ↔
    e.monthNumber = d.monthNumber + count ∧ e.day = min d.day (daysIn e.year e.month) := by
  have bounds := e.bounds
  constructor
  · intro found
    obtain ⟨year, month, day⟩ := ofNumbers?_eq_some found
    refine ⟨?_, by rw [day, year, month]⟩
    unfold monthNumber
    omega
  · rintro ⟨months, day⟩
    unfold monthNumber at months
    have year : (d.year * 12 + (d.month - 1 : Nat) + count) / 12 = e.year := by omega
    have month : ((d.year * 12 + (d.month - 1 : Nat) + count) % 12).toNat + 1 = e.month := by omega
    unfold addMonths?
    dsimp only
    rw [year, month, ← day]
    exact ofNumbers?_of_valid e.valid

theorem addMonths?_eq_none_iff {count : Nat} :
    d.addMonths? count = none ↔ last.monthNumber < d.monthNumber + count := by
  have bounds := d.bounds
  have valid := d.valid
  unfold ValidDate at valid
  rw [show last.monthNumber = maxYear * 12 + 11 from rfl]
  unfold addMonths? ofNumbers? monthNumber
  dsimp only
  generalize total : d.year * 12 + (d.month - 1 : Nat) + (count : Int) = months
  have some_ := daysIn_pos (months / 12) ((months % 12).toNat + 1)
  split
  · rename_i inside
    unfold ValidDate at inside
    constructor
    · rintro ⟨⟩
    · intro beyond
      omega
  · rename_i outside
    unfold ValidDate at outside
    constructor
    · intro _
      omega
    · exact fun _ => rfl

end Date
end Reporting.Calendar
