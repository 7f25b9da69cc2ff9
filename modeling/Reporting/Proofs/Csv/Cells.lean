import Reporting.Csv.Cell
import Reporting.Proofs.Calendar.Forms
import Reporting.Report.Definition
import Reporting.Report.Table

/-!
Cells read back. A cell that is written out reads as the same cell in a column of its kind
(`Csv.cells_read_back`). A text that names a point in time names one and the same day wherever it is read: in a column of
days, in one of points in time and in the definition of a report (`Csv.dates_agree`).
-/

namespace Reporting

namespace Decimal
open Text

/-! ## Integers -/

theorem toList_toString (i : Int) :
    (toString i).toList = if i < 0 then '-' :: digitsOf i.natAbs else digitsOf i.natAbs := by
  cases i with
  | ofNat n =>
    rw [if_neg (by simp)]
    exact String.toList_ofList
  | negSucc n =>
    rw [if_pos (by simp)]
    show ("-" ++ String.ofList (digitsOf (n + 1))).toList = '-' :: digitsOf (n + 1)
    simp

theorem splitSign_digitsOf (n : Nat) : splitSign (digitsOf n) = (false, digitsOf n) := by
  cases shape : digitsOf n with
  | nil => exact absurd shape (digitsOf_ne_nil n)
  | cons c rest =>
    have digit : c.isDigit := isDigit_of_mem_digitsOf (n := n) (by simp [shape])
    unfold splitSign
    split
    · rename_i same
      cases same
      cases digit
    · rename_i same
      cases same
      cases digit
    · rfl

theorem readInteger?_of_splitSign {s : List Char} {negative : Bool} {n : Nat}
    (signed : splitSign s = (negative, digitsOf n)) : readInteger? s = some (if negative then -(n : Int) else n) := by
  have whole : (digitsOf n).all Char.isDigit := List.all_eq_true.2 fun c => isDigit_of_mem_digitsOf
  have some_ : (digitsOf n).isEmpty = false := by simpa using digitsOf_ne_nil n
  unfold readInteger?
  rw [signed]
  dsimp only
  rw [some_, whole, runValue_digitsOf]
  rfl

theorem readInteger?_toString (i : Int) : readInteger? (toString i).toList = some i := by
  rw [toList_toString]
  by_cases negative : i < 0
  · have value : -(i.natAbs : Int) = i := by omega
    have signed : splitSign ('-' :: digitsOf i.natAbs) = (true, digitsOf i.natAbs) := rfl
    rw [if_pos negative, readInteger?_of_splitSign signed, if_pos rfl, value]
  · have value : (i.natAbs : Int) = i := by omega
    rw [if_neg negative, readInteger?_of_splitSign (splitSign_digitsOf _), if_neg Bool.false_ne_true, value]

theorem readInt64?_toString (i : Int64) : readInt64? (toString i.toInt).toList = some i := by
  have least := i.le_toInt
  have most := i.toInt_lt
  have fits : fitsInt64 i.toInt = true := by
    unfold fitsInt64
    rw [Int64.toInt_minValue, Int64.toInt_maxValue, Bool.and_eq_true, decide_eq_true_eq, decide_eq_true_eq]
    omega
  unfold readInt64?
  rw [readInteger?_toString]
  dsimp only
  rw [if_pos fits, Int64.ofInt_toInt]

theorem tight_toString (i : Int) : Tight (toString i).toList := by
  refine tight_of_forall fun c member => ?_
  rw [toList_toString] at member
  split at member
  · rcases List.mem_cons.1 member with rfl | digit
    · rfl
    · exact isBlank_of_isDigit (isDigit_of_mem_digitsOf digit)
  · exact isBlank_of_isDigit (isDigit_of_mem_digitsOf member)

theorem toString_ne_nil (i : Int) : (toString i).toList ≠ [] := by
  rw [toList_toString]
  split
  · simp
  · exact digitsOf_ne_nil _

end Decimal

namespace Calendar
open Text

/-! ## Days and points in time -/

theorem isBlank_of_mem_padded {width n : Nat} {c : Char} (member : c ∈ padded width n) : isBlank c = false :=
  isBlank_of_isDigit (isDigit_of_mem_padded member)

theorem tight_dateChars (d : Date) : Tight (d.chars ['-']) := by
  have year : ∀ c ∈ yearChars d.year, isBlank c = false := by
    intro c member
    unfold yearChars at member
    split at member
    · exact isBlank_of_mem_padded member
    · rcases List.mem_cons.1 member with rfl | digit
      · split <;> rfl
      · exact isBlank_of_mem_padded digit
  refine tight_of_forall fun c member => ?_
  simp only [Date.chars, List.mem_append, List.mem_singleton] at member
  rcases member with (((member | rfl) | member) | rfl) | member
  · exact year c member
  · rfl
  · exact isBlank_of_mem_padded member
  · rfl
  · exact isBlank_of_mem_padded member

theorem dateChars_ne_nil (d : Date) : d.chars ['-'] ≠ [] := by
  simp [Date.chars]

theorem tight_timeChars (t : Time) : Tight t.chars := by
  refine tight_of_forall fun c member => ?_
  simp only [Time.chars, List.mem_append, List.mem_cons] at member
  rcases member with (member | rfl | member) | rfl | member
  · exact isBlank_of_mem_padded member
  · rfl
  · exact isBlank_of_mem_padded member
  · rfl
  · exact isBlank_of_mem_padded member

/-- The only blank stands between the day and the time. -/
theorem tight_dateTimeChars (t : DateTime) : Tight t.chars :=
  (tight_dateChars t.date).around (tight_timeChars t.time) ⟨dateChars_ne_nil t.date, by simp [Time.chars]⟩ [' ']

theorem readDateChars?_chars (d : Date) : readDateChars? (d.chars ['-']) = some d := by
  have plain : readPlainDate? (d.chars ['-']) = some d := by
    unfold readPlainDate? dateForms
    rw [List.findSome?_cons, readDateAs?_chars]
  unfold readDateChars?
  rw [plain]
  rfl

theorem readDateTimeChars?_chars {t : DateTime} (whole : t.time.fraction = 0) : readDateTimeChars? t.chars = some t := by
  have first : (dateTimeForms.findSome? fun form => readDateTimeAs? form t.chars) = some t := by
    unfold dateTimeForms
    rw [List.findSome?_cons, readDateTimeAs?_chars whole]
  unfold readDateTimeChars?
  rw [first]
  rfl

end Calendar

/-- A cell that its text tells to a reader of the kind. A point in time is a whole second, and a text has something in it
and no blank at either end. -/
inductive FieldKind.Tells : FieldKind → Value → Prop where
  | missing (kind : FieldKind) : Tells kind .null
  | integer (i : Int64) : Tells .integer (.int i)
  | relation (i : Int64) : Tells .relation (.int i)
  | boolean (b : Bool) : Tells .boolean (.bool b)
  | date (d : Calendar.Date) : Tells .date (.date d)
  | dateTime {t : Calendar.DateTime} (whole : t.time.fraction = 0) : Tells .dateTime (.dateTime t)
  | text {s : String} (some_ : s ≠ "") (tight : Text.Tight s.toList) : Tells .text (.text s)

namespace Csv
open Text Calendar

/-! ## Cells -/

theorem parseCell_of_tight {cell : String} {s : List Char} {kind : FieldKind} {v : Value} (chars : cell.toList = s)
    (tight : Tight s) (some_ : s ≠ []) (read : readCell? kind s = some v) : parseCell cell kind = .ok v := by
  unfold parseCell
  rw [chars, tight.trimChars_eq]
  dsimp only
  rw [if_neg (by simpa using some_), read]

/-- Cells read back. What is written for a cell reads as the cell in a column of its kind: integers and keys of all 64
bits, truth values, days of all years, whole seconds, and texts that are not empty and have no blank at either end; and
what is written for a missing cell reads as missing in every column. -/
theorem cells_read_back {kind : FieldKind} {v : Value} (tells : kind.Tells v) :
    parseCell (Report.plainCell (some v)) kind = .ok v := by
  cases tells with
  | missing => rfl
  | integer i =>
    have shown : (Report.plainCell (some (.int i))).toList = (toString i.toInt).toList := rfl
    refine parseCell_of_tight shown (Decimal.tight_toString i.toInt) (Decimal.toString_ne_nil i.toInt) ?_
    rw [readCell?, Decimal.readInt64?_toString]
    rfl
  | relation i =>
    have shown : (Report.plainCell (some (.int i))).toList = (toString i.toInt).toList := rfl
    refine parseCell_of_tight shown (Decimal.tight_toString i.toInt) (Decimal.toString_ne_nil i.toInt) ?_
    rw [readCell?, Decimal.readInt64?_toString]
  | boolean b =>
    have tight : Tight (Report.plainCell (some (.bool b))).toList := by
      cases b <;> exact ⟨fun c first => by cases first; rfl, fun c last => by cases last; rfl⟩
    cases b with
    | false => exact parseCell_of_tight rfl tight (List.cons_ne_nil _ _) rfl
    | true => exact parseCell_of_tight rfl tight (List.cons_ne_nil _ _) rfl
  | date d =>
    refine parseCell_of_tight String.toList_ofList (tight_dateChars d) (dateChars_ne_nil d) ?_
    rw [readCell?, readDateChars?_chars]
    rfl
  | @dateTime t whole =>
    refine parseCell_of_tight String.toList_ofList (tight_dateTimeChars t) (by simp [DateTime.chars]) ?_
    rw [readCell?, readDateTimeChars?_chars whole]
    rfl
  | @text s some_ tight =>
    have shown : (Report.plainCell (some (.text s))).toList = s.toList := rfl
    refine parseCell_of_tight shown tight (by simpa using some_) ?_
    rw [readCell?, String.ofList_toList]

/-- Before our era, after the year 9999, in a leap second and at the end of the integers. -/
theorem caesar_read_back : ∃ ides end_,
    Report.plainCell (some (.date ides)) = "-0044-03-15" ∧ parseCell "-0044-03-15" .date = .ok (.date ides) ∧
    Report.plainCell (some (.dateTime end_)) = "+12345-06-30 23:59:60" ∧
      parseCell "+12345-06-30 23:59:60" .dateTime = .ok (.dateTime end_) ∧
    parseCell "-9223372036854775808" .relation = .ok (.int Int64.minValue) := by
  have ides : Report.plainCell (some (.date ⟨-44, 3, 15, by decide⟩)) = "-0044-03-15" := rfl
  have end_ : Report.plainCell (some (.dateTime ⟨⟨12345, 6, 30, by decide⟩, 86399, 1000000000, by decide⟩)) =
      "+12345-06-30 23:59:60" := rfl
  have least : Report.plainCell (some (.int Int64.minValue)) = "-9223372036854775808" := rfl
  exact ⟨_, _, ides, ides ▸ cells_read_back (.date _), end_, end_ ▸ cells_read_back (.dateTime rfl),
    least ▸ cells_read_back (.relation _)⟩

theorem parseCell_eq_ok_iff {cell : String} {kind : FieldKind} {v : Value} (present : v ≠ .null) :
    parseCell cell kind = .ok v ↔
      (trimChars cell.toList).isEmpty = false ∧ readCell? kind (trimChars cell.toList) = some v := by
  unfold parseCell
  dsimp only
  cases (trimChars cell.toList).isEmpty with
  | true => simp [eq_comm, present]
  | false =>
    rw [if_neg Bool.false_ne_true]
    split
    · rename_i found
      simp [found]
    · rename_i none_
      simp [none_]

theorem parseCell_date_iff {cell : String} {d : Date} :
    parseCell cell .date = .ok (.date d) ↔ readDateChars? (trimChars cell.toList) = some d := by
  rw [parseCell_eq_ok_iff (by simp), readCell?]
  simp only [Option.map_eq_some_iff, Value.date.injEq, exists_eq_right, and_iff_right_iff_imp]
  intro read
  cases shape : trimChars cell.toList with
  | nil =>
    rw [shape] at read
    cases read
  | cons => rfl

theorem parseCell_dateTime_iff {cell : String} {t : DateTime} :
    parseCell cell .dateTime = .ok (.dateTime t) ↔ readDateTimeChars? (trimChars cell.toList) = some t := by
  rw [parseCell_eq_ok_iff (by simp), readCell?]
  simp only [Option.map_eq_some_iff, Value.dateTime.injEq, exists_eq_right, and_iff_right_iff_imp]
  intro read
  cases shape : trimChars cell.toList with
  | nil =>
    rw [shape] at read
    cases read
  | cons => rfl

/-- All readers of dates agree on every text, also on one that several forms read. The day that a text names is that of the
point in time that it names, and it names the one if it names the other; so a column of days holds the day of what a
column of points in time holds, and what the definition of a report takes a text for is what both columns do. -/
theorem dates_agree (s : String) :
    readDate? s = (readDateTime? s).map DateTime.date ∧ (readDate? s = none ↔ readDateTime? s = none) ∧
    (∀ d, parseCell s .date = .ok (.date d) ↔ ∃ t, parseCell s .dateTime = .ok (.dateTime t) ∧ t.date = d) ∧
    ∀ t, ReportDefinition.readDate s = .ok t →
      parseCell s .dateTime = .ok (.dateTime t) ∧ parseCell s .date = .ok (.date t.date) := by
  have day : readDate? s = (readDateTime? s).map DateTime.date := readDateChars?_eq s.toList
  refine ⟨day, ?_, fun d => ?_, fun t defined => ?_⟩
  · rw [day, Option.map_eq_none_iff]
  · simp only [parseCell_date_iff, parseCell_dateTime_iff, readDateChars?_eq, Option.map_eq_some_iff]
  · have read : readDateTimeChars? s.toList = some t := by
      unfold ReportDefinition.readDate at defined
      split at defined
      · rename_i found
        cases defined
        exact found
      · cases defined
    have trimmed := readDateTimeChars?_trimChars read
    rw [parseCell_date_iff, parseCell_dateTime_iff, readDateChars?_eq, trimmed]
    exact ⟨rfl, rfl⟩

/-- Two forms read the text, one with the month first and one with the day; all readers take the month. -/
theorem march_agreed : ∃ t, ReportDefinition.readDate " 03/04/2024" = .ok t ∧ t.date.month = 3 ∧
    parseCell " 03/04/2024" .dateTime = .ok (.dateTime t) ∧ parseCell " 03/04/2024" .date = .ok (.date t.date) := by
  obtain ⟨_, _, _, defined⟩ := dates_agree " 03/04/2024"
  have read : ReportDefinition.readDate " 03/04/2024" = .ok (.atMidnight ⟨2024, 3, 4, by decide⟩) := rfl
  exact ⟨_, read, rfl, defined _ read⟩

end Csv
end Reporting
