import Mathlib.Data.List.Basic
import Mathlib.Data.List.DropRight
import Mathlib.Data.List.TakeWhile
import Reporting.Proofs.Calendar.Reading

/-!
What a text is like that is read by a form. The marks of the form, and no others, are in the text
(`Calendar.mem_iff_of_readForm?`), so that forms with different marks read different texts: a text that is read as a day
alone has no colon, and one that is read as a point in time has one. Hence both readers find the same day in every text
(`Calendar.readDateChars?_eq`).
-/

namespace Reporting

namespace Text

/-- There is no blank at either end. -/
def Tight (s : List Char) : Prop :=
  (∀ c ∈ s.head?, isBlank c = false) ∧ ∀ c ∈ s.getLast?, isBlank c = false

theorem skipBlanks_eq_self {s : List Char} (first : ∀ c ∈ s.head?, isBlank c = false) : skipBlanks s = s := by
  cases s with
  | nil => rfl
  | cons c rest => exact skipBlanks_of_head (first c rfl) rest

/-- Blanks at the end are dropped just if there are any. -/
theorem trimChars_eq_skipBlanks {s : List Char} (last : ∀ c ∈ s.getLast?, isBlank c = false) :
    trimChars s = skipBlanks s := by
  have kept : ∀ c ∈ (skipBlanks s).reverse.head?, isBlank c = false := by
    intro c member
    rw [List.head?_reverse] at member
    have suffix : skipBlanks s <:+ s := List.dropWhile_suffix _
    obtain ⟨front, split⟩ := suffix
    refine last c ?_
    rw [← split, List.getLast?_append, Option.mem_def.1 member]
    rfl
  unfold trimChars
  rw [skipBlanks_eq_self kept, List.reverse_reverse]

theorem Tight.trimChars_eq {s : List Char} (tight : Tight s) : trimChars s = s := by
  rw [trimChars_eq_skipBlanks tight.2, skipBlanks_eq_self tight.1]

theorem tight_of_forall {s : List Char} (plain : ∀ c ∈ s, isBlank c = false) : Tight s :=
  ⟨fun c member => plain c (List.mem_of_mem_head? member), fun c member => plain c (List.mem_of_getLast? member)⟩

/-- Blanks inside do no harm. -/
theorem Tight.around {first last : List Char} (before : Tight first) (after : Tight last) (some_ : first ≠ [] ∧ last ≠ [])
    (middle : List Char) : Tight (first ++ (middle ++ last)) := by
  constructor
  · rw [List.head?_append_of_ne_nil _ some_.1]
    exact before.1
  · rw [List.getLast?_append_of_ne_nil _ (List.append_ne_nil_of_right_ne_nil _ some_.2),
      List.getLast?_append_of_ne_nil _ some_.2]
    exact after.2

end Text

namespace Calendar
open Text

/-! ## What a piece takes -/

theorem append_of_readDigits? {most k : Nat} {s rest : List Char} (read : readDigits? most s = some (k, rest)) :
    ∃ digits, s = digits ++ rest ∧ digits ≠ [] ∧ ∀ c ∈ digits, c.isDigit := by
  unfold readDigits? at read
  dsimp only at read
  split at read
  · cases read
  · rename_i some_
    cases read
    have first : (s.take most).takeWhile Char.isDigit <+: s :=
      (List.takeWhile_prefix _).trans (List.take_prefix _ _)
    refine ⟨_, (List.prefix_iff_eq_append.1 first).symm, by simpa using some_, ?_⟩
    exact fun c member => List.mem_takeWhile_imp member

theorem append_of_readYear? {s rest : List Char} {year : Int} (read : readYear? s = some (year, rest)) :
    ∃ sign digits, s = sign ++ (digits ++ rest) ∧ (∀ c ∈ sign, c = '-' ∨ c = '+') ∧ digits ≠ [] ∧
      ∀ c ∈ digits, c.isDigit := by
  unfold readYear? at read
  split at read
  all_goals
    obtain ⟨⟨k, after⟩, run, same⟩ := Option.map_eq_some_iff.1 read
    cases same
    obtain ⟨digits, rfl, whole⟩ := append_of_readDigits? run
  · exact ⟨['-'], digits, rfl, by simp, whole⟩
  · exact ⟨['+'], digits, rfl, by simp, whole⟩
  · exact ⟨[], digits, rfl, by simp, whole⟩

/-- A number is digits, after blanks and perhaps a sign. -/
theorem append_of_readNumber? {n n' : Numbers} {part : Part} {s rest : List Char} (read : n.read? part s = some (n', rest)) :
    ∃ front digits, s = front ++ (digits ++ rest) ∧ (∀ c ∈ front, isBlank c ∨ c = '-' ∨ c = '+') ∧ digits ≠ [] ∧
      ∀ c ∈ digits, c.isDigit := by
  have blanks : ∀ c ∈ s.takeWhile isBlank, isBlank c = true := fun c member => List.mem_takeWhile_imp member
  have split : s = s.takeWhile isBlank ++ skipBlanks s := List.takeWhile_append_dropWhile.symm
  have plain : ∀ {most k : Nat}, readDigits? most (skipBlanks s) = some (k, rest) →
      ∃ front digits, s = front ++ (digits ++ rest) ∧ (∀ c ∈ front, isBlank c ∨ c = '-' ∨ c = '+') ∧ digits ≠ [] ∧
        ∀ c ∈ digits, c.isDigit := by
    intro most k read
    obtain ⟨digits, same, whole⟩ := append_of_readDigits? read
    rw [same] at split
    exact ⟨_, digits, split, fun c member => Or.inl (blanks c member), whole⟩
  unfold Numbers.read? at read
  cases part with
  | year =>
    obtain ⟨⟨year, after⟩, run, same⟩ := Option.map_eq_some_iff.1 read
    cases same
    obtain ⟨sign, digits, same, signs, whole⟩ := append_of_readYear? run
    rw [same, ← List.append_assoc] at split
    refine ⟨_, digits, split, fun c member => ?_, whole⟩
    rcases List.mem_append.1 member with blank | other
    · exact Or.inl (blanks c blank)
    · exact Or.inr (signs c other)
  | _ =>
    obtain ⟨⟨k, after⟩, run, same⟩ := Option.map_eq_some_iff.1 read
    cases same
    exact plain run

theorem append_of_readFraction? {s rest : List Char} {nano : Nat} (read : readFraction? s = some (nano, rest)) :
    ∃ digits, s = digits ++ rest ∧ ∀ c ∈ digits, c.isDigit := by
  unfold readFraction? at read
  dsimp only at read
  split at read
  · cases read
  · cases read
    exact ⟨s.takeWhile Char.isDigit, List.takeWhile_append_dropWhile.symm, fun c member => List.mem_takeWhile_imp member⟩

/-- The character is read as itself only: it is in no number, blank or fraction. -/
def IsMark (c : Char) : Prop :=
  c.isDigit = false ∧ isBlank c = false ∧ c ≠ '-' ∧ c ≠ '+' ∧ c ≠ '.'

instance (c : Char) : Decidable (IsMark c) :=
  inferInstanceAs (Decidable (_ ∧ _))

namespace Piece

/-- What is read by the piece has a last character, and that is no blank. -/
def isSolid : Piece → Bool
  | number _ => true
  | mark c => !isBlank c
  | blanks => false
  | fraction => false

/-- What a piece takes of a text: its own mark and no other, and if it is solid, something that ends in no blank. -/
structure Takes (piece : Piece) (taken : List Char) : Prop where
  marks : ∀ c, IsMark c → (c ∈ taken ↔ piece = .mark c)
  ends : piece.isSolid → ∃ front c, taken = front ++ [c] ∧ isBlank c = false

theorem takes_of_read? {piece : Piece} {n n' : Numbers} {s rest : List Char} (read : piece.read? n s = some (n', rest)) :
    ∃ taken, s = taken ++ rest ∧ piece.Takes taken := by
  unfold Piece.read? at read
  cases piece with
  | number part =>
    obtain ⟨front, digits, rfl, blanks, some_, whole⟩ := append_of_readNumber? read
    refine ⟨front ++ digits, (List.append_assoc ..).symm, fun c mark => ?_, fun _ => ?_⟩
    · obtain ⟨digit, blank, minus, plus, _⟩ := mark
      simp only [reduceCtorEq, iff_false, List.mem_append, not_or]
      refine ⟨fun member => ?_, fun member => ?_⟩
      · simpa [blank, minus, plus] using blanks c member
      · simpa [digit] using whole c member
    · refine ⟨front ++ digits.dropLast, digits.getLast some_, ?_, isBlank_of_isDigit (whole _ (List.getLast_mem some_))⟩
      rw [List.append_assoc, List.dropLast_append_getLast]
  | mark c =>
    dsimp only at read
    split at read
    · rename_i d after
      by_cases same : c = d
      · rw [if_pos same] at read
        cases read
        subst same
        refine ⟨[c], rfl, fun e _ => by simp [eq_comm], fun solid => ⟨[], c, rfl, by simpa [isSolid] using solid⟩⟩
      · rw [if_neg same] at read
        cases read
    · cases read
  | blanks =>
    cases read
    refine ⟨s.takeWhile isBlank, List.takeWhile_append_dropWhile.symm, fun c mark => ?_, nofun⟩
    simp only [reduceCtorEq, iff_false]
    intro member
    simpa [mark.2.1] using List.mem_takeWhile_imp member
  | fraction =>
    dsimp only at read
    split at read
    · obtain ⟨⟨nano, after⟩, fraction, same⟩ := Option.map_eq_some_iff.1 read
      cases same
      obtain ⟨digits, rfl, whole⟩ := append_of_readFraction? fraction
      refine ⟨'.' :: digits, rfl, fun c mark => ?_, nofun⟩
      obtain ⟨digit, _, _, _, point⟩ := mark
      simp only [reduceCtorEq, iff_false, List.mem_cons, not_or]
      exact ⟨point, fun member => by simpa [digit] using whole c member⟩
    · cases read
      exact ⟨[], rfl, fun c _ => by simp, nofun⟩

end Piece

/-! ## What a form reads -/

/-- The marks in the text are those of the form. -/
theorem mem_iff_of_readForm? {form : List Piece} {n n' : Numbers} {s : List Char} (read : readForm? form n s = some n')
    {c : Char} (mark : IsMark c) : c ∈ s ↔ .mark c ∈ form := by
  induction form generalizing n s with
  | nil =>
    cases s with
    | nil => simp
    | cons => cases read
  | cons piece form ih =>
    unfold readForm? at read
    split at read
    · rename_i n₁ rest first
      obtain ⟨taken, rfl, takes⟩ := Piece.takes_of_read? first
      rw [List.mem_append, List.mem_cons, takes.marks c mark, ih read, eq_comm]
    · cases read

theorem readForm?_nil {form : List Piece} {piece : Piece} (member : piece ∈ form) (solid : piece.isSolid) (n : Numbers) :
    readForm? form n [] = none := by
  induction form generalizing n with
  | nil => cases member
  | cons first form ih =>
    unfold readForm?
    split
    · rename_i n₁ rest read
      obtain ⟨taken, split, takes⟩ := Piece.takes_of_read? read
      obtain ⟨rfl, rfl⟩ := List.append_eq_nil_iff.1 split.symm
      rcases List.mem_cons.1 member with rfl | later
      · obtain ⟨front, c, same, _⟩ := takes.ends solid
        simp at same
      · exact ih later n₁
    · rfl

/-- A text that is read by a form with a solid piece at its end ends in no blank. -/
theorem isBlank_of_readForm? {form : List Piece} {n n' : Numbers} {s : List Char} (read : readForm? form n s = some n')
    (solid : ∀ piece ∈ form.getLast?, piece.isSolid) : ∀ c ∈ s.getLast?, isBlank c = false := by
  induction form generalizing n s with
  | nil =>
    cases s with
    | nil => simp
    | cons => cases read
  | cons piece form ih =>
    unfold readForm? at read
    split at read
    · rename_i n₁ rest first
      obtain ⟨taken, rfl, takes⟩ := Piece.takes_of_read? first
      by_cases ended : rest = []
      · subst ended
        cases form with
        | nil =>
          obtain ⟨front, c, rfl, plain⟩ := takes.ends (solid piece rfl)
          simpa using plain
        | cons next form =>
          have solid' := solid ((next :: form).getLast (List.cons_ne_nil next form)) (by
            rw [List.getLast?_cons_cons, List.getLast?_eq_some_getLast (List.cons_ne_nil next form), Option.mem_some])
          rw [readForm?_nil (List.getLast_mem _) solid'] at read
          cases read
      · rw [List.getLast?_append_of_ne_nil _ ended]
        refine ih read fun last member => solid last ?_
        cases form with
        | nil => cases member
        | cons next form => rwa [List.getLast?_cons_cons]
    · cases read

/-- Blanks before a number do not count. -/
theorem readForm?_skipBlanks {part : Part} {form : List Piece} (first : form.head? = some (.number part)) (n : Numbers)
    (s : List Char) : readForm? form n (skipBlanks s) = readForm? form n s := by
  have once : skipBlanks (skipBlanks s) = skipBlanks s := List.dropWhile_idempotent ..
  cases form with
  | nil => cases first
  | cons piece form =>
    obtain rfl : piece = .number part := Option.some.inj first
    unfold readForm? Piece.read? Numbers.read?
    rw [once]

/-! ## Stamps -/

theorem append_of_readExactly? {count k : Nat} {s rest : List Char} (read : readExactly? count s = some (k, rest)) :
    ∃ digits, s = digits ++ rest ∧ digits.length = count ∧ ∀ c ∈ digits, c.isDigit := by
  unfold readExactly? at read
  dsimp only at read
  split at read
  · rename_i whole
    cases read
    exact ⟨s.take count, (List.take_append_drop count s).symm, whole.1, by simpa using whole.2⟩
  · cases read

theorem eq_of_skipMark? {c : Char} {s rest : List Char} (skipped : skipMark? c s = some rest) : s = c :: rest := by
  unfold skipMark? at skipped
  split at skipped
  · split at skipped
    · rename_i same
      cases skipped
      rw [same]
    · cases skipped
  · cases skipped

/-- One of three marks stands between the day and the time. -/
theorem exists_eq_of_skipMarks? {a b c : Char} {s rest : List Char}
    (skipped : (skipMark? a s <|> skipMark? b s <|> skipMark? c s) = some rest) : ∃ d, s = d :: rest := by
  simp only [Option.orElse_eq_orElse, Option.orElse_eq_or, Option.or_eq_some_iff] at skipped
  rcases skipped with mark | ⟨_, mark | ⟨_, mark⟩⟩
  · exact ⟨a, eq_of_skipMark? mark⟩
  · exact ⟨b, eq_of_skipMark? mark⟩
  · exact ⟨c, eq_of_skipMark? mark⟩

/-- The distance from universal time ends in a Z or a digit. -/
theorem ends_of_readOffset? {s : List Char} {distance : Int} (read : readOffset? s = some (distance, [])) :
    ∃ front c, s = front ++ [c] ∧ isBlank c = false := by
  unfold readOffset? at read
  split at read
  · cases read
  · rename_i c rest
    by_cases zero : c = 'Z' ∨ c = 'z'
    · rw [if_pos zero] at read
      cases read
      refine ⟨[], c, rfl, ?_⟩
      rcases zero with rfl | rfl <;> rfl
    · rw [if_neg zero] at read
      split at read
      · simp only [Option.bind_eq_bind, Option.bind_eq_some_iff, Prod.exists] at read
        obtain ⟨hours, s₁, hours_, s₂, mark, minutes, s₃, minutes_, last⟩ := read
        split at last
        · cases last
        · cases last
          obtain ⟨digits, rfl, length, whole⟩ := append_of_readExactly? minutes_
          have some_ : digits ≠ [] := List.ne_nil_of_length_pos (by omega)
          obtain ⟨first, rfl, _⟩ := append_of_readExactly? hours_
          obtain rfl := eq_of_skipMark? mark
          refine ⟨c :: (first ++ ':' :: digits.dropLast), digits.getLast some_, ?_,
            isBlank_of_isDigit (whole _ (List.getLast_mem some_))⟩
          simp [List.dropLast_append_getLast]
      · cases read

/-- Nothing may be left over. -/
theorem eq_nil_of_ite {α : Type} {s : List Char} {x : Option α} {a : α}
    (result : (if s.isEmpty then x else none) = some a) : s = [] := by
  by_cases ended : s.isEmpty
  · exact List.isEmpty_iff.1 ended
  · rw [if_neg ended] at result
    cases result

/-- A stamp begins with a digit, has a colon, and ends in no blank. -/
theorem tight_of_readStamp? {s : List Char} {t : DateTime} (read : readStamp? s = some t) : Tight s ∧ ':' ∈ s := by
  unfold readStamp? at read
  obtain ⟨⟨year, _⟩, year_, read⟩ := Option.bind_eq_some_iff.1 read
  obtain ⟨_, mark₁, read⟩ := Option.bind_eq_some_iff.1 read
  obtain ⟨⟨month, _⟩, month_, read⟩ := Option.bind_eq_some_iff.1 read
  obtain ⟨_, mark₂, read⟩ := Option.bind_eq_some_iff.1 read
  obtain ⟨⟨day, between⟩, day_, read⟩ := Option.bind_eq_some_iff.1 read
  obtain ⟨clock, mark₃, read⟩ := Option.bind_eq_some_iff.1 read
  obtain ⟨⟨hour, _⟩, hour_, read⟩ := Option.bind_eq_some_iff.1 read
  obtain ⟨_, mark₄, read⟩ := Option.bind_eq_some_iff.1 read
  obtain ⟨⟨minute, _⟩, minute_, read⟩ := Option.bind_eq_some_iff.1 read
  obtain ⟨_, mark₅, read⟩ := Option.bind_eq_some_iff.1 read
  obtain ⟨⟨second, left⟩, second_, read⟩ := Option.bind_eq_some_iff.1 read
  obtain ⟨rest, distance, ⟨fraction, rfl⟩, offset⟩ :
      ∃ rest distance, rest <:+ left ∧ readOffset? rest = some (distance, []) := by
    dsimp only at read
    split at read
    · obtain ⟨⟨nano, rest⟩, fraction, read⟩ := Option.bind_eq_some_iff.1 read
      obtain ⟨⟨distance, _⟩, offset, read⟩ := Option.bind_eq_some_iff.1 read
      obtain rfl := eq_nil_of_ite read
      obtain ⟨digits, rfl, _⟩ := append_of_readFraction? fraction
      exact ⟨rest, distance, List.suffix_append ('.' :: digits) rest, offset⟩
    · obtain ⟨_, ⟨⟩, read⟩ := Option.bind_eq_some_iff.1 read
      obtain ⟨⟨distance, _⟩, offset, read⟩ := Option.bind_eq_some_iff.1 read
      obtain rfl := eq_nil_of_ite read
      exact ⟨left, distance, List.suffix_refl left, offset⟩
  obtain ⟨middle, rfl⟩ := exists_eq_of_skipMarks? mark₃
  obtain ⟨front, c, rfl, plain⟩ := ends_of_readOffset? offset
  obtain ⟨digits, rfl, length, whole⟩ := append_of_readExactly? year_
  obtain rfl := eq_of_skipMark? mark₁
  obtain ⟨monthDigits, rfl, _⟩ := append_of_readExactly? month_
  obtain rfl := eq_of_skipMark? mark₂
  obtain ⟨dayDigits, same, _⟩ := append_of_readExactly? day_
  obtain ⟨hourDigits, rfl, _⟩ := append_of_readExactly? hour_
  obtain rfl := eq_of_skipMark? mark₄
  obtain ⟨minuteDigits, rfl, _⟩ := append_of_readExactly? minute_
  obtain rfl := eq_of_skipMark? mark₅
  obtain ⟨secondDigits, rfl, _⟩ := append_of_readExactly? second_
  subst same
  have some_ : digits ≠ [] := List.ne_nil_of_length_pos (by omega)
  refine ⟨⟨?_, ?_⟩, by simp⟩
  · rw [List.head?_append_of_ne_nil _ some_]
    exact fun c member => isBlank_of_isDigit (whole c (List.mem_of_mem_head? member))
  · simp only [← List.append_assoc, ← List.cons_append]
    rw [List.getLast?_append_of_ne_nil _ (List.cons_ne_nil c [])]
    simpa using plain

/-! ## Both readers -/

/-- Each form begins with a number and ends in a solid piece. -/
structure Framed (forms : List (List Piece)) : Prop where
  begins : ∀ form ∈ forms, ∃ part, form.head? = some (.number part)
  ends : ∀ form ∈ forms, ∀ piece ∈ form.getLast?, piece.isSolid

theorem framed_dateForms : Framed dateForms where
  begins := by simp [dateForms, dateForm]
  ends := by decide

theorem framed_dateTimeForms : Framed dateTimeForms where
  begins := by simp [dateTimeForms, dateForm]
  ends := by decide

section Forms
variable {α : Type} {forms : List (List Piece)} {f : Numbers → Option α} {s : List Char} {a : α}

theorem exists_form (read : (forms.findSome? fun form => (readForm? form {} s).bind f) = some a) :
    ∃ form ∈ forms, ∃ n, readForm? form {} s = some n := by
  obtain ⟨form, member, found⟩ := List.exists_of_findSome?_eq_some read
  obtain ⟨n, numbers, _⟩ := Option.bind_eq_some_iff.1 found
  exact ⟨form, member, n, numbers⟩

/-- What is read by one of the forms, blanks in front or not, has no blank behind it. -/
theorem Framed.trimChars (framed : Framed forms)
    (read : (forms.findSome? fun form => (readForm? form {} s).bind f) = some a) :
    trimChars s = skipBlanks s := by
  obtain ⟨form, member, n, numbers⟩ := exists_form read
  exact trimChars_eq_skipBlanks (isBlank_of_readForm? numbers (framed.ends form member))

theorem Framed.findSome?_skipBlanks (framed : Framed forms) (f : Numbers → Option α) (s : List Char) :
    (forms.findSome? fun form => (readForm? form {} (skipBlanks s)).bind f) =
      forms.findSome? fun form => (readForm? form {} s).bind f := by
  rw [← List.head?_filterMap, ← List.head?_filterMap]
  congr 1
  refine List.filterMap_congr fun form member => ?_
  obtain ⟨part, first⟩ := framed.begins form member
  rw [readForm?_skipBlanks first]

end Forms

variable {s : List Char}

theorem colon_of_dateTimeForms {t : DateTime}
    (read : (dateTimeForms.findSome? fun form => readDateTimeAs? form s) = some t) : ':' ∈ s := by
  obtain ⟨form, member, n, numbers⟩ := exists_form read
  have marked : ∀ form ∈ dateTimeForms, Piece.mark ':' ∈ form := by decide
  exact (mem_iff_of_readForm? numbers (by decide)).2 (marked form member)

theorem no_colon_of_readPlainDate? {d : Date} (read : readPlainDate? s = some d) : ':' ∉ s := by
  obtain ⟨form, member, n, numbers⟩ := exists_form read
  have unmarked : ∀ form ∈ dateForms, Piece.mark ':' ∉ form := by decide
  exact fun colon => unmarked form member ((mem_iff_of_readForm? numbers (by decide)).1 colon)

/-- Without a colon there is no time. -/
theorem readDateTimeChars?_of_no_colon (plain : ':' ∉ s) :
    readDateTimeChars? s = (readPlainDate? s).map DateTime.atMidnight := by
  have forms : (dateTimeForms.findSome? fun form => readDateTimeAs? form s) = none :=
    Option.eq_none_iff_forall_ne_some.2 fun _ read => plain (colon_of_dateTimeForms read)
  have stamp : readStamp? s = none :=
    Option.eq_none_iff_forall_ne_some.2 fun _ read => plain (tight_of_readStamp? read).2
  unfold readDateTimeChars?
  rw [forms, stamp]
  rfl

/-- The reader of days finds the day of what the reader of points in time finds, and nothing where that finds nothing. -/
theorem readDateChars?_eq (s : List Char) : readDateChars? s = (readDateTimeChars? s).map DateTime.date := by
  unfold readDateChars?
  cases read : readPlainDate? s with
  | none => rfl
  | some d =>
    rw [readDateTimeChars?_of_no_colon (no_colon_of_readPlainDate? read), read]
    rfl

/-- What is read as a point in time is read as the same one without the blanks around it. -/
theorem readDateTimeChars?_trimChars {t : DateTime} (read : readDateTimeChars? s = some t) :
    readDateTimeChars? (trimChars s) = some t := by
  by_cases colon : ':' ∈ s
  · cases forms : dateTimeForms.findSome? fun form => readDateTimeAs? form s with
    | some u =>
      have same : (dateTimeForms.findSome? fun form => readDateTimeAs? form (skipBlanks s)) = some u :=
        (framed_dateTimeForms.findSome?_skipBlanks Numbers.dateTime? s).trans forms
      rw [framed_dateTimeForms.trimChars forms]
      unfold readDateTimeChars? at read ⊢
      rw [forms] at read
      rw [same]
      exact read
    | none =>
      cases stamp : readStamp? s with
      | some u =>
        rw [(tight_of_readStamp? stamp).1.trimChars_eq]
        exact read
      | none =>
        have date : readPlainDate? s = none :=
          Option.eq_none_iff_forall_ne_some.2 fun _ plain => no_colon_of_readPlainDate? plain colon
        unfold readDateTimeChars? at read
        rw [forms, stamp, date] at read
        cases read
  · rw [readDateTimeChars?_of_no_colon colon] at read
    obtain ⟨d, plain, rfl⟩ := Option.map_eq_some_iff.1 read
    have same : readPlainDate? (skipBlanks s) = some d :=
      (framed_dateForms.findSome?_skipBlanks Numbers.date? s).trans plain
    rw [framed_dateForms.trimChars plain, readDateTimeChars?_of_no_colon (no_colon_of_readPlainDate? same), same]
    rfl

end Calendar
end Reporting
