import Reporting.Proofs.Calendar.Reading
import Reporting.Proofs.Keys
import Reporting.Proofs.Results
import Reporting.Report.Definition

/-!
Keys of filters and strings beside them. A key is a path with the name of a test at its end
(`Predicate.splitKey_append`), and it is read as what it was written for and as nothing else (`Predicate.keys_decoded`):
the last pair of underscores decides (`Path.splitLast?_eq_some_iff`). A string of a data file may read as a day or a
point in time, and then a filter selects the text of what was read (`Predicate.texts_selected`): the string itself,
unless it is a day that is written in another way than texts of days are, or a point in time (`Predicate.day_rewritten`).
-/

namespace Reporting
open Calendar

namespace Path

/-- The last pair of underscores is the one before a name that has none in it, nor an underscore at its beginning. -/
theorem splitLastChars?_append {name : List Char} (whole : splitLastChars? ('_' :: name) = none) (path : List Char) :
    splitLastChars? (path ++ '_' :: '_' :: name) = some (path, name) := by
  induction path with
  | nil =>
    rw [List.nil_append, splitLastChars?, whole]
  | cons c rest ih => simp only [List.cons_append, splitLastChars?, ih]

theorem splitLast?_append {name : String} (whole : splitLastChars? ('_' :: name.toList) = none) (path : String) :
    splitLast? (append path name) = some (path, name) := by
  unfold splitLast?
  rw [toList_append, splitLastChars?_append whole]
  simp

/-- The text is taken apart at the last of its pairs of underscores: none begins further on. -/
structure LastPair (s before after : String) : Prop where
  split : s = append before after
  last : ∀ b a, s = append b a → b.length ≤ before.length

theorem eq_append_iff {s before after : String} :
    s = append before after ↔ s.toList = before.toList ++ '_' :: '_' :: after.toList := by
  rw [← String.toList_inj, toList_append]

theorem splitLastChars?_cons_of_some {rest before after : List Char} (later : splitLastChars? rest = some (before, after))
    (c : Char) : splitLastChars? (c :: rest) = some (c :: before, after) := by
  unfold splitLastChars?
  rw [later]

/-- Where no pair begins further on, only the first two characters can be one. -/
theorem splitLastChars?_cons_of_none {rest : List Char} (later : splitLastChars? rest = none) {c : Char}
    {before after : List Char} :
    splitLastChars? (c :: rest) = some (before, after) ↔ before = [] ∧ c :: rest = '_' :: '_' :: after := by
  unfold splitLastChars?
  rw [later]
  dsimp only
  split
  · simp [eq_comm]
  · rename_i other
    constructor
    · rintro ⟨⟩
    · rintro ⟨_, pair⟩
      obtain ⟨first, second⟩ := List.cons.inj pair
      exact (other after first second).elim

theorem ne_append_of_splitLastChars? {s : List Char} (absent : splitLastChars? s = none) (before after : List Char) :
    s ≠ before ++ '_' :: '_' :: after := by
  induction s generalizing before with
  | nil => simp
  | cons c rest ih =>
    intro split
    cases later : splitLastChars? rest with
    | some parts =>
      rw [splitLastChars?_cons_of_some later] at absent
      cases absent
    | none =>
      cases before with
      | nil =>
        rw [(splitLastChars?_cons_of_none later).2 ⟨rfl, split⟩] at absent
        cases absent
      | cons d before => exact ih later before (List.cons.inj split).2

theorem splitLastChars?_eq_some {s before after : List Char} (found : splitLastChars? s = some (before, after)) :
    s = before ++ '_' :: '_' :: after ∧ ∀ b a, s = b ++ '_' :: '_' :: a → b.length ≤ before.length := by
  induction s generalizing before with
  | nil => cases found
  | cons c rest ih =>
    cases later : splitLastChars? rest with
    | some parts =>
      rw [splitLastChars?_cons_of_some later] at found
      cases found
      obtain ⟨split, last⟩ := ih later
      refine ⟨by rw [split, List.cons_append], fun b a other => ?_⟩
      cases b with
      | nil => exact Nat.zero_le _
      | cons d b => exact Nat.succ_le_succ (last b a (List.cons.inj other).2)
    | none =>
      obtain ⟨rfl, pair⟩ := (splitLastChars?_cons_of_none later).1 found
      refine ⟨pair, fun b a other => ?_⟩
      cases b with
      | nil => exact Nat.le_refl _
      -- A pair further on would be one of the rest, even where a third underscore follows the first two.
      | cons d b => exact absurd (List.cons.inj other).2 (ne_append_of_splitLastChars? later b a)

theorem splitLast?_eq_none_iff {s : String} : splitLast? s = none ↔ ∀ before after, s ≠ append before after := by
  unfold splitLast?
  rw [Option.map_eq_none_iff]
  constructor
  · intro absent before after split
    exact ne_append_of_splitLastChars? absent _ _ (eq_append_iff.1 split)
  · intro absent
    cases found : splitLastChars? s.toList with
    | none => rfl
    | some parts =>
      refine absurd (eq_append_iff.2 ?_) (absent (.ofList parts.1) (.ofList parts.2))
      simpa using (splitLastChars?_eq_some found).1

theorem LastPair.unique {s b a before after : String} (one : LastPair s b a) (other : LastPair s before after) :
    b = before ∧ a = after := by
  have lengths : b.length = before.length :=
    Nat.le_antisymm (other.last b a one.split) (one.last before after other.split)
  have both := (eq_append_iff.1 one.split).symm.trans (eq_append_iff.1 other.split)
  obtain ⟨front, back⟩ := List.append_inj both (by rw [String.length_toList, String.length_toList, lengths])
  exact ⟨String.toList_inj.1 front, String.toList_inj.1 (List.cons.inj (List.cons.inj back).2).2⟩

theorem lastPair_of_splitLast? {s before after : String} (found : splitLast? s = some (before, after)) :
    LastPair s before after := by
  obtain ⟨⟨b, a⟩, chars, same⟩ := Option.map_eq_some_iff.1 found
  cases same
  obtain ⟨split, last⟩ := splitLastChars?_eq_some chars
  refine ⟨eq_append_iff.2 (by simpa using split), fun b' a' other => ?_⟩
  rw [← String.length_toList, String.length_ofList]
  exact last _ _ (eq_append_iff.1 other)

theorem splitLast?_eq_some_iff {s before after : String} :
    splitLast? s = some (before, after) ↔ LastPair s before after := by
  refine ⟨lastPair_of_splitLast?, fun here => ?_⟩
  cases found : splitLast? s with
  | none => exact absurd here.split (splitLast?_eq_none_iff.1 found before after)
  | some parts =>
    obtain ⟨rfl, rfl⟩ := (lastPair_of_splitLast? found).unique here
    rfl

end Path

namespace Predicate

/-- The name of a test ends the key. -/
theorem splitKey_append {name : String} {lookup : Lookup} (known : Lookup.ofName? name = some lookup) (path : String) :
    splitKey (Path.append path name) = (path, lookup) := by
  have whole : Path.splitLastChars? ('_' :: name.toList) = none := by
    unfold Lookup.ofName? at known
    split at known <;> first | decide | cases known
  unfold splitKey
  rw [Path.splitLast?_append whole]
  simp only [known]

/-- The key has the name of a test at its end. -/
def endsInLookup (key : String) : Bool :=
  match Path.splitLast? key with
  | some (_, name) => (Lookup.ofName? name).isSome
  | none => false

theorem splitKey_of_not_endsInLookup {key : String} (plain : endsInLookup key = false) : splitKey key = (key, .exact) := by
  unfold endsInLookup at plain
  unfold splitKey
  split
  · rename_i last
    rw [last] at plain
    rw [Option.isSome_eq_false_iff, Option.isNone_iff_eq_none] at plain
    simp only [plain]
  · rfl

/-! ## Keys and what they are written for -/

def Lookup.name : Lookup → String
  | exact => "exact"
  | gt => "gt"
  | gte => "gte"
  | lt => "lt"
  | lte => "lte"
  | within => "in"
  | isNull => "isnull"

theorem Lookup.ofName?_eq_some_iff {name : String} {lookup : Lookup} : ofName? name = some lookup ↔ name = lookup.name := by
  constructor
  · intro known
    unfold ofName? at known
    split at known <;> cases known <;> rfl
  · rintro rfl
    cases lookup <;> rfl

end Predicate

namespace Condition

/-- The test that the condition is made by. -/
def lookup : Condition → Predicate.Lookup
  | exact _ => .exact
  | gt _ => .gt
  | gte _ => .gte
  | lt _ => .lt
  | lte _ => .lte
  | within _ => .within
  | isNull _ => .isNull

/-- What stands beside a key that asks for the condition. -/
def operand : Condition → Operand
  | exact operand => .one operand
  | gt operand => .one operand
  | gte operand => .one operand
  | lt operand => .one operand
  | lte operand => .one operand
  | within operands => .many operands
  | isNull expected => .one (.bool expected)

theorem lookupName_eq (c : Condition) : c.lookupName = c.lookup.name := by
  cases c <;> rfl

theorem exists_lookup (lookup : Predicate.Lookup) : ∃ c : Condition, c.lookup = lookup := by
  cases lookup with
  | exact => exact ⟨exact .null, rfl⟩
  | gt => exact ⟨gt .null, rfl⟩
  | gte => exact ⟨gte .null, rfl⟩
  | lt => exact ⟨lt .null, rfl⟩
  | lte => exact ⟨lte .null, rfl⟩
  | within => exact ⟨within [], rfl⟩
  | isNull => exact ⟨isNull true, rfl⟩

end Condition

namespace Predicate

/-- What stands after the last pair of underscores in the key, if there is one, is not the name of a test. -/
def Plain (key : String) : Prop :=
  ∀ before after, Path.LastPair key before after → ∀ c : Condition, after ≠ c.lookupName

theorem plain_iff {key : String} : Plain key ↔ endsInLookup key = false := by
  unfold Plain endsInLookup
  constructor
  · intro plain
    split
    · rename_i before after found
      rw [Option.isSome_eq_false_iff, Option.isNone_iff_eq_none, Option.eq_none_iff_forall_ne_some]
      intro lookup known
      obtain ⟨c, rfl⟩ := Condition.exists_lookup lookup
      refine plain before after (Path.splitLast?_eq_some_iff.1 found) c ?_
      rw [Condition.lookupName_eq]
      exact Lookup.ofName?_eq_some_iff.1 known
    · rfl
  · intro plain before after last c named
    rw [Condition.lookupName_eq] at named
    rw [Path.splitLast?_eq_some_iff.2 last] at plain
    simp [Lookup.ofName?_eq_some_iff.2 named] at plain

theorem ofLookup_append {name : String} {lookup : Lookup} (known : Lookup.ofName? name = some lookup) (path : String)
    (operand : Operand) : ofLookup (Path.append path name) operand =
      (condition? (Path.append path name) lookup operand).map (of path) := by
  unfold ofLookup
  rw [splitKey_append known]

theorem ofLookup_of_plain {key : String} (plain : Plain key) (operand : Operand) :
    ofLookup key operand = (condition? key .exact operand).map (of key) := by
  unfold ofLookup
  rw [splitKey_of_not_endsInLookup (plain_iff.1 plain)]

theorem splitKey_cases (key : String) : Plain key ∨ ∃ path lookup, key = Path.append path (Lookup.name lookup) := by
  by_cases plain : Plain key
  · exact Or.inl plain
  · right
    unfold Plain at plain
    push Not at plain
    obtain ⟨before, after, last, c, named⟩ := plain
    refine ⟨before, c.lookup, ?_⟩
    rw [← Condition.lookupName_eq, ← named]
    exact last.split

theorem condition?_operand (key : String) (c : Condition) : condition? key c.lookup c.operand = .ok c := by
  cases c <;> rfl

/-- A condition comes of its own operand, or of the only value of a list. -/
theorem operand_of_condition? {key : String} {lookup : Lookup} {operand : Operand} {c : Condition}
    (made : condition? key lookup operand = .ok c) :
    c.lookup = lookup ∧ (operand = c.operand ∨ ∃ v, operand = .one v ∧ c = .within [v]) := by
  unfold condition? at made
  split at made
  all_goals cases made
  case h_2 => exact ⟨rfl, Or.inr ⟨_, rfl, rfl⟩⟩
  all_goals exact ⟨rfl, Or.inl rfl⟩

/-- What is said of a key whose test cannot take the operand. -/
def refusal (key : String) (lookup : Lookup) (operand : Operand) : SourceError :=
  .parse (if lookup = .isNull then "Lookup \"" ++ key ++ "\" expects a boolean, got " ++ operand.diagnostic
    else "Lookup \"" ++ key ++ "\" expects a single value")

theorem condition?_list {lookup : Lookup} (single : lookup ≠ .within) (key : String) (vs : List Value) :
    condition? key lookup (.many vs) = .error (refusal key lookup (.many vs)) := by
  cases lookup with
  | within => exact absurd rfl single
  | _ => rfl

theorem condition?_isNull {operand : Operand} (other : ∀ b, operand ≠ .one (.bool b)) (key : String) :
    condition? key .isNull operand = .error (refusal key .isNull operand) := by
  cases operand with
  | many vs => rfl
  | one v =>
    cases v with
    | bool b => exact absurd rfl (other b)
    | _ => rfl

/-- A key is read as what it is written for, and as nothing else. The name of a test after a path asks for the test at
this path, wherever the path has underscores; a key without such a name is a path to be matched exactly. Only `in` takes
a list, and `isnull` takes nothing but a truth value. -/
theorem keys_decoded :
    (∀ path (c : Condition), ofLookup (Path.append path c.lookupName) c.operand = .ok (of path c)) ∧
    (∀ key, Plain key → (∀ v, ofLookup key (.one v) = .ok (of key (.exact v))) ∧
      ∀ vs, ofLookup key (.many vs) = .error (refusal key .exact (.many vs))) ∧
    (∀ path (c : Condition), c.lookupName ≠ "in" → ∀ vs, ofLookup (Path.append path c.lookupName) (.many vs) =
      .error (refusal (Path.append path c.lookupName) c.lookup (.many vs))) ∧
    (∀ path operand, (∀ b, operand ≠ .one (.bool b)) → ofLookup (Path.append path "isnull") operand =
      .error (refusal (Path.append path "isnull") .isNull operand)) ∧
    ∀ key operand p, ofLookup key operand = .ok p → p.negated = false ∧
      (key = Path.append p.path p.condition.lookupName ∧
          (operand = p.condition.operand ∨ ∃ v, operand = .one v ∧ p.condition = .within [v]) ∨
        Plain key ∧ p.path = key ∧ ∃ v, operand = .one v ∧ p.condition = .exact v) := by
  have known : ∀ c : Condition, Lookup.ofName? c.lookupName = some c.lookup :=
    fun c => Lookup.ofName?_eq_some_iff.2 c.lookupName_eq
  refine ⟨fun path c => ?_, fun key plain => ⟨fun v => ?_, fun vs => ?_⟩, fun path c single vs => ?_,
    fun path operand other => ?_, fun key operand p read => ?_⟩
  · rw [ofLookup_append (known c), condition?_operand]
    rfl
  · rw [ofLookup_of_plain plain]
    rfl
  · rw [ofLookup_of_plain plain, condition?_list (by decide)]
    rfl
  · have other : c.lookup ≠ .within := by
      intro same
      rw [Condition.lookupName_eq, same] at single
      exact single rfl
    rw [ofLookup_append (known c), condition?_list other]
    rfl
  · have named : Lookup.ofName? "isnull" = some .isNull := rfl
    rw [ofLookup_append named, condition?_isNull other]
    rfl
  · rcases splitKey_cases key with plain | ⟨path, lookup, rfl⟩
    · rw [ofLookup_of_plain plain] at read
      obtain ⟨c, made, rfl⟩ := Results.map_eq_ok_iff.1 read
      obtain ⟨test, same | ⟨v, _, rfl⟩⟩ := operand_of_condition? made
      · cases c with
        | exact v => exact ⟨rfl, Or.inr ⟨plain, rfl, v, same, rfl⟩⟩
        | _ => cases test
      · cases test
    · rw [ofLookup_append (Lookup.ofName?_eq_some_iff.2 rfl)] at read
      obtain ⟨c, made, rfl⟩ := Results.map_eq_ok_iff.1 read
      obtain ⟨rfl, given⟩ := operand_of_condition? made
      exact ⟨rfl, Or.inl ⟨by rw [← Condition.lookupName_eq]; rfl, given⟩⟩

/-- A path over a relation is matched as a whole and takes no list; a third underscore belongs to the path. -/
theorem clientName_decoded :
    Plain "client__name" ∧ ofLookup "client__name" (.one (.text "x")) = .ok (of "client__name" (.exact (.text "x"))) ∧
      ofLookup "client___in" (.many [.text "x"]) = .ok (of "client_" (.within [.text "x"])) ∧
      ofLookup "client__isnull" (.one (.text "yes")) = .error (refusal "client__isnull" .isNull (.one (.text "yes"))) ∧
      ofLookup "value__gt" (.many [.int 1]) = .error (refusal "value__gt" .gt (.many [.int 1])) := by
  have plain : Plain "client__name" := plain_iff.2 (by decide)
  obtain ⟨named, whole, lists, truths, _⟩ := keys_decoded
  refine ⟨plain, (whole _ plain).1 _, named "client_" (.within [.text "x"]), ?_, ?_⟩
  · exact truths "client" (.one (.text "yes")) (by simp)
  · exact lists "value" (.gt .null) (by decide) [.int 1]

end Predicate

namespace Value

/-- A text equals what has it as its key. -/
theorem looselyEquals_text_left (t : String) (v : Value) : (text t).looselyEquals v = true ↔ t = v.key := by
  cases v <;> simp [looselyEquals, key, display]

theorem ofString_ne_null (s : String) : ofString s ≠ .null := by
  unfold ofString
  split
  · nofun
  · split <;> nofun

/-- The string is the text of what it reads as: neither a day nor a point in time, or a day written as texts of days
are. -/
theorem key_ofString_eq_iff (s : String) :
    (ofString s).key = s ↔ readIsoDate? s = none ∧ readIsoDateTime? s = none ∨ ∃ d : Date, s = d.text := by
  constructor
  · intro same
    cases date_ : readIsoDate? s with
    | some d =>
      refine Or.inr ⟨d, ?_⟩
      unfold ofString at same
      rw [date_] at same
      exact same.symm
    | none =>
      cases dateTime_ : readIsoDateTime? s with
      | none => exact Or.inl ⟨rfl, rfl⟩
      | some t =>
        unfold ofString at same
        rw [date_, dateTime_] at same
        rw [← same, show (dateTime t).key = t.text from rfl, readIsoDateTime?_text] at dateTime_
        cases dateTime_
  · rintro (⟨date_, dateTime_⟩ | ⟨d, rfl⟩)
    · unfold ofString
      rw [date_, dateTime_]
      rfl
    · unfold ofString
      rw [readIsoDate?_text]
      rfl

end Value

/-- Strings in a list are read each on its own. -/
theorem Operand.ofTree?_strings (strings : List String) :
    ofTree? (.list (strings.map .string)) = some (.many (strings.map Value.ofString)) := by
  have read : (strings.map Tree.string).mapM Tree.value? = some (strings.map Value.ofString) := by
    induction strings with
    | nil => rfl
    | cons s rest ih => rw [List.map_cons, List.mapM_cons, ih]; rfl
  show ((strings.map Tree.string).mapM Tree.value?).map many = _
  rw [read]
  rfl

namespace Predicate

theorem accepts_text_exact (path s t : String) :
    (of path (.exact (.ofString s))).accepts (.text t) = true ↔ t = (Value.ofString s).key := by
  rw [accepts_exact (Value.ofString_ne_null s), Value.looselyEquals_text_left]

theorem accepts_text_within (path : String) (strings : List String) (t : String) :
    (of path (.within (strings.map Value.ofString))).accepts (.text t) = true ↔
      ∃ s ∈ strings, t = (Value.ofString s).key := by
  simp [of, accepts, Condition.accepts, Value.isNull, Value.looselyEquals_text_left]

/-- A filter for a string, under a path or with the name of the test after it, selects the text of what the string reads
as. That is the string itself if it reads as neither a day nor a point in time, or is the text of a day; else another
one. A filter for a list of strings selects the texts of what they read as. -/
theorem texts_selected (path : String) :
    (∀ s, ∃ v p, Operand.ofTree? (.string s) = some (.one v) ∧
      ofLookup (Path.append path "exact") (.one v) = .ok p ∧
      (endsInLookup path = false → ofLookup path (.one v) = .ok p) ∧ p.path = path ∧
      (∀ t, p.accepts (.text t) = true ↔ t = (Value.ofString s).key) ∧
      ((∀ t, p.accepts (.text t) = true ↔ t = s) ↔
        readIsoDate? s = none ∧ readIsoDateTime? s = none ∨ ∃ d : Date, s = d.text)) ∧
    ∀ strings : List String, ∃ vs p, Operand.ofTree? (.list (strings.map .string)) = some (.many vs) ∧
      ofLookup (Path.append path "in") (.many vs) = .ok p ∧ p.path = path ∧
      (∀ t, p.accepts (.text t) = true ↔ ∃ s ∈ strings, t = (Value.ofString s).key) ∧
      ((∀ s ∈ strings, (Value.ofString s).key = s) → ∀ t, p.accepts (.text t) = true ↔ t ∈ strings) := by
  refine ⟨fun s => ?_, fun strings => ?_⟩
  · have selects := accepts_text_exact path s
    refine ⟨.ofString s, of path (.exact (.ofString s)), rfl, ?_, fun plain => ?_, rfl, selects, ?_⟩
    · unfold ofLookup
      rw [splitKey_append rfl]
      rfl
    · unfold ofLookup
      rw [splitKey_of_not_endsInLookup plain]
      rfl
    · rw [← Value.key_ofString_eq_iff]
      constructor
      · exact fun itself => ((itself _).1 ((selects _).2 rfl))
      · intro same t
        rw [selects, same]
  · have selects := accepts_text_within path strings
    refine ⟨_, of path (.within (strings.map Value.ofString)), Operand.ofTree?_strings strings, ?_, rfl, selects, ?_⟩
    · unfold ofLookup
      rw [splitKey_append rfl]
      rfl
    · intro same t
      rw [selects]
      constructor
      · rintro ⟨s, member, rfl⟩
        rwa [same s member]
      · exact fun member => ⟨t, member, (same t member).symm⟩

/-- A filter for a day written without zeros selects the day written with them, and one for a point in time written with a
T selects it written with a blank; neither selects the text that it is for. -/
theorem day_rewritten : ∃ day time,
    ofLookup "name" (.one (.ofString "2024-3-1")) = .ok day ∧ day.accepts (.text "2024-03-01") = true ∧
      day.accepts (.text "2024-3-1") = false ∧
    ofLookup "name" (.one (.ofString "2024-03-01T10:00:00")) = .ok time ∧
      time.accepts (.text "2024-03-01 10:00:00") = true ∧ time.accepts (.text "2024-03-01T10:00:00") = false := by
  obtain ⟨day, p, read, _, named, _, selects, _⟩ := (texts_selected "name").1 "2024-3-1"
  cases read
  obtain ⟨time, q, read, _, named', _, selects', _⟩ := (texts_selected "name").1 "2024-03-01T10:00:00"
  cases read
  refine ⟨p, q, named rfl, (selects _).2 rfl, ?_, named' rfl, (selects' _).2 rfl, ?_⟩
  · rw [← Bool.not_eq_true, selects]
    decide
  · rw [← Bool.not_eq_true, selects']
    decide

end Predicate
end Reporting
