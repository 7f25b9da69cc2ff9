/-!
Finite maps from names, kept in ascending order of the names, so that two maps with the same entries
are the same list.
-/

namespace Reporting

/-- A finite map whose entries are in ascending order of their names. -/
structure Keyed (α : Type) where
  entries : List (String × α)
  ascending : entries.Pairwise fun a b => a.1 < b.1

namespace Keyed
variable {α β : Type}

instance [DecidableEq α] : DecidableEq (Keyed α) := fun a b =>
  if h : a.entries = b.entries then isTrue (by cases a; cases b; cases h; rfl)
  else isFalse (by rintro rfl; exact h rfl)

/-- The entry in its place among ascending ones, instead of one with the same name. -/
def place (name : String) (value : α) : List (String × α) → List (String × α)
  | [] => [(name, value)]
  | (other, held) :: rest =>
    match compare name other with
    | .lt => (name, value) :: (other, held) :: rest
    | .eq => (name, value) :: rest
    | .gt => (other, held) :: place name value rest

theorem mem_place {name : String} {value : α} {entry : String × α} {entries : List (String × α)}
    (h : entry ∈ place name value entries) : entry = (name, value) ∨ entry ∈ entries := by
  induction entries with
  | nil => simpa [place] using h
  | cons head rest ih =>
    obtain ⟨other, held⟩ := head
    rw [place] at h
    split at h <;> simp only [List.mem_cons] at h ⊢
    · exact h
    · rcases h with h | h
      · exact Or.inl h
      · exact Or.inr (Or.inr h)
    · rcases h with h | h
      · exact Or.inr (Or.inl h)
      · rcases ih h with h | h
        · exact Or.inl h
        · exact Or.inr (Or.inr h)

theorem place_ascending {name : String} {value : α} {entries : List (String × α)}
    (h : entries.Pairwise fun a b => a.1 < b.1) :
    (place name value entries).Pairwise fun a b => a.1 < b.1 := by
  induction entries with
  | nil => simp [place]
  | cons head rest ih =>
    obtain ⟨other, held⟩ := head
    obtain ⟨below, ordered⟩ := List.pairwise_cons.1 h
    rw [place]
    split
    · rename_i smaller
      have smaller : name < other := compareOfLessAndEq_eq_lt.1 smaller
      refine List.pairwise_cons.2 ⟨fun entry found => ?_, h⟩
      rcases List.mem_cons.1 found with rfl | found
      · exact smaller
      · exact String.lt_trans smaller (below entry found)
    · rename_i same
      have same : name = other := Std.LawfulEqOrd.eq_of_compare same
      subst same
      exact List.pairwise_cons.2 ⟨below, ordered⟩
    · rename_i greater
      have reversed : compare other name = .lt := Std.OrientedCmp.lt_of_gt greater
      have greater : other < name := compareOfLessAndEq_eq_lt.1 reversed
      refine List.pairwise_cons.2 ⟨fun entry found => ?_, ih ordered⟩
      rcases mem_place found with rfl | found
      · exact greater
      · exact below entry found

def empty : Keyed α := ⟨[], List.Pairwise.nil⟩

instance : EmptyCollection (Keyed α) := ⟨empty⟩
instance : Inhabited (Keyed α) := ⟨empty⟩

/-- Puts the value under the name, instead of one that is there. -/
def insert (m : Keyed α) (name : String) (value : α) : Keyed α :=
  ⟨place name value m.entries, place_ascending m.ascending⟩

/-- The value under the name. -/
def get? (m : Keyed α) (name : String) : Option α :=
  m.entries.lookup name

def contains (m : Keyed α) (name : String) : Bool :=
  (m.get? name).isSome

/-- Takes the name out. -/
def erase (m : Keyed α) (name : String) : Keyed α :=
  ⟨m.entries.filter fun e => e.1 != name, m.ascending.filter _⟩

/-- The names in ascending order. -/
def names (m : Keyed α) : List String :=
  m.entries.map Prod.fst

/-- The values in the order of their names. -/
def values (m : Keyed α) : List α :=
  m.entries.map Prod.snd

def size (m : Keyed α) : Nat :=
  m.entries.length

/-- Puts the entries in one after another; of equal names the last stays. -/
def insertAll (m : Keyed α) (entries : List (String × α)) : Keyed α :=
  entries.foldl (fun m e => m.insert e.1 e.2) m

/-- The map of the entries; of equal names the last stays. -/
def ofList (entries : List (String × α)) : Keyed α :=
  empty.insertAll entries

theorem lookup_place_self (name : String) (value : α) (entries : List (String × α)) :
    (place name value entries).lookup name = some value := by
  induction entries with
  | nil => simp [place]
  | cons head rest ih =>
    obtain ⟨other, held⟩ := head
    rw [place]
    split
    · simp
    · simp
    · rename_i greater
      have differ : (name == other) = false := by
        rw [beq_eq_false_iff_ne]
        rintro rfl
        simp at greater
      simp [List.lookup_cons, differ, ih]

theorem lookup_place_of_ne {name sought : String} (h : sought ≠ name) (value : α)
    (entries : List (String × α)) :
    (place name value entries).lookup sought = entries.lookup sought := by
  have differ : (sought == name) = false := beq_eq_false_iff_ne.2 h
  induction entries with
  | nil => simp [place, List.lookup_cons, differ]
  | cons head rest ih =>
    obtain ⟨other, held⟩ := head
    rw [place]
    split
    · simp [List.lookup_cons, differ]
    · rename_i same
      have same : name = other := Std.LawfulEqOrd.eq_of_compare same
      subst same
      simp [List.lookup_cons, differ]
    · simp [List.lookup_cons, ih]

@[simp] theorem get?_insert_self (m : Keyed α) (name : String) (value : α) :
    (m.insert name value).get? name = some value :=
  lookup_place_self name value m.entries

theorem get?_insert_of_ne (m : Keyed α) {name sought : String} (h : sought ≠ name) (value : α) :
    (m.insert name value).get? sought = m.get? sought :=
  lookup_place_of_ne h value m.entries

/-- What is found after an insertion was inserted or was there before. -/
theorem get?_insert_cases {m : Keyed α} {name sought : String} {inserted value : α}
    (h : (m.insert name inserted).get? sought = some value) :
    (sought = name ∧ value = inserted) ∨ m.get? sought = some value := by
  by_cases same : sought = name
  · subst same
    rw [get?_insert_self] at h
    exact Or.inl ⟨rfl, (Option.some.inj h).symm⟩
  · rw [get?_insert_of_ne _ same] at h
    exact Or.inr h

/-- Inserting under a new name keeps what is found. -/
theorem get?_insert_of_absent {m : Keyed α} {name sought : String} {value : α} (absent : m.get? name = none)
    (h : m.get? sought = some value) (inserted : α) : (m.insert name inserted).get? sought = some value := by
  have differ : sought ≠ name := by
    rintro rfl
    rw [absent] at h
    cases h
  rw [get?_insert_of_ne _ differ, h]

@[simp] theorem get?_empty (name : String) : (empty : Keyed α).get? name = none :=
  rfl

/-- What is found under a name is an entry. -/
theorem mem_of_get? {m : Keyed α} {name : String} {value : α} (h : m.get? name = some value) :
    (name, value) ∈ m.entries := by
  have found : ∀ entries : List (String × α), entries.lookup name = some value → (name, value) ∈ entries := by
    intro entries
    induction entries with
    | nil => simp
    | cons entry rest ih =>
      obtain ⟨other, held⟩ := entry
      intro h
      rw [List.lookup_cons] at h
      split at h
      · rename_i same
        have same : name = other := by simpa using same
        cases h
        simp [same]
      · exact List.mem_cons_of_mem _ (ih h)
  exact found m.entries h

theorem mem_names_of_get? {m : Keyed α} {name : String} {value : α} (h : m.get? name = some value) :
    name ∈ m.names :=
  List.mem_map_of_mem (f := Prod.fst) (mem_of_get? h)

/-- No name occurs twice. -/
theorem names_nodup (m : Keyed α) : m.names.Nodup :=
  List.pairwise_map.2 (m.ascending.imp fun {_ _} less => String.ne_of_lt less)

theorem lookup_map_snd (f : α → β) (entries : List (String × α)) (name : String) :
    (entries.map fun e => (e.1, f e.2)).lookup name = (entries.lookup name).map f := by
  induction entries with
  | nil => rfl
  | cons head rest ih =>
    obtain ⟨other, held⟩ := head
    rw [List.map_cons, List.lookup_cons, List.lookup_cons, ih]
    cases name == other <;> rfl

theorem lookup_eq_none {entries : List (String × α)} {name : String} (absent : name ∉ entries.map Prod.fst) :
    entries.lookup name = none := by
  rw [List.lookup_eq_none_iff]
  intro entry member
  rw [bne_iff_ne]
  rintro rfl
  exact absent (List.mem_map_of_mem member)

/-- Where no key has two entries, any entry of a key is the one that is found. -/
theorem lookup_of_mem {entries : List (String × α)} (distinct : (entries.map Prod.fst).Nodup) {key : String} {a : α}
    (member : (key, a) ∈ entries) : entries.lookup key = some a := by
  induction entries with
  | nil => cases member
  | cons head rest ih =>
    rw [List.map_cons, List.nodup_cons] at distinct
    rw [List.lookup_cons]
    rcases List.mem_cons.1 member with rfl | later
    · simp
    · have differ : key ≠ head.1 := fun same => distinct.1 (same ▸ List.mem_map_of_mem later)
      rw [beq_eq_false_iff_ne.2 differ]
      exact ih distinct.2 later

/-- Maps are the same where the same is found in them. -/
theorem ext_get? {a b : Keyed α} (same : ∀ name, a.get? name = b.get? name) : a = b := by
  have inside : ∀ {a b : Keyed α}, (∀ name, a.get? name = b.get? name) → ∀ entry ∈ a.entries, entry ∈ b.entries := by
    intro a b same entry member
    have found : a.get? entry.1 = some entry.2 := lookup_of_mem a.names_nodup member
    rw [same] at found
    exact mem_of_get? found
  have nodup : ∀ c : Keyed α, c.entries.Nodup := by
    intro c
    refine c.ascending.imp fun {x y} less equal => ?_
    rw [equal] at less
    exact String.lt_irrefl _ less
  have perm : a.entries.Perm b.entries :=
    (List.perm_ext_iff_of_nodup (nodup a) (nodup b)).2 fun entry =>
      ⟨inside same entry, inside (fun name => (same name).symm) entry⟩
  have entries : a.entries = b.entries :=
    perm.eq_of_pairwise (fun x y _ _ less greater => absurd greater (String.lt_asymm less)) a.ascending b.ascending
  cases a
  cases b
  cases entries
  rfl

theorem insert_comm (m : Keyed α) {name other : String} (differ : name ≠ other) (value held : α) :
    (m.insert name value).insert other held = (m.insert other held).insert name value := by
  refine ext_get? fun sought => ?_
  by_cases first : sought = name
  · subst first
    rw [get?_insert_of_ne _ differ, get?_insert_self, get?_insert_self]
  · rw [get?_insert_of_ne _ first]
    by_cases second : sought = other
    · subst second
      rw [get?_insert_self, get?_insert_self]
    · rw [get?_insert_of_ne _ second, get?_insert_of_ne _ first, get?_insert_of_ne _ second]

/-- What is put in first under a name that does not come again could be put in last. -/
theorem insertAll_insert (m : Keyed α) {name : String} (value : α) {entries : List (String × α)}
    (absent : name ∉ entries.map Prod.fst) :
    (m.insert name value).insertAll entries = (m.insertAll entries).insert name value := by
  induction entries generalizing m with
  | nil => rfl
  | cons head rest ih =>
    rw [List.map_cons, List.mem_cons, not_or] at absent
    show ((m.insert name value).insert head.1 head.2).insertAll rest = ((m.insert head.1 head.2).insertAll rest).insert name value
    rw [insert_comm m absent.1, ih _ absent.2]

theorem contains_insert_iff (m : Keyed α) {name other : String} {value : α} :
    (m.insert other value).contains name ↔ name = other ∨ m.contains name := by
  unfold contains
  by_cases same : name = other
  · simp [same]
  · rw [get?_insert_of_ne _ same]
    simp [same]

theorem contains_insertAll_iff (m : Keyed α) {name : String} {entries : List (String × α)} :
    (m.insertAll entries).contains name ↔ name ∈ entries.map Prod.fst ∨ m.contains name := by
  induction entries generalizing m with
  | nil => simp [insertAll]
  | cons head rest ih =>
    show ((m.insert head.1 head.2).insertAll rest).contains name ↔ _
    rw [ih, List.map_cons, List.mem_cons, contains_insert_iff, or_left_comm, or_assoc]

/-- Of entries with different names, all are found. -/
theorem get?_insertAll (m : Keyed α) {entries : List (String × α)} (distinct : (entries.map Prod.fst).Nodup)
    (name : String) : (m.insertAll entries).get? name = (entries.lookup name).or (m.get? name) := by
  induction entries generalizing m with
  | nil => rfl
  | cons head rest ih =>
    obtain ⟨other, held⟩ := head
    rw [List.map_cons, List.nodup_cons] at distinct
    show ((m.insert other held).insertAll rest).get? name = _
    rw [ih (m.insert other held) distinct.2, List.lookup_cons]
    by_cases same : name = other
    · subst same
      simp [lookup_eq_none distinct.1]
    · have differ : (name == other) = false := beq_eq_false_iff_ne.2 same
      rw [get?_insert_of_ne _ same, differ]

/-- What is found in a map of entries is one of them. -/
theorem mem_of_get?_insertAll {m : Keyed α} {entries : List (String × α)} {name : String} {value : α}
    (h : (m.insertAll entries).get? name = some value) : (name, value) ∈ entries ∨ m.get? name = some value := by
  induction entries generalizing m with
  | nil => exact Or.inr h
  | cons entry rest ih =>
    obtain ⟨other, held⟩ := entry
    rcases ih h with later | before
    · exact Or.inl (List.mem_cons_of_mem _ later)
    · rcases get?_insert_cases before with ⟨rfl, rfl⟩ | before
      · exact Or.inl (List.mem_cons_self ..)
      · exact Or.inr before

/-- How many names are not among the ones seen. It bounds the walks that see no name twice. -/
def namesOutside (m : Keyed α) (seen : List String) : Nat :=
  m.names.countP fun name => name ∉ seen

theorem namesOutside_le (m : Keyed α) {seen more : List String} (grown : seen ⊆ more) :
    m.namesOutside more ≤ m.namesOutside seen := by
  refine List.countP_mono_left fun name _ outside => ?_
  simp only [decide_eq_true_eq] at outside ⊢
  exact fun inside => outside (grown inside)

theorem namesOutside_lt {m : Keyed α} {seen more : List String} {name : String} (grown : seen ⊆ more)
    (known : name ∈ m.names) (fresh : name ∉ seen) (now : name ∈ more) :
    m.namesOutside more < m.namesOutside seen := by
  obtain ⟨before, after, split⟩ := List.append_of_mem known
  have weaker : ∀ names : List String,
      names.countP (fun name => name ∉ more) ≤ names.countP (fun name => name ∉ seen) := by
    intro names
    refine List.countP_mono_left fun name _ outside => ?_
    simp only [decide_eq_true_eq] at outside ⊢
    exact fun inside => outside (grown inside)
  have first := weaker before
  have last := weaker after
  unfold namesOutside
  rw [split, List.countP_append, List.countP_append, List.countP_cons_of_neg (by simpa using now),
    List.countP_cons_of_pos (by simpa using fresh)]
  omega

end Keyed
end Reporting
