import Mathlib.Data.List.Nodup
import Reporting.Memory
import Reporting.Proofs.Parts
import Reporting.Proofs.Results

/-!
Tables held in memory, as a source. The order of the predicates in a filter set does not matter
(`matching_of_perm`), a longer filter set leaves out records (`matching_append`), and the aggregate of a group
is that of the records with the group's key (`lookup_groupCells`, `groupAggregate_lookup`).
-/

namespace Reporting.Memory
variable {m : Memory} {entity : String}

/-! ## Filters -/

theorem resolveFilters_cons_eq_ok_iff {p : Predicate} {filters : FilterSet} {tests : List (ResolvedPath × Predicate)} :
    m.resolveFilters entity (p :: filters) = .ok tests ↔ ∃ path rest, m.schema.resolve entity p.path = .ok path ∧
      m.resolveFilters entity filters = .ok rest ∧ tests = (path, p) :: rest := by
  unfold resolveFilters
  rw [Results.mapM_cons_eq_ok_iff]
  constructor
  · rintro ⟨test, rest, found, others, rfl⟩
    obtain ⟨path, resolved, rfl⟩ := Results.map_eq_ok_iff.1 found
    exact ⟨path, rest, resolved, others, rfl⟩
  · rintro ⟨path, rest, resolved, others, rfl⟩
    exact ⟨(path, p), rest, Results.map_eq_ok_iff.2 ⟨path, resolved, rfl⟩, others, rfl⟩

theorem resolveFilters_append_eq_ok_iff {filters more : FilterSet} {tests : List (ResolvedPath × Predicate)} :
    m.resolveFilters entity (filters ++ more) = .ok tests ↔ ∃ first others,
      m.resolveFilters entity filters = .ok first ∧ m.resolveFilters entity more = .ok others ∧
        tests = first ++ others := by
  induction filters generalizing tests with
  | nil =>
    constructor
    · intro resolved
      exact ⟨[], tests, rfl, resolved, rfl⟩
    · rintro ⟨first, others, none_, resolved, rfl⟩
      cases none_
      exact resolved
  | cons p rest ih =>
    rw [List.cons_append, resolveFilters_cons_eq_ok_iff]
    constructor
    · rintro ⟨path, tail, found, resolved, rfl⟩
      obtain ⟨first, others, resolvedFirst, resolvedMore, rfl⟩ := ih.1 resolved
      exact ⟨(path, p) :: first, others, resolveFilters_cons_eq_ok_iff.2 ⟨path, first, found, resolvedFirst, rfl⟩,
        resolvedMore, rfl⟩
    · rintro ⟨first, others, resolved, resolvedMore, rfl⟩
      obtain ⟨path, tail, found, resolvedTail, rfl⟩ := resolveFilters_cons_eq_ok_iff.1 resolved
      exact ⟨path, tail ++ others, found, ih.2 ⟨tail, others, resolvedTail, resolvedMore, rfl⟩, rfl⟩

theorem resolveFilters_of_perm {filters same : FilterSet} (perm : filters.Perm same)
    {tests : List (ResolvedPath × Predicate)} (resolved : m.resolveFilters entity filters = .ok tests) :
    ∃ tests', m.resolveFilters entity same = .ok tests' ∧ tests.Perm tests' := by
  induction perm generalizing tests with
  | nil => exact ⟨tests, resolved, .refl _⟩
  | cons p _ ih =>
    obtain ⟨path, rest, found, resolvedRest, rfl⟩ := resolveFilters_cons_eq_ok_iff.1 resolved
    obtain ⟨rest', resolvedRest', perm⟩ := ih resolvedRest
    exact ⟨_, resolveFilters_cons_eq_ok_iff.2 ⟨path, rest', found, resolvedRest', rfl⟩, perm.cons _⟩
  | swap p q filters =>
    obtain ⟨path, rest, found, resolvedRest, rfl⟩ := resolveFilters_cons_eq_ok_iff.1 resolved
    obtain ⟨path', rest', found', resolvedRest', rfl⟩ := resolveFilters_cons_eq_ok_iff.1 resolvedRest
    have tail := resolveFilters_cons_eq_ok_iff.2 ⟨path, rest', found, resolvedRest', rfl⟩
    exact ⟨_, resolveFilters_cons_eq_ok_iff.2 ⟨path', _, found', tail, rfl⟩, .swap ..⟩
  | trans _ _ first second =>
    obtain ⟨between, resolvedBetween, permFirst⟩ := first resolved
    obtain ⟨tests', resolved', permSecond⟩ := second resolvedBetween
    exact ⟨tests', resolved', permFirst.trans permSecond⟩

theorem matching_eq_ok_iff {filters : FilterSet} {records : List Record} :
    m.matching entity filters = .ok records ↔ ∃ all tests, m.records entity = .ok all ∧
      m.resolveFilters entity filters = .ok tests ∧ records = all.filter (m.passes tests) := by
  unfold matching
  constructor
  · intro found
    obtain ⟨all, rows, found⟩ := Results.bind_eq_ok_iff.1 found
    obtain ⟨tests, resolved, found⟩ := Results.bind_eq_ok_iff.1 found
    cases found
    exact ⟨all, tests, rows, resolved, rfl⟩
  · rintro ⟨all, tests, rows, resolved, rfl⟩
    rw [rows, resolved]
    rfl

theorem mem_table_of_matching {filters : FilterSet} {records : List Record}
    (found : m.matching entity filters = .ok records) : records ⊆ (m.tableOf entity).rows.toList := by
  obtain ⟨all, tests, rows, _, rfl⟩ := matching_eq_ok_iff.1 found
  unfold Memory.records at rows
  split at rows
  · cases rows
    exact fun record member => (List.mem_filter.1 member).1
  · cases rows

/-- The order of the predicates does not matter. -/
theorem matching_of_perm {filters same : FilterSet} (perm : filters.Perm same) {records : List Record}
    (found : m.matching entity filters = .ok records) : m.matching entity same = .ok records := by
  obtain ⟨all, tests, rows, resolved, rfl⟩ := matching_eq_ok_iff.1 found
  obtain ⟨tests', resolved', permTests⟩ := resolveFilters_of_perm perm resolved
  refine matching_eq_ok_iff.2 ⟨all, tests', rows, resolved', ?_⟩
  refine congrArg (fun test => all.filter test) (funext fun record => ?_)
  exact permTests.all_eq

/-- More predicates leave out the records that do not pass them. -/
theorem matching_append {filters more : FilterSet} {records : List Record}
    (found : m.matching entity filters = .ok records) {tests : List (ResolvedPath × Predicate)}
    (resolved : m.resolveFilters entity more = .ok tests) :
    m.matching entity (filters ++ more) = .ok (records.filter (m.passes tests)) := by
  obtain ⟨all, first, rows, resolvedFirst, rfl⟩ := matching_eq_ok_iff.1 found
  refine matching_eq_ok_iff.2 ⟨all, first ++ tests, rows, ?_, ?_⟩
  · exact resolveFilters_append_eq_ok_iff.2 ⟨first, tests, resolvedFirst, resolved, rfl⟩
  · rw [List.filter_filter]
    refine congrArg (fun test => all.filter test) (funext fun record => ?_)
    unfold passes
    rw [List.all_append, Bool.and_comm]

/-- Where no record passes, none passes more predicates. -/
theorem matching_append_nil {filters more : FilterSet} (none_ : m.matching entity filters = .ok [])
    {records : List Record} (found : m.matching entity (filters ++ more) = .ok records) : records = [] := by
  obtain ⟨_, _, _, resolved, _⟩ := matching_eq_ok_iff.1 found
  obtain ⟨_, tests, _, resolvedMore, _⟩ := resolveFilters_append_eq_ok_iff.1 resolved
  have left := matching_append none_ resolvedMore
  rw [found] at left
  cases left
  rfl

/-! ## Filters at one path -/

theorem resolveFilters_at {filters : FilterSet} {path : String} {place : ResolvedPath}
    (resolved : m.schema.resolve entity path = .ok place) (there : ∀ p ∈ filters, p.path = path) :
    m.resolveFilters entity filters = .ok (filters.map fun p => (place, p)) := by
  induction filters with
  | nil => rfl
  | cons p rest ih =>
    refine resolveFilters_cons_eq_ok_iff.2 ⟨place, rest.map fun p => (place, p), ?_, ?_, rfl⟩
    · rw [there p (List.mem_cons_self ..)]
      exact resolved
    · exact ih fun q member => there q (List.mem_cons_of_mem p member)

theorem passes_at (filters : FilterSet) (place : ResolvedPath) (record : Record) :
    m.passes (filters.map fun p => (place, p)) record = filters.all fun p => p.accepts (m.cellAt record place) := by
  unfold passes
  rw [List.all_map]
  rfl

/-- More predicates at one path leave the records whose cells there pass them. -/
theorem matching_append_at {filters more : FilterSet} {records : List Record} {path : String} {place : ResolvedPath}
    (found : m.matching entity filters = .ok records) (resolved : m.schema.resolve entity path = .ok place)
    (there : ∀ p ∈ more, p.path = path) :
    m.matching entity (filters ++ more) =
      .ok (records.filter fun record => more.all fun p => p.accepts (m.cellAt record place)) := by
  have same : m.passes (more.map fun p => (place, p)) = fun record => more.all fun p => p.accepts (m.cellAt record place) :=
    funext (passes_at more place)
  rw [matching_append found (resolveFilters_at resolved there), same]

theorem exists_of_matching_append_at {filters more : FilterSet} {kept : List Record} {path : String}
    (found : m.matching entity (filters ++ more) = .ok kept) (there : ∀ p ∈ more, p.path = path) (some_ : more ≠ []) :
    ∃ place records, m.schema.resolve entity path = .ok place ∧ m.matching entity filters = .ok records ∧
      kept = records.filter fun record => more.all fun p => p.accepts (m.cellAt record place) := by
  obtain ⟨all, tests, rows, resolved, _⟩ := matching_eq_ok_iff.1 found
  obtain ⟨first, others, resolvedFirst, resolvedMore, rfl⟩ := resolveFilters_append_eq_ok_iff.1 resolved
  obtain ⟨p, rest, rfl⟩ := List.exists_cons_of_ne_nil some_
  obtain ⟨place, _, led, _, _⟩ := resolveFilters_cons_eq_ok_iff.1 resolvedMore
  rw [there p (List.mem_cons_self ..)] at led
  have matched := matching_eq_ok_iff.2 ⟨all, first, rows, resolvedFirst, rfl⟩
  refine ⟨place, _, led, matched, ?_⟩
  rw [matching_append_at matched led there] at found
  exact (Except.ok.inj found).symm

/-- The cells of the records that match pass what is asked of them. -/
theorem accepts_of_matching {filters : FilterSet} {records : List Record} {p : Predicate} {place : ResolvedPath}
    (found : m.matching entity filters = .ok records) (member : p ∈ filters)
    (resolved : m.schema.resolve entity p.path = .ok place) {record : Record} (among : record ∈ records) :
    p.accepts (m.cellAt record place) = true := by
  have last : filters.Perm (filters.erase p ++ [p]) :=
    (List.perm_cons_erase member).trans (List.perm_append_singleton p _).symm
  have there : ∀ q ∈ [p], q.path = p.path := by simp
  obtain ⟨place', _, resolved', _, rfl⟩ :=
    exists_of_matching_append_at (matching_of_perm last found) there (List.cons_ne_nil p [])
  obtain rfl : place = place' := Except.ok.inj (resolved.symm.trans resolved')
  simpa using (List.mem_filter.1 among).2

/-! ## Groups -/

theorem lookup_addToGroup (key : String) (cell : Value) (groups : List (String × List Value)) (sought : String) :
    (addToGroup key cell groups).lookup sought =
      if sought = key then some (cell :: (groups.lookup sought).getD []) else groups.lookup sought := by
  induction groups with
  | nil =>
    rw [addToGroup, List.lookup_cons]
    by_cases same : sought = key
    · simp [same]
    · simp [same, beq_eq_false_iff_ne.2 same]
  | cons head rest ih =>
    obtain ⟨other, cells⟩ := head
    rw [addToGroup]
    by_cases here : other = key
    · subst here
      by_cases same : sought = other
      · simp [same]
      · simp [List.lookup_cons, same, beq_eq_false_iff_ne.2 same]
    · rw [if_neg here, List.lookup_cons, List.lookup_cons, ih]
      by_cases same : sought = key
      · subst same
        have differ : (sought == other) = false := beq_eq_false_iff_ne.2 fun h => here h.symm
        simp [differ]
      · simp [same]

/-- Cells that are added to the groups go in front of those with the same key, the last one first. -/
theorem lookup_addAll (keyed : List (String × Value)) (groups : List (String × List Value)) (sought : String) :
    (keyed.foldl (fun groups (key, cell) => addToGroup key cell groups) groups).lookup sought =
      let added := ((keyed.filter fun e => e.1 = sought).map Prod.snd).reverse
      if added = [] then groups.lookup sought else some (added ++ (groups.lookup sought).getD []) := by
  induction keyed generalizing groups with
  | nil => rfl
  | cons head rest ih =>
    obtain ⟨key, cell⟩ := head
    rw [List.foldl_cons, ih, lookup_addToGroup]
    by_cases same : sought = key
    · subst same
      by_cases none_ : ((rest.filter fun e => e.1 = sought).map Prod.snd).reverse = []
      · simp [none_]
      · simp [none_]
    · have dropped : ((key, cell) :: rest).filter (fun e => e.1 = sought) = rest.filter fun e => e.1 = sought :=
        List.filter_cons_of_neg (by simpa using fun h => same h.symm)
      rw [dropped, if_neg same]

/-- The cells of a group are those with its key, in order. -/
theorem lookup_groupCells (keyed : List (String × Value)) (sought : String) :
    (groupCells keyed).lookup sought =
      let cells := (keyed.filter fun e => e.1 = sought).map Prod.snd
      if cells = [] then none else some cells := by
  unfold groupCells
  refine (Keyed.lookup_map_snd List.reverse _ sought).trans ?_
  rw [lookup_addAll]
  by_cases none_ : (keyed.filter fun e => e.1 = sought).map Prod.snd = []
  · simp [none_]
  · simp [none_]

theorem map_fst_addToGroup (key : String) (cell : Value) (groups : List (String × List Value)) :
    (addToGroup key cell groups).map Prod.fst =
      if key ∈ groups.map Prod.fst then groups.map Prod.fst else groups.map Prod.fst ++ [key] := by
  induction groups with
  | nil => simp [addToGroup]
  | cons head rest ih =>
    obtain ⟨other, cells⟩ := head
    rw [addToGroup]
    by_cases here : other = key
    · simp [here]
    · have differ : key ≠ other := fun h => here h.symm
      by_cases later : key ∈ rest.map Prod.fst
      · simp only [if_neg here, List.map_cons, ih, later, List.mem_cons, or_true, if_true]
      · simp only [if_neg here, List.map_cons, ih, later, List.mem_cons, or_false, differ, if_false, List.cons_append]

/-- Cells that are added to groups leave their keys in place, and new keys follow in order of appearance. -/
theorem map_fst_addAll (keyed : List (String × Value)) (groups : List (String × List Value)) :
    (keyed.foldl (fun groups (key, cell) => addToGroup key cell groups) groups).map Prod.fst =
      groups.map Prod.fst ++ ((keyed.map Prod.fst).filter fun key => key ∉ groups.map Prod.fst).eraseDups := by
  induction keyed generalizing groups with
  | nil => simp
  | cons head rest ih =>
    obtain ⟨key, cell⟩ := head
    rw [List.foldl_cons, ih, map_fst_addToGroup, List.map_cons]
    by_cases known : key ∈ groups.map Prod.fst
    · rw [if_pos known, List.filter_cons_of_neg (by simp [known])]
    · rw [if_neg known, List.filter_cons_of_pos (by simp [known]), List.eraseDups_cons, List.filter_filter,
        List.append_assoc, List.singleton_append]
      have same : ∀ other, decide (other ∉ groups.map Prod.fst ++ [key]) =
          ((!other == key) && decide (other ∉ groups.map Prod.fst)) := by
        intro other
        rw [Bool.eq_iff_iff]
        simp [and_comm]
      simp only [same]

/-- There is a group for each key, in order of appearance. -/
theorem keys_groupCells (keyed : List (String × Value)) :
    (groupCells keyed).map Prod.fst = (keyed.map Prod.fst).eraseDups := by
  unfold groupCells
  rw [List.map_map]
  refine (map_fst_addAll keyed []).trans ?_
  simp

/-- No key has two groups. -/
theorem nodup_groupCells (keyed : List (String × Value)) : ((groupCells keyed).map Prod.fst).Nodup := by
  rw [keys_groupCells]
  exact Parts.nodup_eraseDups _

theorem map_fst_filterMap_sublist (f : List Value → Option Float) (groups : List (String × List Value)) :
    ((groups.filterMap fun (key, cells) => (f cells).map fun x => (key, x)).map Prod.fst).Sublist
      (groups.map Prod.fst) := by
  induction groups with
  | nil => exact .slnil
  | cons head rest ih =>
    obtain ⟨key, cells⟩ := head
    cases given : f cells with
    | none => simpa [given] using ih.cons key
    | some x => simpa [given] using ih.cons_cons key

theorem map_fst_filterMap {f : List Value → Option Float} (total : ∀ cells, (f cells).isSome)
    (groups : List (String × List Value)) :
    (groups.filterMap fun (key, cells) => (f cells).map fun x => (key, x)).map Prod.fst = groups.map Prod.fst := by
  refine (map_fst_filterMap_sublist f groups).eq_of_length ?_
  induction groups with
  | nil => rfl
  | cons head rest ih =>
    obtain ⟨x, given⟩ := Option.isSome_iff_exists.1 (total head.2)
    simpa [given] using ih

/-- Nothing comes of no cells: there is no group for them, and a count of them is zero. -/
theorem compute?_nil (method : Method) : (method.compute? []).getD 0 = 0 := by
  cases method <;> rfl

section Groups
variable {filters : FilterSet} {path : String} {aggregation : Aggregation} {group target : ResolvedPath}
  {records : List Record}

/-- The records with the key at the place. -/
def withKey (m : Memory) (place : ResolvedPath) (records : List Record) (key : String) : List Record :=
  records.filter fun record => (m.cellAt record place).key = key

/-- The groups of an aggregate have different keys, for a count those of all records. A group has the aggregate of the
records with its key, in order. -/
theorem groupAggregate_of_matching (resolvedGroup : m.schema.resolve entity path = .ok group)
    (resolvedTarget : m.schema.resolve entity aggregation.field = .ok target)
    (matched : m.matching entity filters = .ok records) :
    ∃ groups, m.groupAggregate entity filters path aggregation = .ok groups ∧ (groups.map Prod.fst).Nodup ∧
      (aggregation.method = .count →
        groups.map Prod.fst = (records.map fun record => (m.cellAt record group).key).eraseDups) ∧
      ∀ key, groups.lookup key =
        if m.withKey group records key = [] then none
        else aggregation.method.compute? ((m.withKey group records key).map fun record => m.cellAt record target) := by
  let keyed := records.map fun record => ((m.cellAt record group).key, m.cellAt record target)
  have keys : (groupCells keyed).map Prod.fst = (records.map fun record => (m.cellAt record group).key).eraseDups := by
    rw [keys_groupCells, List.map_map]
    rfl
  refine ⟨(groupCells keyed).filterMap fun (key, cells) => (aggregation.method.compute? cells).map fun x => (key, x),
    ?_, ?_, fun counts => ?_, fun key => ?_⟩
  · unfold groupAggregate
    rw [resolvedGroup, resolvedTarget, matched]
    rfl
  · exact (nodup_groupCells keyed).sublist (map_fst_filterMap_sublist _ _)
  · rw [counts, ← keys]
    exact map_fst_filterMap (fun _ => rfl) _
  · rw [Parts.lookup_filterMap _ (nodup_groupCells _), lookup_groupCells]
    have cells : (keyed.filter fun e => e.1 = key).map Prod.snd =
        (m.withKey group records key).map fun record => m.cellAt record target := by
      rw [List.filter_map, List.map_map]
      rfl
    rw [cells]
    by_cases none_ : m.withKey group records key = []
    · simp [none_]
    · simp [none_]

/-- The aggregate of a group is that of the records with its key, zero where there are none. -/
theorem groupAggregate_eq_ok {groups : Groups}
    (found : m.groupAggregate entity filters path aggregation = .ok groups) :
    ∃ group target records, m.schema.resolve entity path = .ok group ∧
      m.schema.resolve entity aggregation.field = .ok target ∧ m.matching entity filters = .ok records ∧
      ∀ key, (groups.lookup key).getD 0 = (aggregation.method.compute?
        ((m.withKey group records key).map fun record => m.cellAt record target)).getD 0 := by
  unfold groupAggregate at found
  obtain ⟨group, resolvedGroup, rest⟩ := Results.bind_eq_ok_iff.1 found
  obtain ⟨target, resolvedTarget, rest⟩ := Results.bind_eq_ok_iff.1 rest
  obtain ⟨records, matched, _⟩ := Results.bind_eq_ok_iff.1 rest
  refine ⟨group, target, records, resolvedGroup, resolvedTarget, matched, fun key => ?_⟩
  obtain ⟨groups', found', _, _, lookup⟩ := groupAggregate_of_matching resolvedGroup resolvedTarget matched
  obtain rfl : groups = groups' := Except.ok.inj (found.symm.trans found')
  rw [lookup]
  by_cases none_ : m.withKey group records key = []
  · rw [if_pos none_, none_]
    exact (compute?_nil _).symm
  · rw [if_neg none_]

end Groups

/-- An aggregate is that of the cells of the records that match. -/
theorem aggregate_eq_ok_iff {filters : FilterSet} {aggregation : Aggregation} {total : Option Float} :
    m.aggregate entity filters aggregation = .ok total ↔ ∃ target records,
      m.schema.resolve entity aggregation.field = .ok target ∧ m.matching entity filters = .ok records ∧
        total = aggregation.method.compute? (records.map fun record => m.cellAt record target) := by
  unfold aggregate
  constructor
  · intro found
    obtain ⟨target, resolved, found⟩ := Results.bind_eq_ok_iff.1 found
    obtain ⟨records, matched, found⟩ := Results.bind_eq_ok_iff.1 found
    cases found
    exact ⟨target, records, resolved, matched, rfl⟩
  · rintro ⟨target, records, resolved, matched, rfl⟩
    rw [resolved, matched]
    rfl

/-! ## Rows -/

/-- The different cells have the keys of all cells, in order of appearance. -/
theorem keys_dedupByKey (seen : List String) (cells : List Value) :
    (dedupByKey seen cells).map Value.key = ((cells.map Value.key).filter fun key => key ∉ seen).eraseDups := by
  induction cells generalizing seen with
  | nil => rfl
  | cons v rest ih =>
    rw [dedupByKey, List.map_cons]
    by_cases known : v.key ∈ seen
    · rw [if_pos known, ih, List.filter_cons_of_neg (by simp [known])]
    · rw [if_neg known, List.filter_cons_of_pos (by simp [known]), List.eraseDups_cons, List.filter_filter,
        List.map_cons, ih]
      have same : ∀ key, decide (key ∉ v.key :: seen) = ((!key == v.key) && decide (key ∉ seen)) := by
        intro key
        rw [Bool.eq_iff_iff]
        simp
      simp only [same]

/-- Where keys tell what is read, the different values are read of what is different. -/
theorem dedupByKey_map {α : Type} [BEq α] [LawfulBEq α] {read : α → Value} {cells : List α}
    (told : ∀ a ∈ cells, ∀ b ∈ cells, (read a).key = (read b).key → a = b) (seen : List String) :
    dedupByKey seen (cells.map read) = (cells.filter fun c => (read c).key ∉ seen).eraseDups.map read := by
  induction cells generalizing seen with
  | nil => rfl
  | cons c rest ih =>
    have others := ih fun a memberA b memberB => told a (List.mem_cons_of_mem c memberA) b (List.mem_cons_of_mem c memberB)
    rw [List.map_cons, dedupByKey]
    by_cases known : (read c).key ∈ seen
    · rw [if_pos known, others, List.filter_cons_of_neg (by simp [known])]
    · rw [if_neg known, List.filter_cons_of_pos (by simp [known]), List.eraseDups_cons, List.filter_filter, List.map_cons, others]
      refine congrArg (fun kept : List α => read c :: kept.eraseDups.map read) (List.filter_congr fun d member => ?_)
      have same : (read d).key = (read c).key ↔ d = c :=
        ⟨told d (List.mem_cons_of_mem c member) c (List.mem_cons_self ..), fun same => same ▸ rfl⟩
      rw [Bool.eq_iff_iff]
      simp [same]

theorem distinctValues_of_matching {filters : FilterSet} {path : String} {place : ResolvedPath} {records : List Record}
    (resolved : m.schema.resolve entity path = .ok place) (matched : m.matching entity filters = .ok records) :
    ∃ cells, m.distinctValues entity filters path = .ok cells ∧
      cells.map Value.key = (records.map fun record => (m.cellAt record place).key).eraseDups := by
  refine ⟨dedupByKey [] (records.map fun record => m.cellAt record place), ?_, ?_⟩
  · unfold distinctValues
    rw [resolved, matched]
    rfl
  · rw [keys_dedupByKey, List.map_map]
    simp [Function.comp_def]

theorem matching_of_distinctValues {filters : FilterSet} {path : String} {cells : List Value}
    (found : m.distinctValues entity filters path = .ok cells) : ∃ records, m.matching entity filters = .ok records := by
  unfold distinctValues at found
  obtain ⟨_, _, found⟩ := Results.bind_eq_ok_iff.1 found
  obtain ⟨records, matched, _⟩ := Results.bind_eq_ok_iff.1 found
  exact ⟨records, matched⟩

theorem mem_of_mem_dedupByKey {seen : List String} {cells : List Value} {cell : Value}
    (member : cell ∈ dedupByKey seen cells) : cell ∈ cells := by
  induction cells generalizing seen with
  | nil => exact member
  | cons v rest ih =>
    rw [dedupByKey] at member
    by_cases known : v.key ∈ seen
    · rw [if_pos known] at member
      exact List.mem_cons_of_mem v (ih member)
    · rw [if_neg known] at member
      rcases List.mem_cons.1 member with rfl | member
      · exact List.mem_cons_self ..
      · exact List.mem_cons_of_mem v (ih member)

/-- The different cells at a path are cells of the records that match. -/
theorem exists_of_mem_distinct {filters : FilterSet} {path : String} {cells : List Value} {place : ResolvedPath}
    {records : List Record} (resolved : m.schema.resolve entity path = .ok place)
    (matched : m.matching entity filters = .ok records) (found : m.distinctValues entity filters path = .ok cells)
    {cell : Value} (member : cell ∈ cells) : ∃ record ∈ records, m.cellAt record place = cell := by
  unfold distinctValues at found
  rw [resolved, matched] at found
  cases found
  exact List.mem_map.1 (mem_of_mem_dedupByKey member)

theorem exists_of_mem_distinctValues {filters : FilterSet} {path : String} {cells : List Value}
    (found : m.distinctValues entity filters path = .ok cells) {cell : Value} (member : cell ∈ cells) :
    ∃ place, m.schema.resolve entity path = .ok place ∧
      ∃ record ∈ (m.tableOf entity).rows.toList, m.cellAt record place = cell := by
  obtain ⟨records, matched⟩ := matching_of_distinctValues found
  have found' := found
  unfold distinctValues at found'
  obtain ⟨place, resolved, _⟩ := Results.bind_eq_ok_iff.1 found'
  obtain ⟨record, inside, same⟩ := exists_of_mem_distinct resolved matched found member
  exact ⟨place, resolved, record, mem_table_of_matching matched inside, same⟩

theorem mem_insertById {primaryKey : String} {record other : Record} {sorted : List Record}
    (member : other ∈ insertById primaryKey record sorted) : other = record ∨ other ∈ sorted := by
  induction sorted with
  | nil => exact Or.inl (List.mem_singleton.1 member)
  | cons last before ih =>
    rw [insertById] at member
    split at member
    · rcases List.mem_cons.1 member with rfl | member
      · exact Or.inr (List.mem_cons_self ..)
      · rcases ih member with same | member
        · exact Or.inl same
        · exact Or.inr (List.mem_cons_of_mem last member)
    · exact List.mem_cons.1 member

theorem mem_of_mem_sortById {primaryKey : String} {records : List Record} {record : Record}
    (member : record ∈ sortById primaryKey records) : record ∈ records := by
  have step : ∀ sorted : List Record,
      record ∈ records.foldl (fun sorted record => insertById primaryKey record sorted) sorted →
        record ∈ records ∨ record ∈ sorted := by
    clear member
    induction records with
    | nil => exact fun _ member => Or.inr member
    | cons first rest ih =>
      intro sorted member
      rcases ih _ member with later | earlier
      · exact Or.inl (List.mem_cons_of_mem first later)
      · rcases mem_insertById earlier with rfl | before
        · exact Or.inl (List.mem_cons_self ..)
        · exact Or.inr before
  unfold sortById at member
  rcases step [] (List.mem_reverse.1 member) with found | none_
  · exact found
  · cases none_

theorem resolve_of_mem_resolveFields {names : List String} {fields : List (String × ResolvedPath)}
    (found : m.resolveFields entity names = .ok fields) {name : String} {place : ResolvedPath}
    (member : (name, place) ∈ fields) : m.schema.resolve entity name = .ok place := by
  unfold resolveFields at found
  obtain ⟨all, ran⟩ : ∃ all : List String,
      all.mapM (fun name => (m.schema.resolve entity name).map fun path => (name, path)) = .ok fields := by
    split at found
    · obtain ⟨all, _, ran⟩ := Results.bind_eq_ok_iff.1 found
      exact ⟨all, ran⟩
    · exact ⟨names, found⟩
  obtain ⟨other, _, resolved⟩ := Results.exists_of_mapM ran member
  obtain ⟨place', resolved, same⟩ := Results.map_eq_ok_iff.1 resolved
  cases same
  exact resolved

/-- A related row has its primary key, as a cell or, if it is read at the path of that name, as it is read there. -/
theorem key_of_mem_relatedRows {ids : Option (List Value)} {names : List String} {found : List Record} {e : Entity}
    (answered : m.relatedRows entity ids names = .ok found) (known : m.schema.entity entity = .ok e)
    {record : Record} (member : record ∈ found) :
    ∃ v, record.get? e.primaryKey = some v ∧ ∃ row ∈ (m.tableOf entity).rows.toList, v = row.cell e.primaryKey ∨
      ∃ places place, m.resolveFields entity names = .ok places ∧ (e.primaryKey, place) ∈ places ∧ v = m.cellAt row place := by
  unfold relatedRows relatedRowsBy at answered
  obtain ⟨e', known', answered⟩ := Results.bind_eq_ok_iff.1 answered
  rw [known] at known'
  cases known'
  obtain ⟨places, resolved, answered⟩ := Results.bind_eq_ok_iff.1 answered
  cases answered
  obtain ⟨row, inside, rfl⟩ := List.mem_map.1 member
  have inTable := (List.mem_filter.1 (mem_of_mem_sortById inside)).1
  unfold projectRelated
  dsimp only
  split
  · rename_i there
    obtain ⟨v, has⟩ := Option.isSome_iff_exists.1 there
    rcases Keyed.mem_of_get?_insertAll has with among | none_
    · obtain ⟨⟨name, place⟩, member, same⟩ := List.mem_map.1 among
      cases same
      exact ⟨_, has, row, inTable, Or.inr ⟨places, place, resolved, member, rfl⟩⟩
    · cases none_
  · exact ⟨_, Keyed.get?_insert_self .., row, inTable, Or.inl rfl⟩

end Reporting.Memory
