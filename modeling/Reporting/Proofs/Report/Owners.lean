import Reporting.Proofs.Report.Columns

/-!
Owners of columns. A column with an owner is of a field that the owner's field requires, and the owners of
owners end at a column without an owner whose field reaches all of them (`Owners.Sound.last`). No round of
owners is met, because no field requires itself (`Owners.Sound.chain`).
-/

namespace Reporting
namespace Owners

/-- Every owner and what it owns are columns of the context, and the owner's field requires the other. -/
structure Sound (r : Registry) (members : List ComputedColumn) (owners : Owners) : Prop where
  owned : ∀ {n o}, owners.get? n = some o →
    ∃ a ∈ members, ∃ b ∈ members, a.name = n ∧ b.name = o ∧ r.Depends b.computation a.computation

theorem Sound.empty (r : Registry) (members : List ComputedColumn) : Sound r members Keyed.empty where
  owned found := by simp at found

/-- Only columns of the context have an owner. -/
theorem Sound.get?_eq_none {r : Registry} {members : List ComputedColumn} {owners : Owners}
    (sound : Sound r members owners) {n : String} (outside : ∀ c ∈ members, c.name ≠ n) : owners.get? n = none := by
  cases found : owners.get? n with
  | none => rfl
  | some o =>
    obtain ⟨a, member, _, _, named, _⟩ := sound.owned found
    exact absurd named (outside a member)

theorem get?_mark {owners : Owners} {owner : String} {required : List String} {columns : List ComputedColumn}
    {n o : String} (found : (mark owners owner required columns).get? n = some o) :
    owners.get? n = some o ∨ o = owner ∧ ∃ a ∈ columns, a.name = n ∧ a.column.baseName ∈ required := by
  unfold mark at found
  induction columns generalizing owners with
  | nil => exact Or.inl found
  | cons c rest ih =>
    rw [List.foldl_cons] at found
    rcases ih found with before | ⟨same, a, member, named, base⟩
    · split at before
      · rename_i marked
        rcases Keyed.get?_insert_cases before with ⟨rfl, rfl⟩ | before
        · exact Or.inr ⟨rfl, c, List.mem_cons_self .., rfl, marked.2.1⟩
        · exact Or.inl before
      · exact Or.inl before
    · exact Or.inr ⟨same, a, List.mem_cons_of_mem c member, named, base⟩

variable {r : Registry} {key : ContextKey} {members : List ComputedColumn}

theorem Sound.mark {owners : Owners} (sound : Sound r members owners) (family : ComputedColumn.Family r key members)
    {b : ComputedColumn} (member : b ∈ members) {ds : List Computation} (listed : r.dependencies b.computation = .ok ds) :
    Sound r members (mark owners b.name (ds.map Computation.name) members) := by
  constructor
  intro n o found
  rcases get?_mark found with before | ⟨rfl, a, inside, rfl, base⟩
  · exact sound.owned before
  · refine ⟨a, inside, b, member, rfl, rfl, ?_⟩
    obtain ⟨d, required, named⟩ := List.mem_map.1 base
    rw [(family.regular a inside).base] at named
    have depends := (Registry.mem_dependencies_iff listed).1 required
    have same := Registry.eq_of_name_eq (family.covers b member d depends.to_reflTransGen)
      (family.covers a inside).get named
    rw [← same]
    exact depends

/-- Adds the columns that the column owns. -/
def markFor (r : Registry) (members : List ComputedColumn) (owners : Owners) (c : ComputedColumn) :
    Except ReportError Owners :=
  match r.dependencies c.computation with
  | .ok required => .ok (mark owners c.name (required.map Computation.name) members)
  | .error e => .error e

theorem ofMembers_eq (r : Registry) (members : List ComputedColumn) :
    ofMembers r members = members.foldlM (markFor r members) Keyed.empty :=
  rfl

/-- Owners can be added when the requirements of the fields can be listed. -/
theorem foldlM_markFor (family : ComputedColumn.Family r key members) {columns : List ComputedColumn}
    (inside : columns ⊆ members) (listed : ∀ c ∈ columns, ∃ ds, r.dependencies c.computation = .ok ds)
    {owners : Owners} (sound : Sound r members owners) :
    ∃ owners', columns.foldlM (markFor r members) owners = .ok owners' ∧ Sound r members owners' := by
  induction columns generalizing owners with
  | nil => exact ⟨owners, rfl, sound⟩
  | cons c rest ih =>
    have member := inside (List.mem_cons_self ..)
    obtain ⟨ds, found⟩ := listed c (List.mem_cons_self ..)
    obtain ⟨owners', ran, sound'⟩ := ih (List.subset_of_cons_subset inside)
      (fun d member => listed d (List.mem_cons_of_mem c member)) (sound.mark family member found)
    refine ⟨owners', ?_, sound'⟩
    rw [List.foldlM_cons, markFor, found]
    exact ran

theorem listed_of_foldlM_markFor {columns : List ComputedColumn} {owners owners' : Owners}
    (ran : columns.foldlM (markFor r members) owners = .ok owners') :
    ∀ c ∈ columns, ∃ ds, r.dependencies c.computation = .ok ds := by
  induction columns generalizing owners with
  | nil => simp
  | cons c rest ih =>
    rw [List.foldlM_cons, markFor] at ran
    intro d member
    cases listed : r.dependencies c.computation with
    | error e =>
      rw [listed] at ran
      cases ran
    | ok ds =>
      rw [listed] at ran
      rcases List.mem_cons.1 member with rfl | member
      · exact ⟨ds, listed⟩
      · exact ih ran d member

/-- There are owners when the requirements of all fields can be listed, and only then. -/
theorem ofMembers_eq_ok_iff (family : ComputedColumn.Family r key members) :
    (∃ owners, ofMembers r members = .ok owners) ↔ ∀ c ∈ members, ∃ ds, r.dependencies c.computation = .ok ds := by
  constructor
  · rintro ⟨owners, found⟩
    rw [ofMembers_eq] at found
    exact listed_of_foldlM_markFor found
  · intro listed
    obtain ⟨owners, found, _⟩ := foldlM_markFor family (List.Subset.refl _) listed (.empty r members)
    exact ⟨owners, found⟩

theorem exists_unlisted (family : ComputedColumn.Family r key members) {e : ReportError}
    (failed : ofMembers r members = .error e) : ∃ c ∈ members, ∀ ds, r.dependencies c.computation ≠ .ok ds := by
  refine Classical.byContradiction fun none_ => ?_
  have listed : ∀ c ∈ members, ∃ ds, r.dependencies c.computation = .ok ds := by
    intro c member
    refine Classical.byContradiction fun unlisted => none_ ⟨c, member, fun ds found => unlisted ⟨ds, found⟩⟩
  obtain ⟨owners, found⟩ := (ofMembers_eq_ok_iff family).2 listed
  rw [failed] at found
  cases found

theorem sound_of_ofMembers (family : ComputedColumn.Family r key members) {owners : Owners}
    (found : ofMembers r members = .ok owners) : Sound r members owners := by
  have listed := (ofMembers_eq_ok_iff family).1 ⟨owners, found⟩
  obtain ⟨owners', found', sound⟩ := foldlM_markFor family (List.Subset.refl _) listed (.empty r members)
  rw [← ofMembers_eq, found] at found'
  rw [Except.ok.inj found']
  exact sound

/-- The columns that have an owner keep it, and those whose fields are required get one. -/
theorem contains_mark_iff {owners : Owners} {owner : String} {required : List String} {columns : List ComputedColumn}
    {n : String} : (mark owners owner required columns).contains n ↔
      owners.contains n ∨ ∃ c ∈ columns, c.name = n ∧ n ≠ owner ∧ c.column.baseName ∈ required := by
  have step : ∀ (owners : Owners) (c : ComputedColumn),
      (if c.name ≠ owner ∧ c.column.baseName ∈ required ∧ !owners.contains c.name then owners.insert c.name owner
        else owners).contains n ↔ owners.contains n ∨ c.name = n ∧ n ≠ owner ∧ c.column.baseName ∈ required := by
    intro owners c
    split
    · rename_i marked
      rw [Keyed.contains_insert_iff]
      constructor
      · rintro (rfl | known)
        · exact Or.inr ⟨rfl, marked.1, marked.2.1⟩
        · exact Or.inl known
      · rintro (known | ⟨rfl, _⟩)
        · exact Or.inr known
        · exact Or.inl rfl
    · rename_i unmarked
      refine (or_iff_left_of_imp ?_).symm
      rintro ⟨rfl, differ, base⟩
      simpa [differ, base] using unmarked
  unfold mark
  induction columns generalizing owners with
  | nil => simp
  | cons c rest ih =>
    rw [List.foldl_cons]
    refine ih.trans ?_
    rw [step]
    simp only [List.mem_cons, exists_eq_or_imp, or_assoc]

private theorem not_depends_self {c : Computation} (listed : ∃ ds, r.dependencies c = .ok ds) : ¬ r.Depends c c := by
  obtain ⟨ds, found⟩ := listed
  obtain ⟨t, rfl, unfolds, _⟩ := Registry.unfolds_of_dependencies found
  exact unfolds.not_depends_root

/-- The columns of the context whose fields the column requires have an owner from then on. -/
theorem contains_foldlM_markFor (family : ComputedColumn.Family r key members) {columns : List ComputedColumn}
    (inside : columns ⊆ members) {owners owners' : Owners} (ran : columns.foldlM (markFor r members) owners = .ok owners')
    {c : ComputedColumn} (member : c ∈ members)
    (required : owners.contains c.name ∨ ∃ b ∈ columns, r.Depends b.computation c.computation) : owners'.contains c.name := by
  induction columns generalizing owners with
  | nil =>
    cases ran
    simpa using required
  | cons b rest ih =>
    obtain ⟨ds, listed⟩ := listed_of_foldlM_markFor ran b (List.mem_cons_self ..)
    rw [List.foldlM_cons, markFor, listed] at ran
    refine ih (List.subset_of_cons_subset inside) ran ?_
    rw [contains_mark_iff]
    rcases required with known | ⟨b', memberB, depends⟩
    · exact Or.inl (Or.inl known)
    · rcases List.mem_cons.1 memberB with rfl | later
      · refine Or.inl (Or.inr ⟨c, member, rfl, fun same => ?_, ?_⟩)
        · rw [family.computation_eq member (inside memberB) same] at depends
          exact not_depends_self ⟨ds, listed⟩ depends
        · rw [(family.regular c member).base]
          exact List.mem_map_of_mem ((Registry.mem_dependencies_iff listed).2 depends)
      · exact Or.inr ⟨b', later, depends⟩

/-- A column has an owner just if a field of the context requires its own. -/
theorem contains_ofMembers_iff (family : ComputedColumn.Family r key members) {owners : Owners}
    (found : ofMembers r members = .ok owners) {c : ComputedColumn} (member : c ∈ members) :
    owners.contains c.name ↔ ∃ b ∈ members, r.Depends b.computation c.computation := by
  constructor
  · intro owned
    obtain ⟨o, owned⟩ := Option.isSome_iff_exists.1 owned
    obtain ⟨a, memberA, b, memberB, same, _, depends⟩ := (sound_of_ofMembers family found).owned owned
    rw [family.computation_eq memberA member same] at depends
    exact ⟨b, memberB, depends⟩
  · intro required
    rw [ofMembers_eq] at found
    exact contains_foldlM_markFor family (List.Subset.refl _) found member (Or.inr required)

/-! ## Owners of owners -/

/-- The columns met along the owners of owners, in order. A round of owners ends where a column is met again. -/
def chain (owners : Owners) (seen : List String) (name : String) : List String :=
  match _next : owners.get? name with
  | none => [name]
  | some next => if _again : name ∈ seen then [name] else name :: owners.chain (name :: seen) next
termination_by owners.namesOutside seen
decreasing_by
  exact Keyed.namesOutside_lt (List.subset_cons_self ..) (Keyed.mem_names_of_get? _next) _again
    (List.mem_cons_self ..)

theorem last_of_unowned {owners : Owners} {name : String} (free : owners.get? name = none) (seen : List String) :
    owners.last seen name = name := by
  rw [last]
  split
  · rfl
  · rename_i found
    rw [free] at found
    cases found

theorem last_of_owned {owners : Owners} {name next : String} (found : owners.get? name = some next) (seen : List String) :
    owners.last seen name = if name ∈ seen then name else owners.last (name :: seen) next := by
  rw [last]
  split
  · rename_i free
    rw [free] at found
    cases found
  · rename_i next' found'
    obtain rfl : next' = next := Option.some.inj (found'.symm.trans found)
    rfl

/-- The last owner is the last column met. -/
theorem getLast?_chain (owners : Owners) (seen : List String) (name : String) :
    (owners.chain seen name).getLast? = some (owners.last seen name) := by
  fun_induction owners.chain seen name with
  | case1 seen name free => rw [last_of_unowned free, List.getLast?_singleton]
  | case2 seen name next found again => rw [last_of_owned found, if_pos again, List.getLast?_singleton]
  | case3 seen name next found fresh ih =>
    rw [last_of_owned found, if_neg fresh, List.getLast?_cons, ih]
    rfl

/-- Along the owners of owners no column is met twice, since the field of each requires those before it. The last one has
no owner. -/
theorem Sound.chain {owners : Owners} (sound : Sound r members owners)
    (family : ComputedColumn.Family r key members) (listed : ∀ c ∈ members, ∃ ds, r.dependencies c.computation = .ok ds)
    (seen : List String) {a : ComputedColumn} (member : a ∈ members)
    (below : ∀ c ∈ members, c.name ∈ seen → r.Depends a.computation c.computation) :
    (owners.chain seen a.name).Nodup ∧
      (∀ n ∈ owners.chain seen a.name, ∃ b ∈ members, b.name = n ∧ r.Reaches b.computation a.computation) ∧
      owners.get? (owners.last seen a.name) = none := by
  generalize named : a.name = n
  fun_induction owners.chain seen n generalizing a with
  | case1 seen n free =>
    rw [last_of_unowned free]
    refine ⟨by simp, fun m inside => ?_, free⟩
    exact ⟨a, member, named.trans (List.mem_singleton.1 inside).symm, .refl⟩
  | case2 seen n next _ again =>
    rw [← named] at again
    exact absurd (below a member again) (not_depends_self (listed a member))
  | case3 seen n next found fresh ih =>
    obtain ⟨a', member', b, inside, same, rfl, depends⟩ := sound.owned found
    rw [family.computation_eq member' member (same.trans named.symm)] at depends
    have deeper : ∀ c ∈ members, c.name ∈ n :: seen → r.Depends b.computation c.computation := by
      intro c inside known
      rcases List.mem_cons.1 known with here | known
      · rw [family.computation_eq inside member (here.trans named.symm)]
        exact depends
      · exact depends.trans (below c inside known)
    obtain ⟨distinct, above, free⟩ := ih inside deeper rfl
    rw [last_of_owned found, if_neg fresh]
    refine ⟨List.nodup_cons.2 ⟨fun again => ?_, distinct⟩, fun m met => ?_, free⟩
    · obtain ⟨c, memberC, namedC, reaches⟩ := above n again
      rw [family.computation_eq memberC member (namedC.trans named.symm)] at reaches
      exact not_depends_self (listed a member) (Relation.TransGen.trans_right reaches depends)
    · rcases List.mem_cons.1 met with rfl | met
      · exact ⟨a, member, named, .refl⟩
      · obtain ⟨c, memberC, namedC, reaches⟩ := above m met
        exact ⟨c, memberC, namedC, reaches.trans depends.to_reflTransGen⟩

/-- The owners of owners end at a column without an owner, whose field reaches that of the first. -/
theorem Sound.last {owners : Owners} (sound : Sound r members owners)
    (family : ComputedColumn.Family r key members) (listed : ∀ c ∈ members, ∃ ds, r.dependencies c.computation = .ok ds)
    (seen : List String) {a : ComputedColumn} (member : a ∈ members)
    (below : ∀ c ∈ members, c.name ∈ seen → r.Depends a.computation c.computation) :
    ∃ b ∈ members, b.name = owners.last seen a.name ∧ owners.get? b.name = none ∧
      r.Reaches b.computation a.computation := by
  obtain ⟨_, above, free⟩ := sound.chain family listed seen member below
  obtain ⟨b, inside, named, reaches⟩ := above _ (List.mem_of_getLast? (owners.getLast?_chain seen a.name))
  exact ⟨b, inside, named, named ▸ free, reaches⟩

/-- A column with an owner is in the end read from one without, whose field requires its own. On the way no column is met
twice. -/
theorem Sound.owner {owners : Owners} (sound : Sound r members owners)
    (family : ComputedColumn.Family r key members) (listed : ∀ c ∈ members, ∃ ds, r.dependencies c.computation = .ok ds)
    {c : ComputedColumn} (member : c ∈ members) {o : String} (owned : owners.get? c.name = some o) :
    (c.name :: owners.chain [] o).Nodup ∧ ∃ b ∈ members, b.name = owners.last [] o ∧ owners.get? b.name = none ∧
      r.Depends b.computation c.computation := by
  obtain ⟨a, memberA, b, memberB, sameName, rfl, depends⟩ := sound.owned owned
  rw [family.computation_eq memberA member sameName] at depends
  obtain ⟨distinct, above, _⟩ := sound.chain family listed [] memberB (by simp)
  obtain ⟨e, memberE, named, free, reaches⟩ := sound.last family listed [] memberB (by simp)
  refine ⟨List.nodup_cons.2 ⟨fun again => ?_, distinct⟩, e, memberE, named, free, Relation.TransGen.trans_right reaches depends⟩
  obtain ⟨d, memberD, namedD, reachesD⟩ := above _ again
  rw [family.computation_eq memberD member namedD] at reachesD
  exact not_depends_self (listed c member) (Relation.TransGen.trans_right reachesD depends)

end Owners
end Reporting
