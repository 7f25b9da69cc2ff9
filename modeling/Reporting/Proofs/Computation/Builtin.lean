import Reporting.Computation.Builtin
import Reporting.Proofs.Computation.Requirements

/-!
The fields that are there to begin with: all of them are found by name in the default registry. The share of
the balance requires the balance, which requires the opening balance.
-/

namespace Reporting
namespace Registry
variable {r : Registry}

theorem get_eq_ok_iff {name : String} {c : Computation} : r.get name = .ok c ↔ r.fields.get? name = some c := by
  unfold get
  cases r.fields.get? name with
  | none => simp
  | some d => simp

theorem get_put_self (r : Registry) (c : Computation) : (r.put c).get c.name = .ok c :=
  get_eq_ok_iff.2 (Keyed.get?_insert_self ..)

theorem get_put_of_ne {name : String} {c d : Computation} (differ : name ≠ c.name) :
    (r.put c).get name = .ok d ↔ r.get name = .ok d := by
  rw [get_eq_ok_iff, get_eq_ok_iff]
  unfold put
  rw [Keyed.get?_insert_of_ne _ differ]

/-- Of fields with different names, all are found. -/
theorem get_of_mem {cs : List Computation} (distinct : (cs.map Computation.name).Nodup) {c : Computation}
    (known : c ∈ cs ∨ r.get c.name = .ok c ∧ c.name ∉ cs.map Computation.name) :
    (cs.foldl put r).get c.name = .ok c := by
  induction cs generalizing r with
  | nil =>
    rcases known with impossible | known
    · cases impossible
    · exact known.1
  | cons d rest ih =>
    rw [List.map_cons, List.nodup_cons] at distinct
    refine ih distinct.2 ?_
    rcases known with member | ⟨known, outside⟩
    · rcases List.mem_cons.1 member with rfl | member
      · exact Or.inr ⟨get_put_self r c, distinct.1⟩
      · exact Or.inl member
    · rw [List.map_cons, List.mem_cons, not_or] at outside
      exact Or.inr ⟨(get_put_of_ne outside.1).2 known, outside.2⟩

/-- What is found among fields that were put into a registry is one of them, or was there before. -/
theorem mem_of_get_put {cs : List Computation} {name : String} {c : Computation}
    (found : (cs.foldl put r).get name = .ok c) : c ∈ cs ∨ r.get name = .ok c := by
  induction cs generalizing r with
  | nil => exact Or.inr found
  | cons d rest ih =>
    rcases ih found with later | before
    · exact Or.inl (List.mem_cons_of_mem d later)
    · by_cases same : name = d.name
      · rw [same, get_put_self] at before
        cases before
        exact Or.inl (List.mem_cons_self ..)
      · exact Or.inr ((get_put_of_ne same).1 before)

/-- Fields that require others by name only come from the registry with all that they require. -/
theorem covers_of_named (named : ∀ name d, r.get name = .ok d → ∀ q ∈ d.requirements, ∃ n, q = .named n)
    {c : Computation} (found : r.get c.name = .ok c) : r.Covers c := by
  intro d reaches
  induction reaches with
  | refl => exact found
  | tail _ requires ih =>
    obtain ⟨q, member, means⟩ := requires
    obtain ⟨n, rfl⟩ := named _ _ ih q member
    have means : r.get n = .ok _ := means
    rw [(name_of_get means).1]
    exact means

end Registry

namespace Builtin

theorem get {c : Computation} (member : c ∈ all) : Registry.withDefaults.get c.name = .ok c :=
  Registry.get_of_mem (by decide) (Or.inl member)

/-- The trees of the movement, of the opening balance, of the balance and of the share of the balance. -/
def totalTree : FieldTree := .node total [.node debit [], .node credit []]
def openingTree : FieldTree := .node openingBalance []
def balanceTree : FieldTree := .node balance [openingTree]
def shareTree : FieldTree := .node percentToTotalBalance [balanceTree]

theorem unfolds_of_named {r : Registry} {stack : List String} {c : Computation} {below : List FieldTree}
    (fresh : c.name ∉ stack) (named : c.requirements = below.map fun t => .named t.root.name)
    (registered : ∀ t ∈ below, r.get t.root.name = .ok t.root)
    (each : ∀ t ∈ below, t.Unfolds r (stack ++ [c.name])) : (FieldTree.node c below).Unfolds r stack := by
  refine .node fresh ?_ each
  rw [named]
  clear named each
  induction below with
  | nil => rfl
  | cons t rest ih =>
    have others := ih fun u member => registered u (List.mem_cons_of_mem t member)
    exact Registry.resolveAll_cons_eq_ok_iff.2 ⟨_, _, registered t (List.mem_cons_self ..), others, rfl⟩

theorem unfolds_totalTree : totalTree.Unfolds Registry.withDefaults [] := by
  refine unfolds_of_named (by simp) rfl ?_ ?_
  · intro t member
    simp only [List.mem_cons, List.not_mem_nil, or_false] at member
    rcases member with rfl | rfl
    · exact get (by simp [all, FieldTree.root])
    · exact get (by simp [all, FieldTree.root])
  · intro t member
    simp only [List.mem_cons, List.not_mem_nil, or_false] at member
    rcases member with rfl | rfl
    · exact unfolds_of_named (by decide) rfl (by simp) (by simp)
    · exact unfolds_of_named (by decide) rfl (by simp) (by simp)

theorem unfolds_openingTree {stack : List String} (fresh : "__fb__" ∉ stack) :
    openingTree.Unfolds Registry.withDefaults stack :=
  unfolds_of_named fresh rfl (by simp) (by simp)

theorem unfolds_balanceTree {stack : List String} (fresh : "__balance__" ∉ stack) (below : "__fb__" ∉ stack) :
    balanceTree.Unfolds Registry.withDefaults stack := by
  refine unfolds_of_named fresh rfl ?_ ?_
  · intro t member
    rw [List.mem_singleton.1 member]
    exact get (by simp [all, openingTree, FieldTree.root])
  · intro t member
    rw [List.mem_singleton.1 member]
    refine unfolds_openingTree ?_
    rw [List.mem_append, not_or]
    exact ⟨below, by decide⟩

theorem unfolds_shareTree : shareTree.Unfolds Registry.withDefaults [] := by
  refine unfolds_of_named (by simp) rfl ?_ ?_
  · intro t member
    rw [List.mem_singleton.1 member]
    exact get (by simp [all, balanceTree, FieldTree.root])
  · intro t member
    rw [List.mem_singleton.1 member]
    exact unfolds_balanceTree (by decide) (by decide)

theorem named_of_mem {c : Computation} (member : c ∈ all) {q : Requirement} (required : q ∈ c.requirements) :
    ∃ n, q = .named n := by
  simp only [all, List.mem_cons, List.not_mem_nil, or_false] at member
  rcases member with rfl | rfl | rfl | rfl | rfl | rfl | rfl | rfl | rfl | rfl | rfl <;>
    simp only [debit, credit, total, openingBalance, balance, percentToTotalBalance, debitQuantity, creditQuantity,
      totalQuantity, openingQuantity, balanceQuantity, ofQuantity, Computation.new, List.mem_cons, List.not_mem_nil,
      or_false] at required
  · rcases required with rfl | rfl <;> exact ⟨_, rfl⟩
  all_goals exact ⟨_, required⟩

theorem covers {c : Computation} (member : c ∈ all) : Registry.withDefaults.Covers c := by
  refine Registry.covers_of_named (fun name d found q required => ?_) (get member)
  rcases Registry.mem_of_get_put found with listed | absent
  · exact named_of_mem listed required
  · cases absent

theorem reaches_openingBalance_iff (d : Computation) :
    Registry.withDefaults.Reaches openingBalance d ↔ d = openingBalance := by
  have members := (unfolds_openingTree (List.not_mem_nil)).mem_fields_iff (d := d)
  rw [show openingTree.root = openingBalance from rfl] at members
  rw [← members]
  simp [openingTree, FieldTree.fields, FieldTree.fieldsOf]

theorem reaches_balance_iff (d : Computation) :
    Registry.withDefaults.Reaches balance d ↔ d = balance ∨ d = openingBalance := by
  have members := (unfolds_balanceTree (List.not_mem_nil) (List.not_mem_nil)).mem_fields_iff (d := d)
  rw [show balanceTree.root = balance from rfl] at members
  rw [← members]
  simp [balanceTree, openingTree, FieldTree.fields, FieldTree.fieldsOf]

theorem reaches_percentToTotalBalance_iff (d : Computation) :
    Registry.withDefaults.Reaches percentToTotalBalance d ↔ d = percentToTotalBalance ∨ d = balance ∨ d = openingBalance := by
  have members := unfolds_shareTree.mem_fields_iff (d := d)
  rw [show shareTree.root = percentToTotalBalance from rfl] at members
  rw [← members]
  simp [shareTree, balanceTree, openingTree, FieldTree.fields, FieldTree.fieldsOf]

theorem not_depends_openingBalance (d : Computation) : ¬ Registry.withDefaults.Depends openingBalance d := by
  intro depends
  obtain ⟨_, ⟨_, none_, _⟩, _⟩ := Relation.TransGen.head'_iff.1 depends
  cases none_

theorem depends_balance : Registry.withDefaults.Depends balance openingBalance :=
  .single ⟨.named "__fb__", by simp [balance], get (c := openingBalance) (by simp [all])⟩

theorem depends_percentToTotalBalance : Registry.withDefaults.Depends percentToTotalBalance balance :=
  .single ⟨.named "__balance__", by simp [percentToTotalBalance], get (c := balance) (by simp [all])⟩

end Builtin
end Reporting
