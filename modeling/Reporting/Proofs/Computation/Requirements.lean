import Mathlib.Logic.Relation
import Reporting.Computation.Dependencies
import Reporting.Proofs.Results

/-!
What fields require, as a relation between fields and as trees. A field unfolds to a tree exactly when
everything it requires is there and no requirement leads back to a field on the way to it; such a tree is
determined by its root, and no field in it requires itself.
-/

namespace Reporting

/-- The first field requires the second one directly. -/
def Registry.Requires (r : Registry) (c d : Computation) : Prop :=
  ∃ q ∈ c.requirements, r.resolve q = .ok d

/-- The second field is the first one or something that it requires, directly or not. -/
abbrev Registry.Reaches (r : Registry) : Computation → Computation → Prop :=
  Relation.ReflTransGen r.Requires

/-- The second field is required by the first one, directly or not. -/
abbrev Registry.Depends (r : Registry) : Computation → Computation → Prop :=
  Relation.TransGen r.Requires

/-- The field and everything that it requires come from the registry by name. -/
def Registry.Covers (r : Registry) (c : Computation) : Prop :=
  ∀ d, r.Reaches c d → r.get d.name = .ok d

/-- A field with the trees of what it requires. -/
inductive FieldTree where
  | node (computation : Computation) (below : List FieldTree)

namespace FieldTree
variable {r : Registry}

def root : FieldTree → Computation
  | node c _ => c

mutual

/-- The fields of a tree, each before what it requires. -/
def fields : FieldTree → List Computation
  | node c below => c :: fieldsOf below

def fieldsOf : List FieldTree → List Computation
  | [] => []
  | t :: rest => t.fields ++ fieldsOf rest

end

/-- The tree holds everything that its root requires. No name of the stack occurs in it, and none twice on
a way down. -/
inductive Unfolds (r : Registry) : List String → FieldTree → Prop
  | node {stack : List String} {c : Computation} {below : List FieldTree} (fresh : c.name ∉ stack)
      (means : r.resolveAll c.requirements = .ok (below.map root))
      (each : ∀ t ∈ below, Unfolds r (stack ++ [c.name]) t) : Unfolds r stack (node c below)

theorem mem_fieldsOf {ts : List FieldTree} {d : Computation} : d ∈ fieldsOf ts ↔ ∃ t ∈ ts, d ∈ t.fields := by
  induction ts with
  | nil => simp [fieldsOf]
  | cons t rest ih => simp [fieldsOf, ih]

@[simp] theorem root_mem_fields (t : FieldTree) : t.root ∈ t.fields := by
  cases t with
  | node c below => simp [fields, root]

end FieldTree

/-! ## Requirements that are all there -/

namespace Registry
variable {r : Registry}

theorem resolveAll_nil : r.resolveAll [] = .ok [] :=
  rfl

theorem resolveAll_cons_eq_ok_iff {q : Requirement} {qs : List Requirement} {ds : List Computation} :
    r.resolveAll (q :: qs) = .ok ds ↔ ∃ c cs, r.resolve q = .ok c ∧ r.resolveAll qs = .ok cs ∧ ds = c :: cs :=
  Results.mapM_cons_eq_ok_iff

theorem mem_of_resolveAll {qs : List Requirement} {ds : List Computation} (h : r.resolveAll qs = .ok ds)
    (d : Computation) : d ∈ ds ↔ ∃ q ∈ qs, r.resolve q = .ok d := by
  induction qs generalizing ds with
  | nil =>
    cases h
    simp
  | cons q qs ih =>
    obtain ⟨c, cs, first, rest, rfl⟩ := resolveAll_cons_eq_ok_iff.1 h
    rw [List.mem_cons, ih rest]
    constructor
    · rintro (rfl | ⟨q', member, means⟩)
      · exact ⟨q, List.mem_cons_self .., first⟩
      · exact ⟨q', List.mem_cons_of_mem q member, means⟩
    · rintro ⟨q', member, means⟩
      rcases List.mem_cons.1 member with rfl | member
      · rw [first] at means
        cases means
        exact Or.inl rfl
      · exact Or.inr ⟨q', member, means⟩

theorem requires_iff {c : Computation} {ds : List Computation} (h : r.resolveAll c.requirements = .ok ds)
    (d : Computation) : r.Requires c d ↔ d ∈ ds :=
  (mem_of_resolveAll h d).symm

theorem Covers.of_reaches {c d : Computation} (h : r.Covers c) (reached : r.Reaches c d) : r.Covers d :=
  fun e further => h e (reached.trans further)

theorem Covers.get {c : Computation} (h : r.Covers c) : r.get c.name = .ok c :=
  h c .refl

/-- Fields that a registry has under one name are the same. -/
theorem eq_of_name_eq {c d : Computation} (hc : r.get c.name = .ok c) (hd : r.get d.name = .ok d)
    (same : c.name = d.name) : c = d := by
  rw [same, hd] at hc
  cases hc
  rfl

/-- A field that requires nothing reaches no other. -/
theorem eq_of_reaches_of_alone {c d : Computation} (alone : c.requirements = []) (reaches : r.Reaches c d) : d = c := by
  rcases Relation.ReflTransGen.cases_head reaches with same | ⟨_, ⟨q, required, _⟩, _⟩
  · exact same.symm
  · rw [alone] at required
    cases required

end Registry

/-! ## Trees of requirements -/

namespace FieldTree
variable {r : Registry}

theorem Unfolds.mono {stack less : List String} {t : FieldTree} (h : t.Unfolds r stack) (subset : less ⊆ stack) :
    t.Unfolds r less := by
  induction h generalizing less with
  | node fresh means _ ih =>
    refine .node (fun known => fresh (subset known)) means fun t member => ih t member ?_
    intro name known
    rcases List.mem_append.1 known with known | known
    · exact List.mem_append_left _ (subset known)
    · exact List.mem_append_right _ known

theorem Unfolds.name_fresh {stack : List String} {t : FieldTree} (h : t.Unfolds r stack) :
    ∀ d ∈ t.fields, d.name ∉ stack := by
  induction h with
  | @node stack c below fresh means _ ih =>
    intro d member
    rw [fields, List.mem_cons, mem_fieldsOf] at member
    rcases member with rfl | ⟨t, inside, member⟩
    · exact fresh
    · exact fun known => ih t inside d member (List.mem_append_left _ known)

private theorem eq_of_map_root {ts us : List FieldTree} (roots : ts.map root = us.map root)
    (each : ∀ t ∈ ts, ∀ u ∈ us, t.root = u.root → t = u) : ts = us := by
  induction ts generalizing us with
  | nil => simpa [eq_comm] using roots
  | cons t ts ih =>
    cases us with
    | nil => cases roots
    | cons u us =>
      rw [List.map_cons, List.map_cons, List.cons.injEq] at roots
      rw [each t (List.mem_cons_self ..) u (List.mem_cons_self ..) roots.1,
        ih roots.2 fun t ht u hu => each t (List.mem_cons_of_mem _ ht) u (List.mem_cons_of_mem _ hu)]

/-- The root determines the tree. -/
theorem Unfolds.eq_of_root_eq {stack other : List String} {t u : FieldTree} (ht : t.Unfolds r stack)
    (hu : u.Unfolds r other) (same : t.root = u.root) : t = u := by
  induction ht generalizing other u with
  | @node stack c below fresh means _ ih =>
    cases hu with
    | @node _ c' below' fresh' means' each' =>
      have roots : c = c' := same
      subst roots
      rw [means] at means'
      rw [eq_of_map_root (Except.ok.inj means') fun t ht u hu => ih t ht (each' u hu)]

/-- Nothing is below a field that requires nothing. -/
theorem Unfolds.eq_node_of_alone {stack : List String} {t : FieldTree} (h : t.Unfolds r stack)
    (alone : t.root.requirements = []) : t = .node t.root [] := by
  cases h with
  | @node _ c below fresh means each =>
    have none_ : c.requirements = [] := alone
    rw [none_, Registry.resolveAll_nil] at means
    rw [List.map_eq_nil_iff.1 (Except.ok.inj means).symm]
    rfl

theorem unfolds_of_alone {c : Computation} (alone : c.requirements = []) : (node c []).Unfolds r [] :=
  .node List.not_mem_nil (by rw [alone, Registry.resolveAll_nil, List.map_nil]) (by simp)

theorem requires_root_iff {stack : List String} {c : Computation} {below : List FieldTree}
    (h : (node c below).Unfolds r stack) (d : Computation) : r.Requires c d ↔ ∃ t ∈ below, t.root = d := by
  cases h with
  | node fresh means each => rw [Registry.requires_iff means, List.mem_map]

/-- The trees below a field of a tree are those of what the field requires. -/
theorem Unfolds.subtree {stack : List String} {t : FieldTree} (h : t.Unfolds r stack) {d : Computation}
    (member : d ∈ t.fields) : ∃ u : FieldTree, u.root = d ∧ u.Unfolds r stack ∧ sizeOf u ≤ sizeOf t := by
  induction h with
  | @node stack c below fresh means each ih =>
    rw [fields, List.mem_cons, mem_fieldsOf] at member
    rcases member with rfl | ⟨t, inside, member⟩
    · exact ⟨.node d below, rfl, .node fresh means each, Nat.le_refl _⟩
    · obtain ⟨u, rooted, unfolds, smaller⟩ := ih t inside member
      refine ⟨u, rooted, unfolds.mono (List.subset_append_left ..), ?_⟩
      have := List.sizeOf_lt_of_mem inside
      simp only [node.sizeOf_spec]
      omega

theorem Unfolds.reaches {stack : List String} {t : FieldTree} (h : t.Unfolds r stack) {d : Computation}
    (member : d ∈ t.fields) : r.Reaches t.root d := by
  induction h with
  | @node stack c below fresh means each ih =>
    rw [fields, List.mem_cons, mem_fieldsOf] at member
    rcases member with rfl | ⟨t, inside, member⟩
    · exact .refl
    · have first : r.Requires c t.root := (requires_root_iff (.node fresh means each) _).2 ⟨t, inside, rfl⟩
      exact (ih t inside member).head first

theorem Unfolds.closed {stack : List String} {t : FieldTree} (h : t.Unfolds r stack) {d e : Computation}
    (member : d ∈ t.fields) (required : r.Requires d e) : e ∈ t.fields := by
  induction h with
  | @node stack c below fresh means each ih =>
    rw [fields, List.mem_cons, mem_fieldsOf] at member ⊢
    rcases member with rfl | ⟨t, inside, member⟩
    · obtain ⟨t, inside, rfl⟩ := (requires_root_iff (.node fresh means each) e).1 required
      exact Or.inr ⟨t, inside, root_mem_fields t⟩
    · exact Or.inr ⟨t, inside, ih t inside member⟩

/-- The fields of the tree are those that its root reaches. -/
theorem Unfolds.mem_fields_iff {stack : List String} {t : FieldTree} (h : t.Unfolds r stack) {d : Computation} :
    d ∈ t.fields ↔ r.Reaches t.root d := by
  constructor
  · exact h.reaches
  · intro reached
    induction reached with
    | refl => exact root_mem_fields t
    | tail _ required ih => exact h.closed ih required

/-- The fields below the root are those that it requires, directly or not. -/
theorem Unfolds.mem_below_iff {stack : List String} {c : Computation} {below : List FieldTree}
    (h : (FieldTree.node c below).Unfolds r stack) {d : Computation} : d ∈ fieldsOf below ↔ r.Depends c d := by
  rw [mem_fieldsOf]
  cases h with
  | node fresh means each =>
    constructor
    · rintro ⟨t, inside, member⟩
      have first := (requires_root_iff (.node fresh means each) _).2 ⟨t, inside, rfl⟩
      exact Relation.TransGen.head'_iff.2 ⟨t.root, first, (each t inside).reaches member⟩
    · intro depends
      obtain ⟨first, required, reached⟩ := Relation.TransGen.head'_iff.1 depends
      obtain ⟨t, inside, rfl⟩ := (requires_root_iff (.node fresh means each) first).1 required
      exact ⟨t, inside, (each t inside).mem_fields_iff.2 reached⟩

private theorem sizeOf_lt_of_depends {c d : Computation} (h : r.Depends c d) {stack : List String} {t : FieldTree}
    (unfolds : t.Unfolds r stack) (rooted : t.root = c) :
    ∃ u : FieldTree, u.root = d ∧ u.Unfolds r stack ∧ sizeOf u < sizeOf t := by
  obtain ⟨first, required, reached⟩ := Relation.TransGen.head'_iff.1 h
  cases unfolds with
  | @node _ c' below fresh means each =>
    cases rooted
    obtain ⟨t, inside, rfl⟩ := (requires_root_iff (.node fresh means each) first).1 required
    obtain ⟨u, rooted, found, smaller⟩ := (each t inside).subtree ((each t inside).mem_fields_iff.2 reached)
    refine ⟨u, rooted, found.mono (List.subset_append_left ..), ?_⟩
    have := List.sizeOf_lt_of_mem inside
    simp only [node.sizeOf_spec]
    omega

/-- A field with a tree does not require itself. -/
theorem Unfolds.not_depends_root {stack : List String} {t : FieldTree} (h : t.Unfolds r stack) :
    ¬ r.Depends t.root t.root := by
  intro cycle
  obtain ⟨u, rooted, unfolds, smaller⟩ := sizeOf_lt_of_depends cycle h rfl
  rw [unfolds.eq_of_root_eq h rooted] at smaller
  exact Nat.lt_irrefl _ smaller

end FieldTree

/-! ## The walk through the requirements -/

namespace Registry
variable {r : Registry}

/-- The walk gives the fields of trees for the requirements. -/
theorem unfolds_of_dependenciesOf {stack : List String} {qs : List Requirement} {ds : List Computation}
    (h : r.dependenciesOf stack qs = .ok ds) :
    ∃ ts : List FieldTree, r.resolveAll qs = .ok (ts.map FieldTree.root) ∧ (∀ t ∈ ts, t.Unfolds r stack) ∧
      ds = FieldTree.fieldsOf ts := by
  fun_induction dependenciesOf r stack qs generalizing ds with
  | case1 stack =>
    cases h
    exact ⟨[], rfl, by simp, rfl⟩
  | case2 => cases h
  | case3 => cases h
  | case4 => cases h
  | case5 => cases h
  | case6 => cases h
  | case7 stack q rest c means fresh _ resolved below belowRun others othersRun belowIh othersIh =>
    cases h
    obtain ⟨us, usRoots, usUnfold, rfl⟩ := belowIh belowRun
    obtain ⟨ts, tsRoots, tsUnfold, rfl⟩ := othersIh othersRun
    refine ⟨.node c us :: ts, resolveAll_cons_eq_ok_iff.2 ⟨_, _, means, tsRoots, rfl⟩, ?_, rfl⟩
    intro t member
    rcases List.mem_cons.1 member with rfl | member
    · exact .node fresh usRoots usUnfold
    · exact tsUnfold t member

/-- A field whose requirements can be listed has a tree, which holds what is listed below its root. -/
theorem unfolds_of_dependencies {c : Computation} {ds : List Computation} (h : r.dependencies c = .ok ds) :
    ∃ t : FieldTree, t.root = c ∧ t.Unfolds r [] ∧ t.fields = c :: ds := by
  unfold dependencies at h
  split at h
  · cases h
  · obtain ⟨ts, roots, unfold, rfl⟩ := unfolds_of_dependenciesOf h
    exact ⟨.node c ts, rfl, .node (by simp) roots unfold, rfl⟩

theorem dependenciesOf_cons {stack : List String} {q : Requirement} {c : Computation} (means : r.resolve q = .ok c)
    (rest : List Requirement) : r.dependenciesOf stack (q :: rest) =
      if c.name ∈ stack then .error (dependencyCycle (stack ++ [c.name]))
      else
        match r.resolveAll c.requirements with
        | .error e => .error (.registry e)
        | .ok _ =>
          match r.dependenciesOf (stack ++ [c.name]) c.requirements with
          | .error e => .error e
          | .ok below =>
            match r.dependenciesOf stack rest with
            | .error e => .error e
            | .ok others => .ok (c :: below ++ others) := by
  rw [dependenciesOf]
  split
  · rename_i failed
    rw [means] at failed
    cases failed
  · rename_i d found
    rw [means] at found
    cases found
    exact dite_eq_ite ..

theorem dependenciesOf_of_unfolds (ts : List FieldTree) {stack : List String} {qs : List Requirement}
    (means : r.resolveAll qs = .ok (ts.map FieldTree.root)) (unfolds : ∀ t ∈ ts, t.Unfolds r stack) :
    r.dependenciesOf stack qs = .ok (FieldTree.fieldsOf ts) := by
  match ts, qs with
  | [], [] =>
    rw [dependenciesOf]
    rfl
  | [], q :: qs =>
    obtain ⟨_, _, _, _, impossible⟩ := resolveAll_cons_eq_ok_iff.1 means
    cases impossible
  | t :: ts, [] => cases means
  | .node c below :: ts, q :: qs =>
    obtain ⟨d, ds, first, rest, same⟩ := resolveAll_cons_eq_ok_iff.1 means
    obtain ⟨rfl, rfl⟩ : c = d ∧ ts.map FieldTree.root = ds := List.cons.inj same
    cases unfolds _ (List.mem_cons_self ..) with
    | node fresh belowMeans each =>
      have ran := dependenciesOf_of_unfolds below belowMeans each
      have others := dependenciesOf_of_unfolds ts rest fun t member => unfolds t (List.mem_cons_of_mem _ member)
      rw [dependenciesOf_cons first, if_neg fresh]
      simp only [belowMeans, ran, others, FieldTree.fieldsOf, FieldTree.fields]
termination_by sizeOf ts

/-- The requirements of a field can be listed when it has a tree. -/
theorem dependencies_of_unfolds {t : FieldTree} (h : t.Unfolds r []) : ∃ ds, r.dependencies t.root = .ok ds := by
  cases h with
  | @node _ c below fresh means each =>
    refine ⟨FieldTree.fieldsOf below, ?_⟩
    unfold dependencies
    simp only [FieldTree.root, means]
    exact dependenciesOf_of_unfolds below means each

/-- What is listed for a field is what it requires, directly or not. -/
theorem mem_dependencies_iff {c d : Computation} {ds : List Computation} (h : r.dependencies c = .ok ds) :
    d ∈ ds ↔ r.Depends c d := by
  obtain ⟨t, rooted, unfolds, listed⟩ := unfolds_of_dependencies h
  cases t with
  | node c' below =>
    cases rooted
    rw [FieldTree.fields, List.cons.injEq] at listed
    rw [← listed.2]
    exact unfolds.mem_below_iff

end Registry
end Reporting
