import Mathlib.Data.List.Chain
import Reporting.Proofs.Computation.Builtin
import Reporting.Proofs.Computation.Sharing

/-!
When the requirements of a field can be listed: a walk through them that fails has come to a name that is not there, or
to a name that is on the way already (`Registry.fails_of_dependencies`). Building instances goes the same way but for the
fields that are shared by then, and as these have no name of the way among their own requirements, it fails just where
the walk does (`Instance.newAlone_of_error`).
-/

namespace Reporting

namespace Registry

/-- The name is required by name, by the field or by something that it requires. -/
def Needs (r : Registry) (c : Computation) (name : String) : Prop :=
  ∃ d, r.Reaches c d ∧ .named name ∈ d.requirements

/-- The field, or something that it requires, requires a field of its own name, directly or not. -/
def Circular (r : Registry) (c : Computation) : Prop :=
  ∃ d e, r.Reaches c d ∧ r.Depends d e ∧ e.name = d.name

/-- The fields before the last one on a way from the first, each of which requires the next. -/
inductive Way (r : Registry) (c : Computation) : List Computation → Computation → Prop where
  | here : Way r c [] c
  | on {before : List Computation} {d e : Computation} (way : Way r c before d) (required : r.Requires d e) :
      Way r c (before ++ [d]) e

/-- Why requirements cannot be listed. -/
inductive Fails (r : Registry) (c : Computation) : ReportError → Prop where
  | absent {d : Computation} {name : String} {e : RegistryError} (reached : r.Reaches c d)
      (required : .named name ∈ d.requirements) (missing : r.get name = .error e) : Fails r c (.registry e)
  | back {before : List Computation} {last : Computation} (way : r.Way c before last)
      (again : last.name ∈ before.map Computation.name) :
      Fails r c (dependencyCycle ((before ++ [last]).map Computation.name))

variable {r : Registry} {c d e : Computation} {before : List Computation}

/-! ## Ways -/

theorem Way.reaches (way : r.Way c before d) : r.Reaches c d := by
  induction way with
  | here => exact .refl
  | on _ required ih => exact ih.tail required

theorem Way.head? (way : r.Way c before d) : (before ++ [d]).head? = some c := by
  induction way with
  | here => rfl
  | on _ _ ih => rw [List.head?_append, ih, Option.some_or]

theorem Way.isChain (way : r.Way c before d) : (before ++ [d]).IsChain r.Requires := by
  induction way with
  | here => exact .singleton c
  | on _ required ih =>
    refine ih.append (.singleton _) ?_
    intro x last y first
    obtain rfl : _ = x := by simpa using last
    obtain rfl : _ = y := by simpa using first
    exact required

/-- What comes before on a way requires what comes last. -/
theorem Way.of_mem (way : r.Way c before d) (member : e ∈ before) : r.Reaches c e ∧ r.Depends e d := by
  induction way with
  | here => cases member
  | @on before d last way required ih =>
    rcases List.mem_append.1 member with earlier | same
    · have found := ih earlier
      exact ⟨found.1, found.2.tail required⟩
    · rw [List.mem_singleton.1 same]
      exact ⟨way.reaches, .single required⟩

/-! ## Walks that fail -/

theorem named_of_resolve_error {q : Requirement} {cause : RegistryError} (failed : r.resolve q = .error cause) :
    ∃ name, q = .named name ∧ r.get name = .error cause := by
  cases q with
  | named name => exact ⟨name, rfl, failed⟩
  | direct given => cases failed

theorem fails_of_resolve_error (reached : r.Reaches c d) {q : Requirement} (required : q ∈ d.requirements)
    {cause : RegistryError} (failed : r.resolve q = .error cause) : r.Fails c (.registry cause) := by
  obtain ⟨name, rfl, missing⟩ := named_of_resolve_error failed
  exact .absent reached required missing

/-- The stack of a walk holds the names of a way to the field whose requirements are walked through. -/
theorem fails_of_dependenciesOf {stack : List String} {qs : List Requirement} {cause : ReportError}
    (failed : r.dependenciesOf stack qs = .error cause) (way : r.Way c before d)
    (named : stack = (before ++ [d]).map Computation.name) (own : ∀ q ∈ qs, q ∈ d.requirements) : r.Fails c cause := by
  fun_induction dependenciesOf r stack qs generalizing before d cause with
  | case1 => cases failed
  | case2 stack q rest cause' absent =>
    cases failed
    exact fails_of_resolve_error way.reaches (own q (List.mem_cons_self ..)) absent
  | case3 stack q rest e means known =>
    cases failed
    have shown : stack ++ [e.name] = ((before ++ [d]) ++ [e]).map Computation.name := by simp [named]
    rw [shown]
    rw [named] at known
    exact .back (way.on ⟨q, own q (List.mem_cons_self ..), means⟩) known
  | case4 stack q rest e means fresh cause' absent =>
    cases failed
    obtain ⟨q', member, absent⟩ := Results.exists_of_mapM_error absent
    exact fails_of_resolve_error (way.reaches.tail ⟨q, own q (List.mem_cons_self ..), means⟩) member absent
  | case5 stack q rest e means fresh _ resolved cause' belowFailed ih =>
    cases failed
    exact ih belowFailed (way.on ⟨q, own q (List.mem_cons_self ..), means⟩) (by simp [named])
      fun _ member => member
  | case6 stack q rest e means fresh _ resolved below belowRun cause' restFailed belowIh ih =>
    cases failed
    exact ih restFailed way named fun q' member => own q' (List.mem_cons_of_mem q member)
  | case7 => cases failed

theorem fails_of_dependencies {cause : ReportError} (failed : r.dependencies c = .error cause) : r.Fails c cause := by
  unfold dependencies at failed
  split at failed
  · rename_i cause' absent
    cases failed
    obtain ⟨q, member, absent⟩ := Results.exists_of_mapM_error absent
    exact fails_of_resolve_error .refl member absent
  · exact fails_of_dependenciesOf failed .here rfl fun _ member => member

/-! ## Fields whose requirements can be listed -/

theorem contains_iff {name : String} : r.contains name = true ↔ ∃ d, r.get name = .ok d := by
  unfold contains get
  cases found : r.fields.get? name <;> simp [Keyed.contains, found]

theorem contains_of_dependencies {ds : List Computation} (listed : r.dependencies c = .ok ds) {name : String}
    (needed : r.Needs c name) : r.contains name = true := by
  obtain ⟨t, rfl, unfolds, _⟩ := unfolds_of_dependencies listed
  obtain ⟨d, reached, required⟩ := needed
  obtain ⟨u, rfl, unfolds, _⟩ := unfolds.subtree (unfolds.mem_fields_iff.2 reached)
  cases unfolds with
  | node fresh means each =>
    obtain ⟨i, at_⟩ := List.getElem?_of_mem required
    obtain ⟨e, _, found⟩ := Results.getElem?_of_mapM means at_
    exact contains_iff.2 ⟨e, found⟩

theorem not_circular_of_dependencies {ds : List Computation} (listed : r.dependencies c = .ok ds) : ¬ r.Circular c := by
  rintro ⟨d, e, reached, depends, same⟩
  obtain ⟨t, rfl, unfolds, _⟩ := unfolds_of_dependencies listed
  obtain ⟨u, rfl, unfolds, _⟩ := unfolds.subtree (unfolds.mem_fields_iff.2 reached)
  cases u with
  | node d below =>
    obtain ⟨t, inside, member⟩ := FieldTree.mem_fieldsOf.1 (unfolds.mem_below_iff.2 depends)
    cases unfolds with
    | node fresh means each =>
      refine (each t inside).name_fresh e member ?_
      rw [same]
      simp [FieldTree.root]

/-- The requirements can be listed if all names are there, and none of them leads back. -/
theorem dependencies_eq_ok_iff :
    (∃ ds, r.dependencies c = .ok ds) ↔ (∀ name, r.Needs c name → r.contains name = true) ∧ ¬ r.Circular c := by
  constructor
  · rintro ⟨ds, listed⟩
    exact ⟨fun _ => contains_of_dependencies listed, not_circular_of_dependencies listed⟩
  · rintro ⟨there, straight⟩
    cases walked : r.dependencies c with
    | ok ds => exact ⟨ds, rfl⟩
    | error cause =>
      cases fails_of_dependencies walked with
      | absent reached required missing =>
        obtain ⟨e, found⟩ := contains_iff.1 (there _ ⟨_, reached, required⟩)
        rw [missing] at found
        cases found
      | back way again =>
        obtain ⟨d, member, same⟩ := List.mem_map.1 again
        have found := way.of_mem member
        exact absurd ⟨d, _, found.1, found.2, same.symm⟩ straight

/-- The fields that are listed have the names that are needed. -/
theorem mem_names_dependencies_iff (named : ∀ d, r.Reaches c d → ∀ q ∈ d.requirements, ∃ n, q = .named n)
    {ds : List Computation} (listed : r.dependencies c = .ok ds) (name : String) :
    name ∈ ds.map Computation.name ↔ r.Needs c name := by
  rw [List.mem_map]
  constructor
  · rintro ⟨e, member, rfl⟩
    obtain ⟨d, reached, q, required, means⟩ := Relation.TransGen.tail'_iff.1 ((mem_dependencies_iff listed).1 member)
    obtain ⟨n, rfl⟩ := named d reached q required
    have found : r.get n = .ok e := means
    rw [(name_of_get found).1]
    exact ⟨d, reached, required⟩
  · intro needed
    obtain ⟨e, found⟩ := contains_iff.1 (contains_of_dependencies listed needed)
    obtain ⟨d, reached, required⟩ := needed
    have depends : r.Depends c e := Relation.TransGen.tail' reached ⟨.named name, required, found⟩
    exact ⟨e, (mem_dependencies_iff listed).2 depends, (name_of_get found).1⟩

/-- What is required by name, directly or not, comes from the registry. -/
theorem covers_of_requires (named : ∀ d, r.Reaches c d → ∀ q ∈ d.requirements, ∃ n, q = .named n)
    (required : r.Requires c d) : r.Covers d := by
  intro e reached
  obtain ⟨before, reached, q, member, means⟩ := Relation.TransGen.tail'_iff.1 (Relation.TransGen.head' required reached)
  obtain ⟨n, rfl⟩ := named before reached q member
  have found : r.get n = .ok e := means
  rw [(name_of_get found).1]
  exact found

end Registry

/-! ## Building instances -/

namespace FieldTree
variable {r : Registry} {stack less : List String}

/-- A tree also unfolds below names that do not occur in it. -/
theorem Unfolds.within {t : FieldTree} (h : t.Unfolds r less) (off : ∀ d ∈ t.fields, d.name ∉ stack) :
    t.Unfolds r (stack ++ less) := by
  induction h with
  | @node less c below fresh means each ih =>
    refine .node ?_ means fun t inside => ?_
    · rw [List.mem_append, not_or]
      exact ⟨off c (root_mem_fields (.node c below)), fresh⟩
    · rw [List.append_assoc]
      refine ih t inside fun d member => off d ?_
      rw [fields, List.mem_cons, mem_fieldsOf]
      exact Or.inr ⟨t, inside, member⟩

end FieldTree

namespace Instance
variable {r : Registry} {sites : Sites} {w : Workspace} (context : Context)

theorem shareOr_eq_ok {new : Session Instance} (name : String) (w : Workspace) (made : ∃ i w', new w = (.ok i, w')) :
    ∃ i w', shareOr w name new w = (.ok i, w') := by
  unfold shareOr
  cases w.shared.get? name with
  | some i => exact ⟨i, w, rfl⟩
  | none =>
    obtain ⟨i, w', ran⟩ := made
    dsimp only
    rw [Session.bind_of_ok ran]
    exact ⟨i, _, rfl⟩

/-- Requirements that can be walked through have instances, whatever is shared. -/
theorem ofRequirements_of_dependenciesOf {stack : List String} {qs : List Requirement} {ds : List Computation}
    (walked : r.dependenciesOf stack qs = .ok ds) (w : Workspace) :
    ∃ is w', ofRequirements r context stack qs w = (.ok is, w') := by
  fun_induction Registry.dependenciesOf r stack qs generalizing ds w with
  | case1 stack =>
    rw [ofRequirements]
    exact ⟨[], w, rfl⟩
  | case2 => cases walked
  | case3 => cases walked
  | case4 => cases walked
  | case5 => cases walked
  | case6 => cases walked
  | case7 stack q rest c means fresh _ resolved below belowRun others othersRun belowIh othersIh =>
    obtain ⟨is, between, ranBelow⟩ := belowIh belowRun w
    obtain ⟨i, later, ran⟩ := shareOr_eq_ok c.name w
      ⟨_, _, (Session.bind_of_ok ranBelow (allocate context c)).trans rfl⟩
    obtain ⟨js, after, ranRest⟩ := othersIh othersRun later
    refine ⟨i :: js, after, ?_⟩
    rw [ofRequirements_cons means fresh resolved, Session.bind_of_ok (Session.run_get w), Session.bind_of_ok ran,
      Session.bind_of_ok ranRest]
    rfl

theorem new_of_dependencies {c : Computation} {ds : List Computation} (listed : r.dependencies c = .ok ds) (w : Workspace) :
    ∃ i w', new r context c w = (.ok i, w') := by
  unfold Registry.dependencies at listed
  split at listed
  · cases listed
  · rename_i means
    obtain ⟨is, between, ran⟩ := ofRequirements_of_dependenciesOf context listed w
    rw [new_eq context means, Session.bind_of_ok ran]
    exact ⟨_, _, rfl⟩

variable {context}

/-- With an instance, all that its field requires is shared. -/
theorem shared_of_mem_fields (shares : Shares r context sites w) {n : String} {i : Instance}
    (found : w.shared.get? n = some i) {d : Computation} (member : d ∈ i.tree.fields) :
    ∃ j, w.shared.get? d.name = some j ∧ j.computation = d := by
  have reached := (shares.unfolds found).reaches member
  rw [root_tree] at reached
  induction reached with
  | refl =>
    refine ⟨i, ?_, rfl⟩
    rw [show i.computation.name = n from (shares.registered found).1]
    exact found
  | tail reached required ih =>
    obtain ⟨j, foundJ, rfl⟩ := ih ((shares.unfolds found).mem_fields_iff.2 (by rw [root_tree]; exact reached))
    have unfolds := shares.unfolds foundJ
    rw [tree_eq] at unfolds
    obtain ⟨t, among, rfl⟩ := (FieldTree.requires_root_iff unfolds _).1 required
    obtain ⟨k, inside, rfl⟩ := List.mem_map.1 among
    rw [root_tree]
    exact ⟨k, shares.closed foundJ k inside, rfl⟩

/-- A field with a shared instance can be walked through, from wherever nothing of the stack is shared. -/
theorem unfolds_of_shared (shares : Shares r context sites w) {stack : List String}
    (unshared : ∀ n ∈ stack, w.shared.get? n = none) {c : Computation} (registered : r.get c.name = .ok c) {i : Instance}
    (found : w.shared.get? c.name = some i) : ∃ below, (FieldTree.node c below).Unfolds r stack := by
  have same : i.computation = c := by
    have field := (shares.registered found).2
    rw [registered] at field
    exact (Except.ok.inj field).symm
  have unfolds := (shares.unfolds found).within fun d member (known : d.name ∈ stack) => by
    obtain ⟨j, shared, _⟩ := shared_of_mem_fields shares found member
    rw [unshared _ known] at shared
    cases shared
  rw [List.append_nil, tree_eq, same] at unfolds
  exact ⟨_, unfolds⟩

theorem absent_of_not_unfolds (shares : Shares r context sites w) {stack : List String}
    (unshared : ∀ n ∈ stack, w.shared.get? n = none) {c : Computation} (registered : r.get c.name = .ok c)
    (stuck : ∀ below, ¬ (FieldTree.node c below).Unfolds r stack) : w.shared.get? c.name = none := by
  by_contra there
  obtain ⟨i, found⟩ := Option.ne_none_iff_exists'.1 there
  obtain ⟨below, unfolds⟩ := unfolds_of_shared shares unshared registered found
  exact stuck below unfolds

theorem shareOr_of_error {new : Session Instance} {name : String} {w w' : Workspace} {e : ReportError}
    (absent : w.shared.get? name = none) (failed : new w = (.error e, w')) : shareOr w name new w = (.error e, w') := by
  unfold shareOr
  rw [absent]
  exact Session.bind_of_error failed _

theorem ofRequirements_of_first_error {stack : List String} {q : Requirement} {rest : List Requirement} {c : Computation}
    (means : r.resolve q = .ok c) (absent : w.shared.get? c.name = none) {e : ReportError} {w' : Workspace}
    (failed : (if c.name ∈ stack then throw (dependencyCycle (stack ++ [c.name]))
      else
        match r.resolveAll c.requirements with
        | .error e => throw (.registry e)
        | .ok _ => do
          let below ← ofRequirements r context (stack ++ [c.name]) c.requirements
          allocate context c below : Session Instance) w = (.error e, w')) :
    ofRequirements r context stack (q :: rest) w = (.error e, w') := by
  rw [ofRequirements_of_resolve means, Session.bind_of_ok (Session.run_get w)]
  exact Session.bind_of_error (shareOr_of_error absent failed) _

/-- Requirements that cannot be walked through have no instances, and for the same reason. What is shared is no way
around a requirement that leads back, as no name of the stack is. -/
theorem ofRequirements_of_dependenciesOf_error {stack : List String} {qs : List Requirement} {e : ReportError}
    (failed : r.dependenciesOf stack qs = .error e) (covers : ∀ q ∈ qs, ∀ c, r.resolve q = .ok c → r.Covers c)
    (shares : Shares r context sites w) (unshared : ∀ n ∈ stack, w.shared.get? n = none) :
    ∃ w', ofRequirements r context stack qs w = (.error e, w') := by
  fun_induction Registry.dependenciesOf r stack qs generalizing e w sites with
  | case1 => cases failed
  | case2 stack q rest cause absent =>
    cases failed
    refine ⟨w, ?_⟩
    rw [ofRequirements_of_absent absent]
    rfl
  | case3 stack q rest c means known =>
    cases failed
    refine ⟨w, ofRequirements_of_first_error means (unshared _ known) ?_⟩
    rw [if_pos known]
    rfl
  | case4 stack q rest c means fresh cause absent =>
    cases failed
    have alone : w.shared.get? c.name = none := by
      refine absent_of_not_unfolds shares unshared (covers q (List.mem_cons_self ..) c means).get fun below unfolds => ?_
      cases unfolds with
      | node _ resolved _ =>
        rw [absent] at resolved
        cases resolved
    refine ⟨w, ofRequirements_of_first_error means alone ?_⟩
    rw [if_neg fresh, absent]
    rfl
  | case5 stack q rest c means fresh _ resolved cause belowFailed ih =>
    cases failed
    have alone : w.shared.get? c.name = none := by
      refine absent_of_not_unfolds shares unshared (covers q (List.mem_cons_self ..) c means).get fun below unfolds => ?_
      cases unfolds with
      | node _ means' each =>
        rw [Registry.dependenciesOf_of_unfolds below means' each] at belowFailed
        cases belowFailed
    have coversBelow : ∀ q' ∈ c.requirements, ∀ d, r.resolve q' = .ok d → r.Covers d :=
      fun q' member d means' => (covers q (List.mem_cons_self ..) c means).of_reaches (.single ⟨q', member, means'⟩)
    obtain ⟨w', ran⟩ := ih belowFailed coversBelow shares fun n known => by
      rcases List.mem_append.1 known with known | own
      · exact unshared n known
      · rw [List.mem_singleton.1 own, alone]
    refine ⟨w', ofRequirements_of_first_error means alone ?_⟩
    rw [if_neg fresh, resolved]
    exact Session.bind_of_error ran _
  | case6 stack q rest c means fresh _ resolved below belowRun cause restFailed belowIh ih =>
    cases failed
    obtain ⟨us, roots, each, rfl⟩ := Registry.unfolds_of_dependenciesOf belowRun
    have unfolds : (FieldTree.node c us).Unfolds r stack := .node fresh roots each
    have coversFirst := covers q (List.mem_cons_self ..) c means
    have registered : ∀ d ∈ (FieldTree.node c us).fields, r.get d.name = .ok d :=
      fun d member => coversFirst d (unfolds.reaches member)
    have belowBuilt := ofRequirements_built us roots each (fun d member => registered d (List.mem_cons_of_mem c member)) shares
    obtain ⟨i, between, sitesBetween, ran, built⟩ := shareOr_built unfolds coversFirst.get shares rfl belowBuilt
    -- What was added has names of the tree, and none of them is on the stack.
    have unsharedBetween : ∀ n ∈ stack, between.shared.get? n = none := by
      intro n known
      by_contra there
      obtain ⟨j, found⟩ := Option.ne_none_iff_exists'.1 there
      rcases built.grows.added found with old | ⟨member, rfl, _⟩
      · rw [unshared n known] at old
        cases old
      · rw [FieldTree.fieldsOf, FieldTree.fieldsOf, List.append_nil] at member
        exact unfolds.name_fresh _ member known
    obtain ⟨w', ranRest⟩ := ih restFailed (fun q' member => covers q' (List.mem_cons_of_mem q member)) built.shares
      unsharedBetween
    refine ⟨w', ?_⟩
    rw [ofRequirements_cons means fresh resolved, Session.bind_of_ok (Session.run_get w), Session.bind_of_ok ran]
    exact Session.bind_of_error ranRest _
  | case7 => cases failed

/-- Before anything is shared. -/
theorem shares_empty (r : Registry) (context : Context) (w : Workspace) :
    Shares r context (fun _ => none) { w with shared := Keyed.empty } where
  registered found := by simp at found
  unfolds found := by simp at found
  placed found := by simp at found
  closed found := by simp at found
  fresh _ _ := rfl

/-- A new instance that shares nothing is made just where the requirements can be listed. -/
theorem newAlone_of_error {c : Computation} {e : ReportError} (failed : r.dependencies c = .error e)
    (covers : ∀ d, r.Requires c d → r.Covers d) (context : Context) (w : Workspace) :
    (newAlone r context c w).1 = .error e := by
  unfold newAlone new
  unfold Registry.dependencies at failed
  split at failed
  · rename_i cause absent
    cases failed
    rw [absent]
    rfl
  · rename_i resolved
    obtain ⟨w', ran⟩ := ofRequirements_of_dependenciesOf_error failed
      (fun q member d means => covers d ⟨q, member, means⟩) (shares_empty r context w) fun _ _ => rfl
    rw [resolved]
    dsimp only
    rw [Session.bind_of_error ran]

theorem newAlone_of_ok {c : Computation} {ds : List Computation} (listed : r.dependencies c = .ok ds) (context : Context)
    (w : Workspace) : ∃ i, (newAlone r context c w).1 = .ok i := by
  obtain ⟨i, w', made⟩ := new_of_dependencies context listed { w with shared := Keyed.empty }
  refine ⟨i, ?_⟩
  unfold newAlone
  rw [made]

end Instance

/-- Where all requirements are by name, they can be listed just if the names are there and none leads back, and then
those listed are those needed. Where one leads back, the failure tells the way, from the field to a name that was on it
before. A new instance is made in the same cases, and fails for the same reason, though it does not go through what is
shared again. -/
theorem Registry.dependencies_exact (r : Registry) (c : Computation)
    (named : ∀ d, r.Reaches c d → ∀ q ∈ d.requirements, ∃ n, q = .named n) (context : Context) (w : Workspace) :
    ((∃ ds, r.dependencies c = .ok ds) ↔ (∀ name, r.Needs c name → r.contains name = true) ∧ ¬ r.Circular c) ∧
    (∀ ds, r.dependencies c = .ok ds → ∀ name, name ∈ ds.map Computation.name ↔ r.Needs c name) ∧
    (∀ names, r.dependencies c = .error (dependencyCycle names) → ∃ before last,
      names = (before ++ [last]).map Computation.name ∧ (before ++ [last]).head? = some c ∧
      (before ++ [last]).IsChain r.Requires ∧ last.name ∈ before.map Computation.name) ∧
    ((∃ i, (Instance.newAlone r context c w).1 = .ok i) ↔ ∃ ds, r.dependencies c = .ok ds) ∧
    ∀ e, (Instance.newAlone r context c w).1 = .error e ↔ r.dependencies c = .error e := by
  have covers : ∀ d, r.Requires c d → r.Covers d := fun _ => covers_of_requires named
  refine ⟨dependencies_eq_ok_iff, fun ds => mem_names_dependencies_iff named, ?_, ?_⟩
  · intro names failed
    have fails := fails_of_dependencies failed
    generalize told : dependencyCycle names = cause at fails
    cases fails with
    | absent => cases told
    | @back before last way again =>
      cases told
      exact ⟨before, last, rfl, way.head?, way.isChain, again⟩
  · cases listed : r.dependencies c with
    | ok ds =>
      obtain ⟨i, made⟩ := Instance.newAlone_of_ok listed context w
      simp [made]
    | error cause =>
      have failed := Instance.newAlone_of_error listed covers context w
      simp [failed]

namespace Stages

def first : Computation :=
  { Computation.new "first" with requirements := [.named "second", .named "third"] }

def second : Computation :=
  { Computation.new "second" with requirements := [.named "third"] }

def third : Computation :=
  Computation.new "third"

/-- The third field, if it required the second one. -/
def back : Computation :=
  { third with requirements := [.named "second"] }

/-- The registry of the fields, with one for the last. -/
def registry (last : Computation) : Registry :=
  [first, second, last].foldl Registry.put .empty

def context : Context :=
  ⟨"sale", [], none, none, [], .none, none, none⟩

theorem named {last d : Computation} (lasts : ∀ q ∈ last.requirements, ∃ n, q = .named n)
    (reached : (registry last).Reaches first d) : ∀ q ∈ d.requirements, ∃ n, q = .named n := by
  have each : ∀ e ∈ [first, second, last], ∀ q ∈ e.requirements, ∃ n, q = .named n := by
    intro e member q required
    simp only [List.mem_cons, List.not_mem_nil, or_false] at member
    rcases member with rfl | rfl | rfl
    · simp only [first, List.mem_cons, List.not_mem_nil, or_false] at required
      rcases required with rfl | rfl <;> exact ⟨_, rfl⟩
    · exact ⟨"third", List.mem_singleton.1 required⟩
    · exact lasts q required
  refine each d ?_
  induction reached with
  | refl => exact List.mem_cons_self ..
  | tail _ required ih =>
    obtain ⟨q, member, means⟩ := required
    obtain ⟨n, rfl⟩ := each _ ih q member
    rcases Registry.mem_of_get_put means with listed | absent
    · exact listed
    · cases absent

/-- The third field is shared, and walked through twice. -/
theorem straight_dependencies : ∃ ds, (registry third).dependencies first = .ok ds := by
  have thirds : ∀ {stack : List String}, "third" ∉ stack → (FieldTree.node third []).Unfolds (registry third) stack :=
    fun fresh => .node fresh rfl nofun
  have seconds : (FieldTree.node second [.node third []]).Unfolds (registry third) ["first"] :=
    .node (by decide) rfl (List.forall_mem_singleton.2 (thirds (by decide)))
  have firsts : (FieldTree.node first [.node second [.node third []], .node third []]).Unfolds (registry third) [] :=
    .node (by decide) rfl (List.forall_mem_cons.2 ⟨seconds, List.forall_mem_singleton.2 (thirds (by decide))⟩)
  exact Registry.dependencies_of_unfolds firsts

theorem round_dependencies :
    (registry back).dependencies first = .error (dependencyCycle ["first", "second", "third", "second"]) := by
  have seconds : (registry back).resolveAll first.requirements = .ok [second, back] := rfl
  have thirds : (registry back).resolveAll second.requirements = .ok [back] := rfl
  have again : (registry back).resolveAll back.requirements = .ok [second] := rfl
  have deepest : (registry back).dependenciesOf ([first.name] ++ [second.name] ++ [back.name]) back.requirements =
      .error (dependencyCycle ["first", "second", "third", "second"]) := by
    refine (Registry.dependenciesOf_cons (show (registry back).resolve (.named "second") = .ok second from rfl) []).trans ?_
    rw [if_pos (by decide)]
    rfl
  have deeper : (registry back).dependenciesOf ([first.name] ++ [second.name]) second.requirements =
      .error (dependencyCycle ["first", "second", "third", "second"]) := by
    refine (Registry.dependenciesOf_cons (show (registry back).resolve (.named "third") = .ok back from rfl) []).trans ?_
    rw [if_neg (by decide), again]
    dsimp only
    rw [deepest]
  unfold Registry.dependencies
  rw [seconds]
  refine (Registry.dependenciesOf_cons (show (registry back).resolve (.named "second") = .ok second from rfl) _).trans ?_
  rw [if_neg (by decide), thirds]
  dsimp only
  rw [deeper]

/-- The first field can be built, but not where the last one requires the second. -/
theorem built_or_refused :
    (∃ i, (Instance.newAlone (registry third) context first .empty).1 = .ok i) ∧
      (Instance.newAlone (registry back) context first .empty).1 =
        .error (dependencyCycle ["first", "second", "third", "second"]) := by
  constructor
  · have exact_ := Registry.dependencies_exact (registry third) first (fun _ => named nofun) context .empty
    exact exact_.2.2.2.1.2 straight_dependencies
  · have lasts : ∀ q ∈ back.requirements, ∃ n, q = .named n := List.forall_mem_singleton.2 ⟨_, rfl⟩
    have exact_ := Registry.dependencies_exact (registry back) first (fun _ => named lasts) context .empty
    exact (exact_.2.2.2.2 _).2 round_dependencies

end Stages
end Reporting
