import Reporting.Computation.Instance
import Reporting.Proofs.Computation.Asking
import Reporting.Proofs.Computation.Requirements

/-!
Sharing of instances. Within a context there is one instance for each name, its tree of requirements is that
of the field which the registry has under the name, and each of its requirements is shared in turn
(`Shares`). Building more instances keeps this, adds what was missing, and asks nothing
(`ofRequirements_built`).
-/

namespace Reporting

namespace Instance

mutual

/-- The field of an instance over the fields that it requires. -/
def tree : Instance → FieldTree
  | ⟨_, c, _, dependencies⟩ => .node c (trees dependencies)

def trees : List Instance → List FieldTree
  | [] => []
  | i :: rest => i.tree :: trees rest

end

theorem trees_eq_map (is : List Instance) : trees is = is.map tree := by
  induction is with
  | nil => rfl
  | cons i rest ih => rw [trees, ih, List.map_cons]

theorem tree_eq (i : Instance) : i.tree = .node i.computation (i.dependencies.map tree) := by
  cases i with
  | mk slot c context dependencies => rw [tree, trees_eq_map]

@[simp] theorem root_tree (i : Instance) : i.tree.root = i.computation := by
  rw [tree_eq, FieldTree.root]

end Instance

/-- What the places of a workspace are for: the context and the field whose aggregates go there. -/
abbrev Sites := Nat → Option (Context × Computation)

/-- The instance and all that it requires are of the context, and have places of their own. -/
inductive Instance.Placed (sites : Sites) (context : Context) : Instance → Prop
  | mk {slot : Nat} {c : Computation} {dependencies : List Instance} (site : sites slot = some (context, c))
      (each : ∀ d ∈ dependencies, d.Placed sites context) : Placed sites context ⟨slot, c, context, dependencies⟩

theorem Instance.Placed.mono {sites later : Sites} {context : Context} {i : Instance} (h : i.Placed sites context)
    (kept : ∀ k place, sites k = some place → later k = some place) : i.Placed later context := by
  induction h with
  | mk site _ ih => exact .mk (kept _ _ site) ih

theorem Instance.Placed.site {sites : Sites} {context : Context} {i : Instance} (h : i.Placed sites context) :
    sites i.slot = some (context, i.computation) := by
  cases h with
  | mk site _ => exact site

theorem Instance.Placed.context_eq {sites : Sites} {context : Context} {i : Instance}
    (h : i.Placed sites context) : i.context = context := by
  cases h with
  | mk => rfl

/-- The instances of a context by name. -/
structure Sharing (r : Registry) (context : Context) (sites : Sites) (shared : Keyed Instance) : Prop where
  registered : ∀ {n i}, shared.get? n = some i → i.name = n ∧ r.get n = .ok i.computation
  unfolds : ∀ {n i}, shared.get? n = some i → i.tree.Unfolds r []
  placed : ∀ {n i}, shared.get? n = some i → i.Placed sites context
  closed : ∀ {n i}, shared.get? n = some i → ∀ d ∈ i.dependencies, shared.get? d.name = some d

/-- The shared instances of the workspace are those of the context, and only places in use are for
anything. -/
structure Shares (r : Registry) (context : Context) (sites : Sites) (w : Workspace) : Prop
    extends Sharing r context sites w.shared where
  fresh : ∀ k, w.held.size ≤ k → sites k = none

/-- Instances of the fields were added, without aggregates and without asking. -/
structure Grows (w : Workspace) (sites : Sites) (w' : Workspace) (sites' : Sites) (fields : List Computation) :
    Prop where
  queries : w'.queries = w.queries
  held : ∃ n, w'.held = w.held ++ Array.replicate n none
  sites : ∀ k < w.held.size, sites' k = sites k
  kept : ∀ {n i}, w.shared.get? n = some i → w'.shared.get? n = some i
  added : ∀ {n i}, w'.shared.get? n = some i →
    w.shared.get? n = some i ∨ i.computation ∈ fields ∧ i.name = n ∧ w.held.size ≤ i.slot

namespace Grows
variable {w w' w'' : Workspace} {sites sites' sites'' : Sites} {fields more : List Computation}

theorem refl (w : Workspace) (sites : Sites) (fields : List Computation) : Grows w sites w sites fields where
  queries := rfl
  held := ⟨0, by simp⟩
  sites _ _ := rfl
  kept h := h
  added h := Or.inl h

theorem size_le (h : Grows w sites w' sites' fields) : w.held.size ≤ w'.held.size := by
  obtain ⟨n, held⟩ := h.held
  simp [held]

theorem trans (first : Grows w sites w' sites' fields) (second : Grows w' sites' w'' sites'' more) :
    Grows w sites w'' sites'' (fields ++ more) where
  queries := second.queries.trans first.queries
  held := by
    obtain ⟨n, held⟩ := first.held
    obtain ⟨m, held'⟩ := second.held
    exact ⟨n + m, by rw [held', held, Array.append_assoc, Array.replicate_append_replicate]⟩
  sites k below := by
    have := first.size_le
    rw [second.sites k (by omega), first.sites k below]
  kept h := second.kept (first.kept h)
  added {n i} h := by
    have grown := first.size_le
    rcases second.added h with h | ⟨member, named, place⟩
    · rcases first.added h with h | ⟨member, named, place⟩
      · exact Or.inl h
      · exact Or.inr ⟨List.mem_append_left _ member, named, place⟩
    · exact Or.inr ⟨List.mem_append_right _ member, named, by omega⟩

/-- The aggregates at hand are those that were there. -/
theorem held_eq (h : Grows w sites w' sites' fields) (k : Nat) : w'.held[k]?.join = w.held[k]?.join := by
  obtain ⟨n, held⟩ := h.held
  rw [held, Array.getElem?_append]
  split
  · rfl
  · rename_i outside
    have nothing : w.held[k]? = none := Array.getElem?_eq_none (by omega)
    rw [nothing, Array.getElem?_replicate]
    split <;> rfl

end Grows

/-- Instances with the trees, shared by name. -/
structure Built (r : Registry) (context : Context) (w : Workspace) (sites : Sites) (ts : List FieldTree)
    (is : List Instance) (w' : Workspace) (sites' : Sites) : Prop where
  trees : is.map Instance.tree = ts
  shares : Shares r context sites' w'
  grows : Grows w sites w' sites' (FieldTree.fieldsOf ts)
  shared : ∀ i ∈ is, w'.shared.get? i.name = some i

namespace Instance
variable {r : Registry} {context : Context} {w w' : Workspace} {sites sites' : Sites}

/-- A new place at the end, for the field. -/
def placeNew (sites : Sites) (w : Workspace) (context : Context) (c : Computation) : Sites :=
  fun k => if k = w.held.size then some (context, c) else sites k

/-- A new instance over shared ones is placed, and can be shared where nothing of its name is. -/
theorem sharing_insert {c : Computation} {is : List Instance} {stack : List String}
    (shares : Shares r context sites w) (registered : r.get c.name = .ok c)
    (unfolds : (FieldTree.node c (is.map tree)).Unfolds r stack) (shared : ∀ i ∈ is, w.shared.get? i.name = some i)
    (absent : w.shared.get? c.name = none) :
    Sharing r context (placeNew sites w context c)
      (w.shared.insert c.name ⟨w.held.size, c, context, is⟩) := by
  have kept : ∀ k place, sites k = some place → placeNew sites w context c k = some place := by
    intro k place site
    rcases Nat.lt_or_ge k w.held.size with inside | outside
    · rw [placeNew, if_neg (by omega), site]
    · rw [shares.fresh k outside] at site
      cases site
  constructor
  · intro n i found
    rcases Keyed.get?_insert_cases found with ⟨rfl, rfl⟩ | found
    · exact ⟨rfl, registered⟩
    · exact shares.registered found
  · intro n i found
    rcases Keyed.get?_insert_cases found with ⟨rfl, rfl⟩ | found
    · rw [tree_eq]
      exact unfolds.mono (List.nil_subset _)
    · exact shares.unfolds found
  · intro n i found
    rcases Keyed.get?_insert_cases found with ⟨rfl, rfl⟩ | found
    · refine .mk (by simp [placeNew]) fun d member => ?_
      exact (shares.placed (shared d member)).mono kept
    · exact (shares.placed found).mono kept
  · intro n i found d member
    rcases Keyed.get?_insert_cases found with ⟨rfl, rfl⟩ | found
    · exact Keyed.get?_insert_of_absent absent (shared d member) _
    · exact Keyed.get?_insert_of_absent absent (shares.closed found d member) _

/-- Sharing a new instance keeps the others. -/
theorem grows_insert {c : Computation} (sites : Sites) (context : Context) (is : List Instance)
    (absent : w.shared.get? c.name = none) :
    Grows w sites
      { w with held := w.held.push none, shared := w.shared.insert c.name ⟨w.held.size, c, context, is⟩ }
      (placeNew sites w context c) [c] := by
  constructor
  · rfl
  · exact ⟨1, rfl⟩
  · intro k inside
    rw [placeNew, if_neg (by omega)]
  · intro n i found
    exact Keyed.get?_insert_of_absent absent found _
  · intro n i found
    rcases Keyed.get?_insert_cases found with ⟨rfl, rfl⟩ | found
    · exact Or.inr ⟨List.mem_singleton_self _, rfl, Nat.le_refl _⟩
    · exact Or.inl found

theorem allocate_run (context : Context) (c : Computation) (is : List Instance) (w : Workspace) :
    allocate context c is w = (.ok ⟨w.held.size, c, context, is⟩, { w with held := w.held.push none }) :=
  rfl

/-- What was built for the requirements of a field is not of the field's name. -/
theorem absent_after {stack : List String} {c : Computation} {below : List FieldTree} {is : List Instance}
    (unfolds : (FieldTree.node c below).Unfolds r stack) (built : Built r context w sites below is w' sites')
    (absent : w.shared.get? c.name = none) : w'.shared.get? c.name = none := by
  cases later : w'.shared.get? c.name with
  | none => rfl
  | some j =>
    rcases built.grows.added later with old | ⟨member, named, _⟩
    · rw [absent] at old
      cases old
    · cases unfolds with
      | node fresh means each =>
        obtain ⟨t, inside, member⟩ := FieldTree.mem_fieldsOf.1 member
        have unknown := (each t inside).name_fresh _ member
        rw [show j.computation.name = c.name from named] at unknown
        exact absurd (by simp) unknown

/-- The new instance of a field over the instances of what it requires. -/
theorem built_insert {stack : List String} {c : Computation} {below : List FieldTree} {is : List Instance}
    (unfolds : (FieldTree.node c below).Unfolds r stack) (registered : r.get c.name = .ok c)
    (built : Built r context w sites below is w' sites') (absent : w'.shared.get? c.name = none) :
    Built r context w sites [.node c below] [⟨w'.held.size, c, context, is⟩]
      { w' with held := w'.held.push none, shared := w'.shared.insert c.name ⟨w'.held.size, c, context, is⟩ }
      (placeNew sites' w' context c) := by
  have grown := built.grows.trans (grows_insert sites' context is absent)
  refine ⟨?_, ⟨?_, ?_⟩, ⟨grown.queries, grown.held, grown.sites, grown.kept, ?_⟩, ?_⟩
  · rw [List.map_singleton, tree_eq, built.trees]
  · rw [← built.trees] at unfolds
    exact sharing_insert built.shares registered unfolds built.shared absent
  · intro k outside
    simp only [Array.size_push] at outside
    rw [placeNew, if_neg (by omega), built.shares.fresh k (by omega)]
  · intro n i found
    rcases grown.added found with old | ⟨member, rest⟩
    · exact Or.inl old
    · refine Or.inr ⟨?_, rest⟩
      simp only [FieldTree.fieldsOf, FieldTree.fields, List.append_nil, List.mem_cons]
      rcases List.mem_append.1 member with member | member
      · exact Or.inr member
      · exact Or.inl (List.mem_singleton.1 member)
  · intro j member
    rw [List.mem_singleton.1 member]
    exact Keyed.get?_insert_self ..

/-- The instance of a field, shared or made of new instances of what it requires. -/
theorem shareOr_built {stack : List String} {c : Computation} {below : List FieldTree} {new : Session Instance}
    (unfolds : (FieldTree.node c below).Unfolds r stack) (registered : r.get c.name = .ok c)
    (shares : Shares r context sites w)
    (makes : new w = (ofRequirements r context (stack ++ [c.name]) c.requirements >>= allocate context c) w)
    (belowBuilt : ∃ is w' sites', ofRequirements r context (stack ++ [c.name]) c.requirements w = (.ok is, w') ∧
      Built r context w sites below is w' sites') :
    ∃ i w' sites', shareOr w c.name new w = (.ok i, w') ∧ Built r context w sites [.node c below] [i] w' sites' := by
  cases found : w.shared.get? c.name with
  | some i =>
    obtain ⟨named, sameField⟩ := shares.registered found
    rw [registered] at sameField
    -- An instance of the name was built of the registered field, which unfolds to one tree only.
    have tree : i.tree = .node c below := by
      refine (shares.unfolds found).eq_of_root_eq unfolds ?_
      rw [root_tree]
      exact (Except.ok.inj sameField).symm
    refine ⟨i, w, sites, by simp [shareOr, found], ?_, shares, .refl .., ?_⟩
    · rw [List.map_singleton, tree]
    · intro j member
      rw [List.mem_singleton.1 member, named, found]
  | none =>
    obtain ⟨is, w', sites', ran, built⟩ := belowBuilt
    have made : new w = (.ok ⟨w'.held.size, c, context, is⟩, { w' with held := w'.held.push none }) := by
      rw [makes, Session.bind_of_ok ran, allocate_run]
    refine ⟨_, _, _, ?_, built_insert unfolds registered built (absent_after unfolds built found)⟩
    simp only [shareOr, found]
    rw [Session.bind_of_ok made]
    rfl

theorem ofRequirements_of_absent {stack : List String} {q : Requirement} {rest : List Requirement} {e : RegistryError}
    (absent : r.resolve q = .error e) : ofRequirements r context stack (q :: rest) = throw (.registry e) := by
  rw [ofRequirements]
  split
  · rename_i failed
    rw [absent] at failed
    cases failed
    rfl
  · rename_i found
    rw [absent] at found
    cases found

theorem ofRequirements_of_resolve {stack : List String} {q : Requirement} {rest : List Requirement} {c : Computation}
    (means : r.resolve q = .ok c) : ofRequirements r context stack (q :: rest) = do
      let w ← get
      let first ← shareOr w c.name (
        if c.name ∈ stack then throw (dependencyCycle (stack ++ [c.name]))
        else
          match r.resolveAll c.requirements with
          | .error e => throw (.registry e)
          | .ok _ => do
            let below ← ofRequirements r context (stack ++ [c.name]) c.requirements
            allocate context c below)
      let others ← ofRequirements r context stack rest
      return first :: others := by
  rw [ofRequirements]
  split
  · rename_i failed
    rw [means] at failed
    cases failed
  · rename_i d found
    rw [means] at found
    cases found
    rfl

theorem ofRequirements_cons {stack : List String} {q : Requirement} {rest : List Requirement} {c : Computation}
    {ds : List Computation} (means : r.resolve q = .ok c) (fresh : c.name ∉ stack)
    (belowMeans : r.resolveAll c.requirements = .ok ds) :
    ofRequirements r context stack (q :: rest) = do
      let w ← get
      let first ← shareOr w c.name (do
        let below ← ofRequirements r context (stack ++ [c.name]) c.requirements
        allocate context c below)
      let others ← ofRequirements r context stack rest
      return first :: others := by
  rw [ofRequirements_of_resolve means, if_neg fresh, belowMeans]

/-- The instances of requirements that unfold to trees can be built, and have these trees. -/
theorem ofRequirements_built (ts : List FieldTree) {stack : List String} {qs : List Requirement}
    {w : Workspace} {sites : Sites} (means : r.resolveAll qs = .ok (ts.map FieldTree.root)) (unfolds : ∀ t ∈ ts, t.Unfolds r stack)
    (covers : ∀ d ∈ FieldTree.fieldsOf ts, r.get d.name = .ok d) (shares : Shares r context sites w) :
    ∃ is w' sites', ofRequirements r context stack qs w = (.ok is, w') ∧ Built r context w sites ts is w' sites' := by
  -- The recursion is on the trees: requirements alone have no end where a field requires itself.
  match ts, qs with
  | [], [] =>
    rw [ofRequirements]
    exact ⟨[], w, sites, rfl, rfl, shares, .refl .., by simp⟩
  | [], q :: qs =>
    obtain ⟨_, _, _, _, impossible⟩ := Registry.resolveAll_cons_eq_ok_iff.1 means
    cases impossible
  | t :: ts, [] => cases means
  | .node c below :: ts, q :: qs =>
    obtain ⟨d, ds, first, rest, same⟩ := Registry.resolveAll_cons_eq_ok_iff.1 means
    obtain ⟨rfl, rfl⟩ : c = d ∧ ts.map FieldTree.root = ds := List.cons.inj same
    have unfoldsHead := unfolds _ (List.mem_cons_self ..)
    have coversHead : ∀ e ∈ (FieldTree.node c below).fields, r.get e.name = .ok e :=
      fun e member => covers e (List.mem_append_left _ member)
    have coversRest : ∀ e ∈ FieldTree.fieldsOf ts, r.get e.name = .ok e :=
      fun e member => covers e (List.mem_append_right _ member)
    cases unfoldsHead with
    | node fresh belowMeans each =>
      have belowBuilt := ofRequirements_built below belowMeans each
        (fun e member => coversHead e (List.mem_cons_of_mem _ member)) shares
      obtain ⟨i, between, sitesBetween, ran, built⟩ := shareOr_built (.node fresh belowMeans each)
        (coversHead c (List.mem_cons_self ..)) shares rfl belowBuilt
      obtain ⟨is, w', sites', ranRest, builtRest⟩ := ofRequirements_built ts rest
        (fun t member => unfolds t (List.mem_cons_of_mem _ member)) coversRest built.shares
      refine ⟨i :: is, w', sites', ?_, ?_, builtRest.shares, ?_, ?_⟩
      · rw [ofRequirements_cons first fresh belowMeans, Session.bind_of_ok (Session.run_get w),
          Session.bind_of_ok ran, Session.bind_of_ok ranRest]
        rfl
      · rw [List.map_cons, builtRest.trees]
        exact congrArg (· ++ ts) built.trees
      · have grown := built.grows.trans builtRest.grows
        simpa [FieldTree.fieldsOf] using grown
      · intro j member
        rcases List.mem_cons.1 member with rfl | member
        · exact builtRest.grows.kept (built.shared j (List.mem_singleton_self _))
        · exact builtRest.shared j member
termination_by sizeOf ts

theorem new_eq (context : Context) {c : Computation} {ds : List Computation} (means : r.resolveAll c.requirements = .ok ds) :
    new r context c = ofRequirements r context [c.name] c.requirements >>= allocate context c := by
  unfold new
  rw [means]

/-- The instances of what a field requires can be built. -/
theorem ofRequirements_built_below {t : FieldTree} (unfolds : t.Unfolds r []) (covers : r.Covers t.root)
    (shares : Shares r context sites w) :
    ∃ below, t = .node t.root below ∧ r.resolveAll t.root.requirements = .ok (below.map FieldTree.root) ∧
      ∃ is w' sites', ofRequirements r context [t.root.name] t.root.requirements w = (.ok is, w') ∧
        Built r context w sites below is w' sites' := by
  have registered : ∀ d ∈ t.fields, r.get d.name = .ok d := fun d member => covers d (unfolds.reaches member)
  cases unfolds with
  | @node _ c below fresh means each =>
    refine ⟨below, rfl, means, ?_⟩
    exact ofRequirements_built below means each (fun d member => registered d (List.mem_cons_of_mem c member)) shares

/-- A new instance of a field can be built, and shared where nothing of its name is. -/
theorem new_built {t : FieldTree} (unfolds : t.Unfolds r []) (covers : r.Covers t.root)
    (shares : Shares r context sites w) (absent : w.shared.get? t.root.name = none) :
    ∃ i w' sites', new r context t.root w = (.ok i, w') ∧
      Built r context w sites [t] [i] { w' with shared := w'.shared.insert t.root.name i } sites' := by
  obtain ⟨below, shape, means, is, w', sites', ran, built⟩ := ofRequirements_built_below unfolds covers shares
  rw [shape] at unfolds
  have made : new r context t.root w = (.ok ⟨w'.held.size, t.root, context, is⟩, { w' with held := w'.held.push none }) := by
    rw [new_eq context means, Session.bind_of_ok ran, allocate_run]
  have inserted := built_insert unfolds covers.get built (absent_after unfolds built absent)
  rw [← shape] at inserted
  exact ⟨_, _, _, made, inserted⟩

/-- The instance of a field, shared or new. -/
theorem shareOr_new_built {t : FieldTree} (unfolds : t.Unfolds r []) (covers : r.Covers t.root)
    (shares : Shares r context sites w) :
    ∃ i w' sites', shareOr w t.root.name (new r context t.root) w = (.ok i, w') ∧
      Built r context w sites [t] [i] w' sites' := by
  obtain ⟨below, shape, means, built⟩ := ofRequirements_built_below unfolds covers shares
  rw [shape] at unfolds
  have makes := congrFun (new_eq context means) w
  have shared := shareOr_built unfolds covers.get shares makes built
  rw [← shape] at shared
  exact shared

end Instance
end Reporting
