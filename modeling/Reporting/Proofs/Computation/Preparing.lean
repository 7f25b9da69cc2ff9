import Mathlib.Data.List.Nodup
import Reporting.Proofs.Computation.Settling

/-!
Preparation. Preparing the shared instances of a context asks for the aggregates of each field once, after
those of everything that the field requires, and holds what the source answers (`Preparing`). An instance is
then settled when its field was asked for (`Preparing.settled`).
-/

namespace Reporting

/-- The fields came one by one, each after what it requires. -/
structure Ordered (r : Registry) (asked : List Computation) : Prop where
  distinct : asked.Nodup
  earlier : ∀ before c after, asked = before ++ c :: after → ∀ d, r.Requires c d → d ∈ before

theorem Ordered.nil (r : Registry) : Ordered r [] where
  distinct := .nil
  earlier before c after h := by simp at h

theorem Ordered.snoc {r : Registry} {asked : List Computation} {c : Computation} (h : Ordered r asked)
    (new : c ∉ asked) (required : ∀ d, r.Requires c d → d ∈ asked) : Ordered r (asked ++ [c]) where
  distinct := by
    rw [← List.concat_eq_append]
    exact h.distinct.concat new
  earlier before d after split := by
    rcases List.eq_nil_or_concat after with rfl | ⟨after, last, rfl⟩
    · obtain ⟨same, rest⟩ := List.append_inj' split rfl
      cases rest
      rw [← same]
      exact required
    · have longer : asked ++ [c] = (before ++ d :: after) ++ [last] := by simpa using split
      obtain ⟨same, _⟩ := List.append_inj' longer rfl
      exact h.earlier before d after same

/-- Everything that a field requires, directly or not, came before it. -/
theorem Ordered.depends {r : Registry} {asked before after : List Computation} {c d : Computation}
    (h : Ordered r asked) (split : asked = before ++ c :: after) (depends : r.Depends c d) : d ∈ before := by
  induction depends with
  | single required => exact h.earlier _ _ _ split _ required
  | tail _ required ih =>
    obtain ⟨first, second, rfl⟩ := List.append_of_mem ih
    have sooner := h.earlier first _ (second ++ c :: after) (by rw [split]; simp) _ required
    exact List.mem_append_left _ sooner

theorem Ordered.reaches {r : Registry} {asked : List Computation} {c d : Computation} (h : Ordered r asked)
    (member : c ∈ asked) (reached : r.Reaches c d) : d ∈ asked := by
  rcases Relation.reflTransGen_iff_eq_or_transGen.1 reached with rfl | depends
  · exact member
  · obtain ⟨before, after, split⟩ := List.append_of_mem member
    rw [split]
    exact List.mem_append_left _ (h.depends split depends)

/-- The instances that are shared in a context, the fields whose aggregates were asked for, and what is at
hand. The log began with some queries of others. -/
structure Preparing (r : Registry) (s : Source) (context : Context) (start : Array Query) (sites : Sites)
    (shared : Keyed Instance) (asked : List Computation) (w : Workspace) : Prop
    extends Sharing r context sites shared, Ordered r asked where
  fresh : ∀ k, w.held.size ≤ k → sites k = none
  truthful : ∀ {k context c a}, sites k = some (context, c) → w.held[k]?.join = some a →
    s.aggregates context c = .ok a
  log : w.queries = start ++ (asked.flatMap context.queries).toArray
  prepared : ∀ {n i}, shared.get? n = some i → (w.isPrepared i ↔ i.computation ∈ asked)
  known : ∀ c ∈ asked, ∃ i, shared.get? c.name = some i ∧ i.computation = c

/-- Aggregates are only added, and the same instances are shared. -/
structure Advances (w w' : Workspace) : Prop where
  shared : w'.shared = w.shared
  kept : ∀ {k : Nat} {a}, w.held[k]?.join = some a → w'.held[k]?.join = some a

theorem Advances.refl (w : Workspace) : Advances w w :=
  ⟨rfl, fun h => h⟩

theorem Advances.trans {w w' w'' : Workspace} (first : Advances w w') (second : Advances w' w'') : Advances w w'' :=
  ⟨second.shared.trans first.shared, fun h => second.kept (first.kept h)⟩

namespace Instance
variable {r : Registry} {s : Source} {context : Context} {start : Array Query} {sites : Sites}
  {shared : Keyed Instance}

/-- Instances of one context with the same place have the same field. -/
theorem computation_eq_of_slot_eq {i j : Instance} (hi : i.Placed sites context) (hj : j.Placed sites context)
    (same : i.slot = j.slot) : i.computation = j.computation := by
  have site := hi.site
  rw [same, hj.site] at site
  exact (congrArg Prod.snd (Option.some.inj site)).symm

theorem held_hold (slot : Nat) (a : Aggregates) (w : Workspace) (k : Nat) :
    (hold slot a w).held[k]?.join = if k = slot ∧ k < w.held.size then some a else w.held[k]?.join := by
  unfold hold
  rw [Array.getElem?_setIfInBounds]
  by_cases same : slot = k
  · subst same
    by_cases inside : slot < w.held.size
    · simp [inside]
    · simp [inside]
  · have differ : k ≠ slot := fun h => same h.symm
    simp [same, differ]

theorem requires_dependency {i : Instance} {stack : List String} (unfolds : i.tree.Unfolds r stack)
    (d : Computation) : r.Requires i.computation d ↔ ∃ j ∈ i.dependencies, j.computation = d := by
  rw [tree_eq] at unfolds
  rw [FieldTree.requires_root_iff unfolds]
  constructor
  · rintro ⟨t, member, rfl⟩
    obtain ⟨j, inside, rfl⟩ := List.mem_map.1 member
    exact ⟨j, inside, (root_tree j).symm⟩
  · rintro ⟨j, member, rfl⟩
    exact ⟨j.tree, List.mem_map_of_mem member, root_tree j⟩

/-- The aggregates of an instance come into their place after those of what it requires. -/
theorem preparing_hold {asked : List Computation} {w : Workspace} {n : String} {i : Instance} {a : Aggregates}
    (before : Preparing r s context start sites shared asked w) (found : shared.get? n = some i)
    (unprepared : i.computation ∉ asked) (required : ∀ d ∈ i.dependencies, d.computation ∈ asked)
    (answered : s.aggregates context i.computation = .ok a) :
    Preparing r s context start sites shared (asked ++ [i.computation])
      (hold i.slot a { w with queries := w.queries ++ (context.queries i.computation).toArray }) := by
  have placed := before.placed found
  have inside : i.slot < w.held.size := by
    rcases Nat.lt_or_ge i.slot w.held.size with inside | outside
    · exact inside
    · have site := placed.site
      rw [before.fresh i.slot outside] at site
      cases site
  refine ⟨before.toSharing, before.toOrdered.snoc unprepared ?_, ?_, ?_, ?_, ?_, ?_⟩
  · intro d requires
    obtain ⟨j, member, rfl⟩ := (requires_dependency (before.unfolds found) d).1 requires
    exact required j member
  · intro k outside
    refine before.fresh k ?_
    simpa [hold] using outside
  · intro k context' c b site held
    rw [held_hold] at held
    split at held
    · rename_i here
      rw [here.1, placed.site] at site
      cases site
      cases held
      exact answered
    · exact before.truthful site held
  · show w.queries ++ (context.queries i.computation).toArray = _
    rw [before.log, Array.append_assoc]
    simp
  · intro m j foundJ
    rw [List.mem_append, List.mem_singleton, ← before.prepared foundJ]
    unfold Workspace.isPrepared Workspace.aggregates?
    rw [held_hold]
    by_cases same : j.slot = i.slot
    · have fields := computation_eq_of_slot_eq (before.placed foundJ) placed same
      simp [same, inside, fields]
    · -- Instances of one field have its name, and one instance is shared by name.
      have differ : j.computation ≠ i.computation := by
        intro fields
        obtain ⟨namedI, _⟩ := before.registered found
        obtain ⟨namedJ, _⟩ := before.registered foundJ
        have names : m = n := by rw [← namedJ, ← namedI, name, name, fields]
        rw [names, found] at foundJ
        cases foundJ
        exact same rfl
      simp [same, differ]
  · intro c member
    rcases List.mem_append.1 member with member | member
    · exact before.known c member
    · rw [List.mem_singleton.1 member]
      obtain ⟨named, _⟩ := before.registered found
      exact ⟨i, by rw [show i.computation.name = n from named, found], rfl⟩

theorem hold_advances {i : Instance} {w : Workspace} (missing : w.isPrepared i = false) (a : Aggregates)
    (queries : Array Query) : Advances w (hold i.slot a { w with queries := queries }) := by
  refine ⟨rfl, fun {k b} held => ?_⟩
  rw [held_hold]
  split
  · rename_i here
    rw [Workspace.isPrepared, Workspace.aggregates?, ← here.1, held] at missing
    cases missing
  · exact held

/-- What preparing shared instances comes to: those of the fields that are done are prepared, for which
some of the fields were asked for; or the source fails for one of the fields. -/
def Prepares (r : Registry) (s : Source) (context : Context) (start : Array Query) (sites : Sites)
    (shared : Keyed Instance) (asked : List Computation) (w : Workspace) (work : Session Unit)
    (fields done : List Computation) : Prop :=
  (∃ more w', work w = (.ok (), w') ∧ Preparing r s context start sites shared (asked ++ more) w' ∧
      Advances w w' ∧ more ⊆ fields ∧ done ⊆ asked ++ more) ∨
    ∃ e w', work w = (.error e, w') ∧ ∃ d ∈ fields, ∃ cause, s.aggregates context d = .error cause

theorem Prepares.bind {asked fields fields' done done' : List Computation} {w : Workspace} {first second : Session Unit}
    (begins : Prepares r s context start sites shared asked w first fields done)
    (goes : ∀ {more between}, Preparing r s context start sites shared (asked ++ more) between → more ⊆ fields →
      done ⊆ asked ++ more →
      Prepares r s context start sites shared (asked ++ more) between second fields' done') :
    Prepares r s context start sites shared asked w (do first; second) (fields ++ fields') (done ++ done') := by
  rcases begins with ⟨more, between, ran, after, advances, inside, prepared⟩ | ⟨e, w', ran, d, member, failed⟩
  · rcases goes after inside prepared with
      ⟨more', w', ran', after', advances', inside', prepared'⟩ | ⟨e, w', ran', d, member, failed⟩
    · rw [List.append_assoc] at after' prepared'
      refine Or.inl ⟨more ++ more', w', (Session.bind_of_ok ran _).trans ran', after', advances.trans advances',
        List.append_subset.2 ⟨?_, ?_⟩, List.append_subset.2 ⟨?_, prepared'⟩⟩
      · exact List.subset_append_of_subset_left _ inside
      · exact List.subset_append_of_subset_right _ inside'
      · rw [← List.append_assoc]
        exact List.subset_append_of_subset_left _ prepared
    · exact Or.inr ⟨e, w', (Session.bind_of_ok ran _).trans ran', d, List.mem_append_right _ member, failed⟩
  · exact Or.inr ⟨e, w', Session.bind_of_error ran _, d, List.mem_append_left _ member, failed⟩

/-- Some fields may be done already, and the source may be said to be asked for more. -/
theorem Prepares.mono {asked fields fields' done done' : List Computation} {w : Workspace} {work : Session Unit}
    (h : Prepares r s context start sites shared asked w work fields done) (wider : fields ⊆ fields')
    (known : done' ⊆ asked ++ done) : Prepares r s context start sites shared asked w work fields' done' := by
  rcases h with ⟨more, w', ran, after, advances, inside, prepared⟩ | ⟨e, w', ran, d, member, failed⟩
  · refine Or.inl ⟨more, w', ran, after, advances, fun d member => wider (inside member), fun d member => ?_⟩
    rcases List.mem_append.1 (known member) with member | member
    · exact List.mem_append_left _ member
    · exact prepared member
  · exact Or.inr ⟨e, w', ran, d, wider member, failed⟩

theorem Prepares.congr {asked fields done : List Computation} {w : Workspace} {work work' : Session Unit}
    (h : Prepares r s context start sites shared asked w work fields done) (same : work' w = work w) :
    Prepares r s context start sites shared asked w work' fields done := by
  unfold Prepares
  rw [same]
  exact h

theorem isPrepared_eq_false {asked : List Computation} {w : Workspace} {n : String} {i : Instance}
    (before : Preparing r s context start sites shared asked w) (found : shared.get? n = some i)
    (unprepared : i.computation ∉ asked) : w.isPrepared i = false := by
  rw [Bool.eq_false_iff]
  exact fun prepared => unprepared ((before.prepared found).1 prepared)

/-- An instance that may be prepared already is prepared if it is not. -/
theorem prepareIfMissing_prepares {i : Instance} {asked : List Computation} {w : Workspace} {n : String}
    (before : Preparing r s context start sites shared asked w) (found : shared.get? n = some i)
    (prepares : i.computation ∉ asked →
      Prepares r s context start sites shared asked w (i.prepare s) i.tree.fields [i.computation]) :
    Prepares r s context start sites shared asked w (do if !(← get).isPrepared i then i.prepare s) i.tree.fields
      [i.computation] := by
  by_cases prepared : i.computation ∈ asked
  · have skip : w.isPrepared i = true := (before.prepared found).2 prepared
    refine Or.inl ⟨[], w, ?_, by simpa using before, .refl w, List.nil_subset _, by simpa using prepared⟩
    rw [Session.bind_of_ok (Session.run_get w), skip]
    rfl
  · refine (prepares prepared).congr ?_
    rw [Session.bind_of_ok (Session.run_get w), isPrepared_eq_false before found prepared]
    rfl

theorem prepareMissing_cons (s : Source) (i : Instance) (rest : List Instance) (w : Workspace) :
    prepareMissing s (i :: rest) w =
      ((do if !(← get).isPrepared i then i.prepare s) >>= fun _ => prepareMissing s rest : Session Unit) w := by
  rw [prepareMissing, bind_assoc, Session.bind_of_ok (Session.run_get w), Session.bind_of_ok (Session.run_get w)]
  cases w.isPrepared i <;> rfl

/-- Preparing what is missing among instances comes to preparing all of them, if it does for each. -/
theorem prepareMissing_prepares {is : List Instance} {asked : List Computation} {w : Workspace}
    (each : ∀ i ∈ is, ∀ {asked w n}, Preparing r s context start sites shared asked w → shared.get? n = some i →
      i.computation ∉ asked →
      Prepares r s context start sites shared asked w (i.prepare s) i.tree.fields [i.computation])
    (before : Preparing r s context start sites shared asked w) (found : ∀ i ∈ is, shared.get? i.name = some i) :
    Prepares r s context start sites shared asked w (prepareMissing s is) (FieldTree.fieldsOf (trees is))
      (is.map Instance.computation) := by
  induction is generalizing asked w with
  | nil =>
    rw [prepareMissing]
    exact Or.inl ⟨[], w, rfl, by simpa using before, .refl w, by simp, by simp⟩
  | cons i rest ih =>
    have foundHead := found i (List.mem_cons_self ..)
    have eachRest := fun j member => @each j (List.mem_cons_of_mem i member)
    have foundRest := fun j member => found j (List.mem_cons_of_mem i member)
    have first := prepareIfMissing_prepares before foundHead (each i (List.mem_cons_self ..) before foundHead)
    rw [trees, FieldTree.fieldsOf]
    exact (first.bind fun after _ _ => ih eachRest after foundRest).congr (prepareMissing_cons s i rest w)

/-- The source is asked for the aggregates of an instance when what it requires is done. -/
theorem ask_prepares {i : Instance} {asked : List Computation} {w : Workspace} {n : String}
    (before : Preparing r s context start sites shared asked w) (found : shared.get? n = some i)
    (unprepared : i.computation ∉ asked) (required : ∀ d ∈ i.dependencies, d.computation ∈ asked) :
    Prepares r s context start sites shared asked w
      (do let a ← s.askAggregates context i.computation
          modify (hold i.slot a))
      [i.computation] [i.computation] := by
  obtain ⟨logged, asks, all⟩ := Source.asks_aggregates s context i.computation w
  cases answered : s.aggregates context i.computation with
  | error cause =>
    rw [answered] at asks
    exact Or.inr ⟨.source cause, _, Session.bind_of_error asks _, i.computation, List.mem_singleton_self _, cause,
      answered⟩
  | ok a =>
    rw [answered, all a answered] at asks
    have missing := isPrepared_eq_false before found unprepared
    refine Or.inl ⟨[i.computation], _, ?_, preparing_hold before found unprepared required answered,
      hold_advances missing a _, List.Subset.refl _, List.subset_append_right ..⟩
    rw [Session.bind_of_ok asks, Session.run_modify]

/-- Preparing an instance asks for its aggregates after preparing what it requires. -/
theorem prepare_step {i : Instance} {asked : List Computation} {w : Workspace} {n : String}
    (before : Preparing r s context start sites shared asked w) (found : shared.get? n = some i)
    (unprepared : i.computation ∉ asked)
    (below : Prepares r s context start sites shared asked w (prepareMissing s i.dependencies)
      (FieldTree.fieldsOf (trees i.dependencies)) (i.dependencies.map Instance.computation)) :
    Prepares r s context start sites shared asked w (i.prepare s) i.tree.fields [i.computation] := by
  have unfolds := before.unfolds found
  rw [tree_eq, ← trees_eq_map] at unfolds ⊢
  have begins : i.prepare s w =
      (do prepareMissing s i.dependencies
          let a ← s.askAggregates context i.computation
          modify (hold i.slot a) : Session Unit) w := by
    have missing := isPrepared_eq_false before found unprepared
    rw [← (before.placed found).context_eq]
    cases i with
    | mk slot c context dependencies =>
      rw [prepare, Session.bind_of_ok (Session.run_get w), missing]
      rfl
  have fields : FieldTree.fieldsOf (trees i.dependencies) ++ [i.computation] ⊆
      (FieldTree.node i.computation (trees i.dependencies)).fields := by
    rw [FieldTree.fields]
    exact List.append_subset.2
      ⟨List.subset_cons_self .., List.cons_subset.2 ⟨List.mem_cons_self .., List.nil_subset _⟩⟩
  have done : [i.computation] ⊆ asked ++ (i.dependencies.map Instance.computation ++ [i.computation]) := by simp
  refine ((below.bind fun after inside settled => ?_).mono fields done).congr begins
  refine ask_prepares after found (fun member => ?_) fun d member => settled (List.mem_map_of_mem member)
  -- What was asked for since is below, and no field is below itself.
  rcases List.mem_append.1 member with member | member
  · exact unprepared member
  · cases unfolds with
    | node fresh means each =>
      obtain ⟨t, below, member⟩ := FieldTree.mem_fieldsOf.1 (inside member)
      exact (each t below).name_fresh _ member (by simp)

/-- Preparing an instance asks for the aggregates that are missing, those of what it requires first. -/
theorem prepare_prepares (i : Instance) {asked : List Computation} {w : Workspace} {n : String}
    (before : Preparing r s context start sites shared asked w) (found : shared.get? n = some i)
    (unprepared : i.computation ∉ asked) :
    Prepares r s context start sites shared asked w (i.prepare s) i.tree.fields [i.computation] := by
  refine prepare_step before found unprepared ?_
  refine prepareMissing_prepares (fun d inside => ?_) before (before.closed found)
  exact prepare_prepares d
termination_by sizeOf i
decreasing_by exact sizeOf_lt_of_mem_dependencies inside

end Instance

namespace Preparing
variable {r : Registry} {s : Source} {context : Context} {start : Array Query} {sites sites' : Sites}
  {shared : Keyed Instance} {asked : List Computation} {w w' : Workspace}

/-- Before anything is shared. -/
theorem initial (w : Workspace) :
    Preparing r s context w.queries (fun _ => none) Keyed.empty [] w where
  registered found := by simp at found
  unfolds found := by simp at found
  placed found := by simp at found
  closed found := by simp at found
  toOrdered := .nil r
  fresh _ _ := rfl
  truthful site := by cases site
  log := by simp
  prepared found := by simp at found
  known _ member := by cases member

/-- Only the log and the aggregates of the workspace matter. -/
theorem congr (h : Preparing r s context start sites shared asked w) (queries : w'.queries = w.queries)
    (held : w'.held = w.held) : Preparing r s context start sites shared asked w' where
  toSharing := h.toSharing
  toOrdered := h.toOrdered
  fresh := by rw [held]; exact h.fresh
  truthful := by rw [held]; exact h.truthful
  log := by rw [queries]; exact h.log
  prepared {n i} found := by
    rw [← h.prepared found, Workspace.isPrepared, Workspace.aggregates?, held]
    rfl
  known := h.known

theorem shares (h : Preparing r s context start sites w.shared asked w) : Shares r context sites w :=
  ⟨h.toSharing, h.fresh⟩

/-- Instances that are added are not prepared. -/
theorem grow (h : Preparing r s context start sites w.shared asked w) {ts : List FieldTree} {is : List Instance}
    (built : Built r context w sites ts is w' sites') : Preparing r s context start sites' w'.shared asked w' where
  toSharing := built.shares.toSharing
  toOrdered := h.toOrdered
  fresh := built.shares.fresh
  truthful {k context' c a} site held := by
    rw [built.grows.held_eq] at held
    have inside : k < w.held.size := by
      rcases Nat.lt_or_ge k w.held.size with inside | outside
      · exact inside
      · rw [Array.getElem?_eq_none outside] at held
        cases held
    rw [built.grows.sites k inside] at site
    exact h.truthful site held
  log := by
    rw [built.grows.queries]
    exact h.log
  prepared {n i} found := by
    rw [Workspace.isPrepared, Workspace.aggregates?, built.grows.held_eq]
    rcases built.grows.added found with old | ⟨_, named, place⟩
    · exact h.prepared old
    · have nothing : w.held[i.slot]? = none := Array.getElem?_eq_none place
      rw [nothing]
      constructor
      · intro impossible
        cases impossible
      · -- The field was asked for, so the instance of its name is an old one, and its place is not at the end.
        intro member
        obtain ⟨j, known, _⟩ := h.known _ member
        have same : j = i := by
          have kept := built.grows.kept known
          rw [show i.computation.name = n from named, found] at kept
          exact (Option.some.inj kept).symm
        rw [same] at known
        have site := (h.placed known).site
        rw [h.fresh _ place] at site
        cases site
  known c member := by
    obtain ⟨i, found, same⟩ := h.known c member
    exact ⟨i, built.grows.kept found, same⟩

theorem settled_of_placed (h : Preparing r s context start sites shared asked w) {i : Instance}
    (placed : i.Placed sites context) (found : shared.get? i.name = some i) (member : i.computation ∈ asked) :
    i.Settled s w context := by
  induction placed with
  | @mk slot c dependencies site each ih =>
    have prepared := (h.prepared found).2 member
    obtain ⟨a, held⟩ := Option.isSome_iff_exists.1 prepared
    refine .mk (h.truthful site held) held fun d inside => ih d inside (h.closed found d inside) ?_
    obtain ⟨before, after, split⟩ := List.append_of_mem member
    have required := (Instance.requires_dependency (h.unfolds found) d.computation).2 ⟨d, inside, rfl⟩
    rw [split]
    exact List.mem_append_left _ (h.earlier before c after split _ required)

/-- A shared instance is settled when its field was asked for. -/
theorem settled (h : Preparing r s context start sites shared asked w) {n : String} {i : Instance}
    (found : shared.get? n = some i) (member : i.computation ∈ asked) : i.Settled s w context := by
  obtain ⟨named, _⟩ := h.registered found
  refine h.settled_of_placed (h.placed found) ?_ member
  rw [named, found]

end Preparing

/-! ## A field alone -/

namespace Instance

/-- A prepared instance of a field that shares nothing with the others. -/
def prepareAlone (r : Registry) (s : Source) (context : Context) (c : Computation) : Session Instance := do
  let i ← newAlone r context c
  i.prepare s
  return i

/-- A field alone comes to be settled, unless the source fails for one of the fields that it takes. -/
theorem prepareAlone_settled {r : Registry} (s : Source) (context : Context) {t : FieldTree} (unfolds : t.Unfolds r [])
    (covers : r.Covers t.root) (w : Workspace) :
    (∃ i w', prepareAlone r s context t.root w = (.ok i, w') ∧ i.Settled s w' context ∧ i.tree = t) ∨
      ∃ e w', prepareAlone r s context t.root w = (.error e, w') ∧
        ∃ d ∈ t.fields, ∃ cause, s.aggregates context d = .error cause := by
  let cleared : Workspace := { w with shared := Keyed.empty }
  have nothing : Preparing r s context w.queries (fun _ => none) cleared.shared [] cleared := .initial cleared
  obtain ⟨i, between, sites, made, built⟩ := new_built unfolds covers nothing.shares rfl
  have alone : newAlone r context t.root w = (.ok i, { between with shared := w.shared }) := by
    unfold newAlone
    rw [made]
  have trees : i.tree = t := by simpa using built.trees
  have found := built.shared i (List.mem_singleton_self i)
  have shared : Preparing r s context w.queries sites _ [] { between with shared := w.shared } :=
    (nothing.grow built).congr rfl rfl
  unfold prepareAlone
  rcases prepare_prepares i shared found (by simp) with
    ⟨more, w', ran, after, _, _, done⟩ | ⟨e, w', ran, d, member, failed⟩
  · refine Or.inl ⟨i, w', ?_, after.settled found (done (List.mem_singleton_self _)), trees⟩
    rw [Session.bind_of_ok alone, Session.bind_of_ok ran, Session.run_pure]
  · rw [trees] at member
    refine Or.inr ⟨e, w', ?_, d, member, failed⟩
    rw [Session.bind_of_ok alone, Session.bind_of_error ran]

end Instance
end Reporting
