import Reporting.Proofs.Computation.Changing
import Reporting.Proofs.Computation.Cycles

/-!
Instances over time. They are built over shared ones and prepared in any order, by a source that may fail at any point
(`Bench.Step`). Building prepares nothing and takes only what was made (`Instance.new_builds`), so whatever comes of it,
an instance is prepared with all that it requires or not at all, and is asked for until it is prepared and not again
(`Bench.prepared_once`).
-/

namespace Reporting

/-- The instances that were built, and the workspace in which they are. -/
structure Bench where
  built : List Instance
  workspace : Workspace

namespace Bench

/-- The instance was built or is shared, or one that was requires it. -/
def Has (b : Bench) (i : Instance) : Prop :=
  ∃ j, (j ∈ b.built ∨ ∃ name, b.workspace.shared.get? name = some j) ∧ i ∈ j.parts

/-- Something is built, over what is shared, or an instance is prepared. Either may fail. -/
inductive Step : Bench → Bench → Prop where
  | build {b : Bench} {r : Registry} {context : Context} {c : Computation} {i : Instance} {w : Workspace}
      (made : Instance.new r context c b.workspace = (.ok i, w)) : Step b ⟨i :: b.built, w⟩
  | fail {b : Bench} {r : Registry} {context : Context} {c : Computation} {e : ReportError} {w : Workspace}
      (failed : Instance.new r context c b.workspace = (.error e, w)) : Step b ⟨b.built, w⟩
  | prepare {b : Bench} {i : Instance} (has : b.Has i) (s : ChangingSource) :
      Step b ⟨b.built, (i.prepareWith s b.workspace).2⟩

/-- What may come of an empty workspace. -/
abbrev Reached (b : Bench) : Prop :=
  Relation.ReflTransGen Step ⟨[], .empty⟩ b

end Bench

/-! ## Building -/

/-- More instances were made, nothing was asked, and the aggregates at hand are the same. -/
structure Builds (made : List Instance) (w : Workspace) (made' : List Instance) (w' : Workspace) : Prop where
  more : made ⊆ made'
  makes : Made made' w'
  queries : w'.queries = w.queries
  held : ∀ k : Nat, w'.held[k]?.join = w.held[k]?.join

namespace Builds
variable {made made' made'' : List Instance} {w w' w'' : Workspace}

theorem refl (h : Made made w) : Builds made w made w :=
  ⟨List.Subset.refl _, h, rfl, fun _ => rfl⟩

theorem trans (first : Builds made w made' w') (second : Builds made' w' made'' w'') : Builds made w made'' w'' :=
  ⟨List.Subset.trans first.more second.more, second.makes, second.queries.trans first.queries,
    fun k => (second.held k).trans (first.held k)⟩

end Builds

/-- The work makes instances over those that were made, and what it comes to is among them. -/
def Makes {α : Type} (made : List Instance) (w : Workspace) (work : Session α) (instances : α → List Instance) : Prop :=
  ∃ made', Builds made w made' (work w).2 ∧ ∀ a, (work w).1 = .ok a → ∀ i ∈ instances a, i ∈ made'

namespace Makes
variable {α β : Type} {made : List Instance} {w : Workspace} {instances : α → List Instance}
  {others : β → List Instance}

theorem throw (h : Made made w) (e : ReportError) : Makes made w (throw e : Session α) instances :=
  ⟨made, .refl h, fun _ impossible => by cases impossible⟩

theorem pure (h : Made made w) {a : α} (known : ∀ i ∈ instances a, i ∈ made) :
    Makes made w (Pure.pure a : Session α) instances := by
  refine ⟨made, .refl h, fun b same => ?_⟩
  cases same
  exact known

theorem get {f : Workspace → Session α} (rest : Makes made w (f w) instances) : Makes made w (MonadState.get >>= f) instances := by
  unfold Makes
  rw [Session.bind_of_ok (Session.run_get w)]
  exact rest

theorem bind {x : Session α} {f : α → Session β} (first : Makes made w x instances)
    (rest : ∀ {a made' w'}, Made made' w' → made ⊆ made' → (∀ i ∈ instances a, i ∈ made') → Makes made' w' (f a) others) :
    Makes made w (x >>= f) others := by
  obtain ⟨made', builds, inside⟩ := first
  rcases ran : x w with ⟨result, between⟩
  rw [ran] at builds inside
  cases result with
  | error e =>
    unfold Makes
    rw [Session.bind_of_error ran]
    exact ⟨made', builds, fun _ impossible => by cases impossible⟩
  | ok a =>
    obtain ⟨made'', more, inside'⟩ := rest builds.makes builds.more (inside a rfl)
    unfold Makes
    rw [Session.bind_of_ok ran]
    exact ⟨made'', builds.trans more, inside'⟩

end Makes

namespace Instance
variable {r : Registry} {context : Context} {made : List Instance} {w : Workspace}

/-- A new instance comes into a place of its own, where no aggregates are. -/
theorem made_allocate (h : Made made w) (c : Computation) {is : List Instance} (known : ∀ i ∈ is, i ∈ made)
    (held : ∀ k : Nat, (w.held.push none)[k]?.join = w.held[k]?.join) :
    Made (made ++ [⟨w.held.size, c, context, is⟩]) { w with held := w.held.push none } := by
  have prepared : ∀ i, Workspace.isPrepared { w with held := w.held.push none } i = w.isPrepared i := by
    intro i
    unfold Workspace.isPrepared Workspace.aggregates?
    rw [held]
  constructor
  · intro k i found
    rw [List.getElem?_append] at found
    split at found
    · exact h.placed k i found
    · obtain ⟨last, same⟩ := List.getElem?_eq_some_iff.1 found
      rw [List.length_singleton] at last
      rw [← same, List.getElem_singleton]
      show w.held.size = k
      rw [h.size]
      omega
  · simp [h.size]
  · intro i member d inside
    rcases List.mem_append.1 member with old | new
    · exact List.mem_append_left _ (h.closed i old d inside)
    · rw [List.mem_singleton.1 new] at inside
      exact List.mem_append_left _ (known d inside)
  · exact fun found => List.mem_append_left _ (h.shared found)
  · intro i member already d inside
    rw [prepared] at already ⊢
    rcases List.mem_append.1 member with old | new
    · exact h.settled i old already d inside
    · rw [List.mem_singleton.1 new] at already
      simp [Workspace.isPrepared, Workspace.aggregates?] at already

theorem allocate_makes (h : Made made w) (c : Computation) {is : List Instance} (known : ∀ i ∈ is, i ∈ made) :
    Makes made w (allocate context c is) fun i => [i] := by
  have held : ∀ k : Nat, (w.held.push none)[k]?.join = w.held[k]?.join := by
    intro k
    rw [Array.getElem?_push]
    split
    · rename_i last
      rw [last, Array.getElem?_eq_none (Nat.le_refl _)]
      rfl
    · rfl
  refine ⟨made ++ [⟨w.held.size, c, context, is⟩],
    ⟨List.subset_append_left .., made_allocate h c known held, rfl, held⟩, ?_⟩
  rintro i same j own
  cases same
  rw [List.mem_singleton.1 own]
  exact List.mem_append_right _ (List.mem_singleton_self _)

/-- An instance that is shared is one that was made, and one that was made may be shared. -/
theorem shareOr_makes {new : Session Instance} (h : Made made w) (name : String) (makes : Makes made w new fun i => [i]) :
    Makes made w (shareOr w name new) fun i => [i] := by
  unfold shareOr
  cases found : w.shared.get? name with
  | some i => exact .pure h (List.forall_mem_singleton.2 (h.shared found))
  | none =>
    refine makes.bind fun {i made' w'} after _ own => ?_
    refine ⟨made', ⟨List.Subset.refl _, ⟨after.placed, after.size, after.closed, ?_, after.settled⟩, rfl, fun _ => rfl⟩, ?_⟩
    · intro n j found
      rcases Keyed.get?_insert_cases found with ⟨rfl, rfl⟩ | found
      · exact own j (List.mem_singleton_self j)
      · exact after.shared found
    · rintro j same
      cases same
      exact own

/-- Instances of requirements are made over those that were made, whatever fails. -/
theorem ofRequirements_makes {stack : List String} {qs : List Requirement} {made : List Instance} {w : Workspace}
    (h : Made made w) : Makes made w (ofRequirements r context stack qs) id := by
  -- The recursion is that of the definition: nothing is known of the registry, and its fields may require themselves.
  cases qs with
  | nil =>
    rw [ofRequirements]
    exact .pure h fun i member => by cases member
  | cons q rest =>
    cases means : r.resolve q with
    | error e =>
      rw [ofRequirements_of_absent means]
      exact .throw h _
    | ok c =>
      rw [ofRequirements_of_resolve means]
      refine .get ((shareOr_makes h c.name ?_).bind fun {i made' w'} after more own => ?_)
      · by_cases known : c.name ∈ stack
        · rw [if_pos known]
          exact .throw h _
        · rw [if_neg known]
          split
          · exact .throw h _
          · exact (ofRequirements_makes h).bind fun after _ known => allocate_makes after c known
      · refine (ofRequirements_makes after).bind fun {is made'' w''} last more' others => ?_
        refine .pure last fun j member => ?_
        rcases List.mem_cons.1 member with rfl | member
        · exact more' (own j (List.mem_singleton_self j))
        · exact others j member
termination_by (r.fields.namesOutside stack, sizeOf qs)
decreasing_by
  · exact Registry.step_decreases means known rest
  · exact Prod.Lex.right _ (by simp only [List.cons.sizeOf_spec]; omega)

theorem new_makes (h : Made made w) (c : Computation) : Makes made w (new r context c) fun i => [i] := by
  unfold new
  split
  · exact .throw h _
  · exact (ofRequirements_makes h).bind fun after _ known => allocate_makes after c known

end Instance

/-! ## Cells -/

/-- Only a rule of the field's own says that something is not prepared. -/
theorem Computation.custom_of_notPrepared {c : Computation} {inputs : Inputs} {row : Row} {name : String}
    (failed : c.resolve inputs row = .error (.notPrepared name)) :
    ∃ rule, c.resolver = .custom rule ∧ rule inputs row = .error (.notPrepared name) := by
  have missing : ∀ field, inputs.dependency c.name field ≠ .error (.notPrepared name) := by
    intro field
    unfold Inputs.dependency
    split <;> simp
  unfold resolve at failed
  split at failed
  · cases failed
  · cases failed
  · cases failed
  · cases failed
  · rename_i opening _
    split at failed
    · cases failed
    · rename_i here
      cases failed
      exact absurd here (missing opening)
  · rename_i part _
    split at failed
    · split at failed <;> cases failed
    · rename_i here
      cases failed
      exact absurd here (missing part)
  · rename_i rule own
    exact ⟨rule, own, failed⟩

namespace Instance
variable {w : Workspace} {group : GroupKey} {row : Row}

theorem exists_of_cells_error {is : List Instance} {e : ReportError} (failed : cells w group row is = .error e) :
    ∃ i ∈ is, i.cell w group row = .error e := by
  induction is with
  | nil => cases failed
  | cons i rest ih =>
    rw [cells] at failed
    split at failed
    · rename_i first
      cases failed
      exact ⟨i, List.mem_cons_self .., first⟩
    · split at failed
      · rename_i others
        cases failed
        obtain ⟨j, member, here⟩ := ih others
        exact ⟨j, List.mem_cons_of_mem i member, here⟩
      · cases failed

/-- Where all parts are prepared, nothing is said not to be but by a rule of a part's own. -/
theorem custom_of_cell_notPrepared (i : Instance) (prepared : ∀ j ∈ i.parts, w.isPrepared j = true) {name : String}
    (failed : i.cell w group row = .error (.notPrepared name)) : ∃ j ∈ i.parts, ∃ rule inputs,
      j.computation.resolver = .custom rule ∧ rule inputs row = .error (.notPrepared name) := by
  match i with
  | ⟨slot, c, context, dependencies⟩ =>
    rw [parts] at prepared ⊢
    obtain ⟨a, held⟩ := Option.isSome_iff_exists.1 (prepared _ (List.mem_cons_self ..))
    rw [cell, held] at failed
    cases below : cells w group row dependencies with
    | ok values =>
      simp only [below] at failed
      obtain ⟨rule, own, refused⟩ := Computation.custom_of_notPrepared failed
      exact ⟨_, List.mem_cons_self .., rule, _, own, refused⟩
    | error e =>
      simp only [below] at failed
      cases failed
      obtain ⟨d, inside, here⟩ := exists_of_cells_error below
      have partOf : ∀ j ∈ d.parts, j ∈ partsOf dependencies := fun j part => mem_partsOf.2 ⟨d, inside, part⟩
      obtain ⟨j, part, found⟩ := custom_of_cell_notPrepared d
        (fun j part => prepared j (List.mem_cons_of_mem _ (partOf j part))) here
      exact ⟨j, List.mem_cons_of_mem _ (partOf j part), found⟩
termination_by sizeOf i
decreasing_by exact sizeOf_lt_of_mem_dependencies inside

theorem parts_subset {i k : Instance} (part : i ∈ k.parts) : i.parts ⊆ k.parts := by
  refine of_mem_parts (P := fun i => i.parts ⊆ k.parts) (fun i within d inside j member => within ?_) k
    (List.Subset.refl _) part
  rw [parts_eq, List.mem_cons, mem_partsOf]
  exact Or.inr ⟨d, inside, member⟩

end Instance

/-! ## Steps -/

namespace Bench
variable {b b' : Bench} {made : List Instance} {i j : Instance}

theorem Has.of_mem_parts (has : b.Has i) (part : j ∈ i.parts) : b.Has j := by
  obtain ⟨k, source, member⟩ := has
  exact ⟨k, source, Instance.parts_subset member part⟩

/-- What was built is among what was made. -/
structure Sound (made : List Instance) (b : Bench) : Prop extends Made made b.workspace where
  built : ∀ i ∈ b.built, i ∈ made

theorem Sound.mem_of_has (h : Sound made b) (has : b.Has i) : i ∈ made := by
  obtain ⟨k, source, part⟩ := has
  refine h.of_mem_parts ?_ part
  rcases source with built | ⟨name, shared⟩
  · exact h.built k built
  · exact h.shared shared

/-- A step keeps the aggregates that are at hand. -/
theorem Step.sound (step : Step b b') (h : Sound made b) : (∃ made', Sound made' b') ∧
    ∀ {i : Instance} {a}, b.workspace.aggregates? i = some a → b'.workspace.aggregates? i = some a := by
  cases step with
  | @build r context c i w ran =>
    obtain ⟨made', builds, own⟩ := Instance.new_makes h.toMade c
    rw [ran] at builds own
    refine ⟨⟨made', builds.makes, ?_⟩, ?_⟩
    · intro j member
      rcases List.mem_cons.1 member with rfl | old
      · exact own j rfl j (List.mem_singleton_self j)
      · exact builds.more (h.built j old)
    · intro j a held
      rw [Workspace.aggregates?, builds.held]
      exact held
  | @fail r context c e w ran =>
    obtain ⟨made', builds, _⟩ := Instance.new_makes h.toMade c
    rw [ran] at builds
    refine ⟨⟨made', builds.makes, fun j old => builds.more (h.built j old)⟩, ?_⟩
    intro j a held
    rw [Workspace.aggregates?, builds.held]
    exact held
  | @prepare i has s =>
    cases already : b.workspace.isPrepared i with
    | true =>
      rw [Instance.prepareWith_of_prepared already s]
      exact ⟨⟨made, h.toMade, h.built⟩, fun held => held⟩
    | false =>
      have attempt := Instance.prepareWith_attempts (s := s) i h.toMade (h.mem_of_has has) already
      exact ⟨⟨made, attempt.2, h.built⟩, attempt.1.kept⟩

theorem Reached.sound (reached : b.Reached) : ∃ made, Sound made b := by
  induction reached with
  | refl => exact ⟨[], ⟨by simp, rfl, by simp, by simp [Workspace.empty], by simp⟩, by simp⟩
  | tail _ step ih =>
    obtain ⟨made, sound⟩ := ih
    exact (step.sound sound).1

/-- Aggregates do not change once they are there. -/
theorem aggregates?_later (reached : b.Reached) (goes : Relation.ReflTransGen Step b b') {a : Aggregates}
    (held : b.workspace.aggregates? i = some a) : b'.workspace.aggregates? i = some a := by
  induction goes with
  | refl => exact held
  | tail before step ih =>
    obtain ⟨made, sound⟩ := Reached.sound (reached.trans before)
    exact (step.sound sound).2 ih

/-- However instances were built and prepared, and whatever failed, one that is prepared has all prepared that it
requires, keeps its aggregates, refuses to be prepared again, and has its cells. An attempt to prepare one that is not
asks for what is missing, each part once, and where it fails the instance and the part that failed are left for another. -/
theorem prepared_once (reached : b.Reached) (has : b.Has i) :
    (b.workspace.isPrepared i = true →
      (∀ j ∈ i.parts, b.workspace.isPrepared j = true) ∧
      (∀ later, Relation.ReflTransGen Step b later → later.workspace.aggregates? i = b.workspace.aggregates? i) ∧
      (∀ s, i.prepareWith s b.workspace = (.error (.alreadyPrepared i.name), b.workspace)) ∧
      ∀ group row name, i.cell b.workspace group row = .error (.notPrepared name) → ∃ j ∈ i.parts, ∃ rule inputs,
        j.computation.resolver = .custom rule ∧ rule inputs row = .error (.notPrepared name)) ∧
    (b.workspace.isPrepared i = false → ∀ s,
      Attempt b.Has i.parts b.workspace (i.prepareWith s b.workspace) ∧
      ∀ e w, i.prepareWith s b.workspace = (.error e, w) → w.isPrepared i = false) ∧
    ∀ s : Source, i.prepareWith (.steady s) = i.prepare s := by
  obtain ⟨made, sound⟩ := reached.sound
  have member := sound.mem_of_has has
  refine ⟨fun prepared => ?_, fun missing s => ?_, fun s => i.prepareWith_steady s⟩
  · have all : ∀ j ∈ i.parts, b.workspace.isPrepared j = true :=
      fun j part => sound.isPrepared_of_mem_parts member prepared part
    refine ⟨all, fun later goes => ?_, Instance.prepareWith_of_prepared prepared, ?_⟩
    · obtain ⟨a, held⟩ := Option.isSome_iff_exists.1 prepared
      rw [held]
      exact aggregates?_later reached goes held
    · exact fun group row name => i.custom_of_cell_notPrepared all
  · obtain ⟨attempt, makes⟩ := Instance.prepareWith_attempts (s := s) i sound.toMade member missing
    refine ⟨attempt.mono (fun _ => sound.mem_of_has) fun j part => has.of_mem_parts part, fun e w failed => ?_⟩
    rw [failed] at attempt makes
    cases attempt with
    | error goes within part begun left =>
      rw [← Bool.not_eq_true]
      intro already
      rw [makes.isPrepared_of_mem_parts member already part] at left
      cases left

end Bench

namespace Stages

/-- A source of no records, on which aggregates may fail. -/
def source (total : Except SourceError (Option Float)) : Source where
  schema := Schema.empty
  rows _ _ _ := .ok []
  aggregate _ _ _ := total
  groupAggregate _ _ _ _ := .ok []
  distinctValues _ _ _ := .ok []
  relatedRows _ _ _ := .ok []

/-- The source answers the first query and fails on the next, whatever it is. -/
def faltering : ChangingSource where
  after asked := if asked.isEmpty then source (.ok none) else source (.error (.database "disk I/O error"))

def bottom : Instance :=
  ⟨0, third, context, []⟩

def top : Instance :=
  ⟨1, second, context, [bottom]⟩

/-- The second field has been built, over an instance of the third that is shared. -/
def bench : Bench :=
  ⟨[top], #[], Keyed.empty.insert "third" bottom, #[none, none]⟩

theorem new_top : Instance.new (registry third) context second .empty = (.ok top, bench.workspace) := by
  have nothing : ∀ stack, Instance.ofRequirements (registry third) context stack [] = pure [] := by
    intro stack
    rw [Instance.ofRequirements]
  have found : (registry third).resolve (.named "third") = .ok third := rfl
  have means : (registry third).resolveAll second.requirements = .ok [third] := rfl
  have alone : (registry third).resolveAll third.requirements = .ok [] := rfl
  rw [Instance.new_eq context means]
  show (Instance.ofRequirements (registry third) context ["second"] [.named "third"] >>= _) _ = _
  rw [Instance.ofRequirements_cons found (by decide) alone, nothing, show third.requirements = [] from rfl, nothing]
  rfl

/-- The source fails on the second field, but the third one is prepared by then and stays so. What is asked once more is
asked for the second. -/
theorem third_kept : ∃ b : Bench, b.Reached ∧ b.Has bottom ∧ b.Has top ∧ b.workspace.isPrepared bottom = true ∧
    b.workspace.isPrepared top = false ∧
    bottom.prepareWith (.steady (source (.ok none))) b.workspace = (.error (.alreadyPrepared "third"), b.workspace) ∧
    Attempt b.Has top.parts b.workspace (top.prepareWith (.steady (source (.ok none))) b.workspace) := by
  have made : bench.Reached := .single (.build new_top)
  have hasTop : ∀ w, Bench.Has ⟨bench.built, w⟩ top :=
    fun w => ⟨top, Or.inl (List.mem_singleton_self top), by rw [Instance.parts_eq]; exact List.mem_cons_self ..⟩
  have hasBottom : ∀ w, Bench.Has ⟨bench.built, w⟩ bottom :=
    fun w => (hasTop w).of_mem_parts (by simp [top, bottom, Instance.parts, Instance.partsOf])
  have reached : Bench.Reached ⟨bench.built, (top.prepareWith faltering bench.workspace).2⟩ :=
    made.tail (.prepare (hasTop _) faltering)
  have prepared : ((top.prepareWith faltering bench.workspace).2).isPrepared bottom = true := rfl
  have missing : ((top.prepareWith faltering bench.workspace).2).isPrepared top = false := rfl
  have refused := ((Bench.prepared_once reached (hasBottom _)).1 prepared).2.2.1 (.steady (source (.ok none)))
  have attempt := ((Bench.prepared_once reached (hasTop _)).2.1 missing (.steady (source (.ok none)))).1
  exact ⟨_, reached, hasBottom _, hasTop _, prepared, missing, refused, attempt⟩

end Stages
end Reporting
