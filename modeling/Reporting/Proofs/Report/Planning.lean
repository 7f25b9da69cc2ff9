import Reporting.Proofs.Computation.Preparing
import Reporting.Proofs.Report.Owners

/-!
Planning of a context. The columns without an owner are prepared one after another, and what is known of
them is kept step by step (`Planned`). At the end every field that a column of the context reaches was asked
for once (`ContextPlanned`).
-/

namespace Reporting

/-- The requirements of the field cannot be listed, or the source fails for one of its fields. -/
def Computation.Fails (r : Registry) (s : Source) (context : Context) (c : Computation) : Prop :=
  (∀ ds, r.dependencies c ≠ .ok ds) ∨ ∃ d, r.Reaches c d ∧ ∃ cause, s.aggregates context d = .error cause

namespace Plan

/-- The columns of a context that are planned so far, and the fields that were asked for. -/
structure Planned (r : Registry) (s : Source) (context : Context) (start : Workspace) (owners : Owners) (old : Plan)
    (done : List ComputedColumn) (sites : Sites) (asked : List Computation) (plan : Plan) (w : Workspace) : Prop
    extends Preparing r s context start.queries sites w.shared asked w where
  own : ∀ c ∈ done, owners.contains c.name = false →
    ∃ i, plan.prepared.get? c.name = some i ∧ w.shared.get? c.computation.name = some i ∧ i.computation ∈ asked
  reached : ∀ d ∈ asked, ∃ c ∈ done, owners.contains c.name = false ∧ r.Reaches c.computation d
  kept : ∀ {k : Nat} {a}, start.held[k]?.join = some a → w.held[k]?.join = some a
  others : ∀ n, (∀ c ∈ done, c.name ≠ n) → plan.prepared.get? n = old.prepared.get? n
  owners_eq : plan.owners = old.owners

variable {r : Registry} {s : Source} {context : Context} {start w : Workspace} {owners : Owners} {old plan : Plan}
  {key : ContextKey} {members done : List ComputedColumn} {sites : Sites} {asked : List Computation}

theorem Planned.skip (h : Planned r s context start owners old done sites asked plan w) {c : ComputedColumn}
    (owned : owners.contains c.name = true) : Planned r s context start owners old (done ++ [c]) sites asked plan w where
  toPreparing := h.toPreparing
  own d member unowned := by
    rcases List.mem_append.1 member with member | member
    · exact h.own d member unowned
    · rw [List.mem_singleton.1 member, owned] at unowned
      cases unowned
  reached d member := by
    obtain ⟨c', member', rest⟩ := h.reached d member
    exact ⟨c', List.mem_append_left _ member', rest⟩
  kept := h.kept
  others n outside := h.others n fun d member => outside d (List.mem_append_left _ member)
  owners_eq := h.owners_eq

/-- The instance of a column without an owner is in the plan from then on. -/
theorem Planned.add (h : Planned r s context start owners old done sites asked plan w) {c : ComputedColumn}
    {i : Instance} {w' : Workspace} {sites' : Sites} {more : List Computation}
    (unowned : owners.contains c.name = false) (same : ∀ d ∈ done, d.name = c.name → d.computation = c.computation)
    (after : Preparing r s context start.queries sites' w'.shared (asked ++ more) w')
    (shared : ∀ {n j}, w.shared.get? n = some j → w'.shared.get? n = some j)
    (kept : ∀ {k : Nat} {a}, w.held[k]?.join = some a → w'.held[k]?.join = some a)
    (found : w'.shared.get? c.computation.name = some i) (member : i.computation ∈ asked ++ more)
    (reaches : ∀ d ∈ more, r.Reaches c.computation d) :
    Planned r s context start owners old (done ++ [c]) sites' (asked ++ more)
      { plan with prepared := plan.prepared.insert c.name i } w' where
  toPreparing := after
  own d inside free := by
    by_cases name : d.name = c.name
    · rw [name]
      have fields : d.computation = c.computation := by
        rcases List.mem_append.1 inside with inside | inside
        · exact same d inside name
        · rw [List.mem_singleton.1 inside]
      rw [fields]
      exact ⟨i, Keyed.get?_insert_self .., found, member⟩
    · rcases List.mem_append.1 inside with inside | inside
      · obtain ⟨j, prepared, sharedJ, askedJ⟩ := h.own d inside free
        refine ⟨j, ?_, shared sharedJ, List.mem_append_left _ askedJ⟩
        rw [Keyed.get?_insert_of_ne _ name, prepared]
      · rw [List.mem_singleton.1 inside] at name
        exact absurd rfl name
  reached d inside := by
    rcases List.mem_append.1 inside with inside | inside
    · obtain ⟨c', member', rest⟩ := h.reached d inside
      exact ⟨c', List.mem_append_left _ member', rest⟩
    · exact ⟨c, by simp, unowned, reaches d inside⟩
  kept held := kept (h.kept held)
  others n outside := by
    have differ : n ≠ c.name := fun name => outside c (by simp) name.symm
    rw [Keyed.get?_insert_of_ne _ differ]
    exact h.others n fun d member => outside d (List.mem_append_left _ member)
  owners_eq := h.owners_eq

theorem prepareColumn_unowned {c : ComputedColumn} (unowned : owners.contains c.name = false) {i : Instance}
    {between : Workspace}
    (ran : Instance.shareOr w c.computation.name (Instance.new r context c.computation) w = (.ok i, between)) :
    prepareColumn r s context owners plan c w =
      ((do if !(← get).isPrepared i then i.prepare s) >>= fun _ =>
        return { plan with prepared := plan.prepared.insert c.name i } : Session Plan) between := by
  unfold prepareColumn
  rw [unowned]
  simp only [Bool.false_eq_true, if_false]
  rw [bind_assoc, Session.bind_of_ok (Session.run_get w), Session.bind_of_ok ran,
    Session.bind_of_ok (Session.run_get between), Session.bind_of_ok (Session.run_get between)]
  cases between.isPrepared i <;> rfl

/-- A column without an owner takes the shared instance of its field or a new one, which is prepared if it
is not. -/
theorem Planned.prepareColumn (h : Planned r s context start owners old done sites asked plan w)
    {c : ComputedColumn} (covers : r.Covers c.computation) {ds : List Computation}
    (listed : r.dependencies c.computation = .ok ds)
    (same : ∀ d ∈ done, d.name = c.name → d.computation = c.computation) :
    (∃ plan' w' sites' asked', prepareColumn r s context owners plan c w = (.ok plan', w') ∧
        Planned r s context start owners old (done ++ [c]) sites' asked' plan' w') ∨
      ∃ e w', prepareColumn r s context owners plan c w = (.error e, w') ∧ c.computation.Fails r s context := by
  cases owned : owners.contains c.name with
  | true =>
    unfold Plan.prepareColumn
    rw [owned]
    exact Or.inl ⟨plan, w, sites, asked, rfl, h.skip owned⟩
  | false =>
    obtain ⟨t, rooted, unfolds, _⟩ := Registry.unfolds_of_dependencies listed
    rw [← rooted] at covers
    obtain ⟨i, between, sites', ran, built⟩ := Instance.shareOr_new_built unfolds covers h.shares
    have tree : i.tree = t := by simpa using built.trees
    have root : i.computation = t.root := by rw [← tree, Instance.root_tree]
    have found : between.shared.get? t.root.name = some i := by
      rw [← root]
      exact built.shared i (List.mem_singleton_self i)
    have reaches : ∀ d ∈ i.tree.fields, r.Reaches c.computation d := by
      intro d member
      rw [tree] at member
      rw [← rooted]
      exact unfolds.reaches member
    rw [rooted] at ran found
    rw [prepareColumn_unowned owned ran]
    rcases Instance.prepareIfMissing_prepares (h.toPreparing.grow built) found
        (Instance.prepare_prepares i (h.toPreparing.grow built) found) with
      ⟨more, w', ran, after, advances, inside, finished⟩ | ⟨e, w', ran, d, member, failed⟩
    · refine Or.inl ⟨_, w', sites', asked ++ more, (Session.bind_of_ok ran _).trans rfl, ?_⟩
      rw [← advances.shared] at after found
      refine h.add owned same after ?_ ?_ found (finished (List.mem_singleton_self _))
        fun d member => reaches d (inside member)
      · intro n j shared
        rw [advances.shared]
        exact built.grows.kept shared
      · intro k a held
        rw [← built.grows.held_eq] at held
        exact advances.kept held
    · exact Or.inr ⟨e, w', Session.bind_of_error ran _, Or.inr ⟨d, reaches d member, failed⟩⟩

/-- The columns of a context one after another. -/
theorem Planned.prepareColumns (h : Planned r s context start owners old done sites asked plan w)
    {columns : List ComputedColumn} (covers : ∀ c ∈ columns, r.Covers c.computation)
    (listed : ∀ c ∈ columns, ∃ ds, r.dependencies c.computation = .ok ds)
    (same : ∀ c ∈ done ++ columns, ∀ d ∈ done ++ columns, c.name = d.name → c.computation = d.computation) :
    (∃ plan' w' sites' asked', columns.foldlM (Plan.prepareColumn r s context owners) plan w = (.ok plan', w') ∧
        Planned r s context start owners old (done ++ columns) sites' asked' plan' w') ∨
      ∃ e w', columns.foldlM (Plan.prepareColumn r s context owners) plan w = (.error e, w') ∧
        ∃ c ∈ columns, c.computation.Fails r s context := by
  induction columns generalizing done sites asked plan w with
  | nil =>
    refine Or.inl ⟨plan, w, sites, asked, rfl, ?_⟩
    rw [List.append_nil]
    exact h
  | cons c rest ih =>
    obtain ⟨ds, found⟩ := listed c (List.mem_cons_self ..)
    have known : ∀ d ∈ done, d.name = c.name → d.computation = c.computation := by
      intro d member name
      exact same d (List.mem_append_left _ member) c (by simp) name
    rw [List.foldlM_cons]
    rcases h.prepareColumn (covers c (List.mem_cons_self ..)) found known with
      ⟨plan', between, sites', asked', ran, next⟩ | ⟨e, w', ran, fails⟩
    · have split : done ++ c :: rest = done ++ [c] ++ rest := by simp
      rw [split] at same ⊢
      rw [Session.bind_of_ok ran]
      rcases ih next (fun d member => covers d (List.mem_cons_of_mem c member))
        (fun d member => listed d (List.mem_cons_of_mem c member)) same with
        finished | ⟨e, w', ran, d, member, fails⟩
      · exact Or.inl finished
      · exact Or.inr ⟨e, w', ran, d, List.mem_cons_of_mem c member, fails⟩
    · exact Or.inr ⟨e, w', Session.bind_of_error ran _, c, List.mem_cons_self .., fails⟩

/-- What planning a context comes to: the fields that were asked for, the prepared instances of the columns
without an owner, and the owners of the others. -/
structure ContextPlanned (r : Registry) (s : Source) (context : Context) (members : List ComputedColumn)
    (old : Plan) (start : Workspace) (owners : Owners) (asked : List Computation) (plan : Plan) (w : Workspace) :
    Prop extends Ordered r asked where
  owners_eq : Owners.ofMembers r members = .ok owners
  log : w.queries = start.queries ++ (asked.flatMap context.queries).toArray
  mem_asked_iff : ∀ d, d ∈ asked ↔ ∃ c ∈ members, r.Reaches c.computation d
  own : ∀ c ∈ members, owners.get? c.name = none →
    ∃ i, plan.prepared.get? c.name = some i ∧ i.computation = c.computation ∧ i.tree.Unfolds r [] ∧
      i.Settled s w context
  kept : ∀ {k : Nat} {a}, start.held[k]?.join = some a → w.held[k]?.join = some a
  others : ∀ n, (∀ c ∈ members, c.name ≠ n) → plan.prepared.get? n = old.prepared.get? n
  get?_owners : ∀ n, plan.owners.get? n = ((owners.get? n).map (owners.last [])).or (old.owners.get? n)

theorem get?_lastOwners (owners old : Owners) (n : String) :
    (old.insertAll (owners.entries.map fun (name, owner) => (name, owners.last [] owner))).get? n =
      ((owners.get? n).map (owners.last [])).or (old.get? n) := by
  have names : (owners.entries.map fun (name, owner) => (name, owners.last [] owner)).map Prod.fst = owners.names := by
    rw [List.map_map]
    rfl
  rw [Keyed.get?_insertAll _ (by rw [names]; exact owners.names_nodup)]
  exact congrArg (fun found => Option.or found _) (Keyed.lookup_map_snd _ _ _)

/-- When all columns are done, the fields that were asked for are those that any of them reaches: a column
with an owner is reached from one without. -/
theorem Planned.contextPlanned (h : Planned r s context start owners old members sites asked plan w)
    (family : ComputedColumn.Family r key members) (found : Owners.ofMembers r members = .ok owners) :
    ContextPlanned r s context members old start owners asked
      { plan with owners := plan.owners.insertAll (owners.entries.map fun (name, owner) => (name, owners.last [] owner)) }
      w := by
  have listed := (Owners.ofMembers_eq_ok_iff family).1 ⟨owners, found⟩
  have sound := Owners.sound_of_ofMembers family found
  have own : ∀ c ∈ members, owners.get? c.name = none →
      ∃ i, plan.prepared.get? c.name = some i ∧ w.shared.get? c.computation.name = some i ∧
        i.computation = c.computation ∧ i.computation ∈ asked := by
    intro c member unowned
    obtain ⟨i, prepared, shared, askedFor⟩ := h.own c member (by rw [Keyed.contains, unowned]; rfl)
    obtain ⟨_, registered⟩ := h.registered shared
    rw [(family.covers c member).get] at registered
    exact ⟨i, prepared, shared, (Except.ok.inj registered).symm, askedFor⟩
  refine ⟨h.toOrdered, found, h.log, ?_, ?_, h.kept, h.others, ?_⟩
  · intro d
    constructor
    · intro member
      obtain ⟨c, inside, _, reaches⟩ := h.reached d member
      exact ⟨c, inside, reaches⟩
    · rintro ⟨c, member, reaches⟩
      -- The chain of owners ends in a column without one, which was prepared with all that it requires.
      obtain ⟨b, inside, _, unowned, above⟩ := sound.last family listed [] member (by simp)
      obtain ⟨i, _, _, same, askedFor⟩ := own b inside unowned
      rw [same] at askedFor
      exact h.toOrdered.reaches askedFor (above.trans reaches)
  · intro c member unowned
    obtain ⟨i, prepared, shared, same, askedFor⟩ := own c member unowned
    exact ⟨i, prepared, same, h.unfolds shared, h.settled shared askedFor⟩
  · intro n
    rw [← h.owners_eq]
    exact get?_lastOwners owners plan.owners n

/-- The columns of a context can be planned, unless a requirement is missing or the source fails. -/
theorem prepareContext_planned (s : Source) (base : Context) (crosstab : Option Crosstab) {first : ComputedColumn}
    {rest : List ComputedColumn} (family : ComputedColumn.Family r key (first :: rest)) (old : Plan) (w : Workspace) :
    (∃ owners asked plan w', prepareContext r s base crosstab old (first :: rest) w = (.ok plan, w') ∧
        ContextPlanned r s (first.context base crosstab) (first :: rest) old w owners asked plan w') ∨
      ∃ e w', prepareContext r s base crosstab old (first :: rest) w = (.error e, w') ∧
        ∃ c ∈ first :: rest, c.computation.Fails r s (first.context base crosstab) := by
  cases found : Owners.ofMembers r (first :: rest) with
  | error e =>
    obtain ⟨c, member, unlisted⟩ := Owners.exists_unlisted family found
    refine Or.inr ⟨e, w, ?_, c, member, Or.inl unlisted⟩
    unfold prepareContext
    rw [found]
    rfl
  | ok owners =>
    have listed := (Owners.ofMembers_eq_ok_iff family).1 ⟨owners, found⟩
    let cleared : Workspace := { w with shared := Keyed.empty }
    have nothing : Planned r s (first.context base crosstab) w owners old [] (fun _ => none) [] old cleared := by
      refine ⟨.initial cleared, ?_, ?_, fun held => held, fun _ _ => rfl, rfl⟩
      · simp
      · simp
    have begins : prepareContext r s base crosstab old (first :: rest) w =
        ((first :: rest).foldlM (Plan.prepareColumn r s (first.context base crosstab) owners) old >>= fun plan =>
          return { plan with
            owners := plan.owners.insertAll (owners.entries.map fun (name, owner) => (name, owners.last [] owner)) } :
          Session Plan) cleared := by
      unfold prepareContext
      rw [found]
      rfl
    rw [begins]
    rcases nothing.prepareColumns family.covers listed
      (fun c member d member' name => family.computation_eq member member' name) with
      ⟨plan, w', sites, asked, ran, planned⟩ | ⟨e, w', ran, fails⟩
    · refine Or.inl ⟨owners, asked, _, w', ?_, planned.contextPlanned family found⟩
      rw [Session.bind_of_ok ran]
      rfl
    · exact Or.inr ⟨e, w', Session.bind_of_error ran _, fails⟩

end Plan
end Reporting
