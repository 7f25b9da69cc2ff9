import Reporting.Proofs.Computation.Cycles
import Reporting.Proofs.Report.Grouped

/-!
Reports that are refused for how they are configured. All of this is found before anything is asked, but for one thing:
that a field requires itself. That is found when the context of its column is planned, after the rows and all contexts
before have been asked for (`ReportOptions.refused_before`).
-/

namespace Reporting
open Calendar

namespace Session
variable {α β : Type}

theorem bind_eq_error {x : Session α} {f : α → Session β} {w after : Workspace} {e : ReportError}
    (h : (x >>= f) w = (.error e, after)) :
    x w = (.error e, after) ∨ ∃ a between, x w = (.ok a, between) ∧ f a between = (.error e, after) := by
  rcases first : x w with ⟨e' | a, between⟩
  · rw [bind_of_error first] at h
    cases h
    exact Or.inl rfl
  · rw [bind_of_ok first] at h
    exact Or.inr ⟨a, between, rfl, h⟩

/-- Work on one after another that fails does so on one of them, after those before. -/
theorem foldlM_eq_error {f : β → α → Session β} {as : List α} {b : β} {w after : Workspace} {e : ReportError}
    (failed : as.foldlM f b w = (.error e, after)) : ∃ done a rest b' between, as = done ++ a :: rest ∧
      done.foldlM f b w = (.ok b', between) ∧ f b' a between = (.error e, after) := by
  induction as generalizing b w with
  | nil => cases failed
  | cons a rest ih =>
    rw [List.foldlM_cons] at failed
    rcases bind_eq_error failed with here | ⟨b', between, ran, failed⟩
    · exact ⟨[], a, rest, b, w, rfl, rfl, here⟩
    · obtain ⟨done, a', rest', b'', last, rfl, before, here⟩ := ih failed
      refine ⟨a :: done, a', rest', b'', last, rfl, ?_, here⟩
      rw [List.foldlM_cons, bind_of_ok ran]
      exact before

/-- The work does not fail for how a report is configured. -/
def Unrefused (work : Session α) : Prop :=
  ∀ w cause after, work w ≠ (.error (.configuration cause), after)

theorem unrefused_pure (a : α) : Unrefused (pure a) :=
  fun _ _ _ => nofun

theorem unrefused_modify (f : Workspace → Workspace) : Unrefused (modify f) :=
  fun _ _ _ => nofun

theorem Unrefused.bind {x : Session α} {f : α → Session β} (first : Unrefused x) (rest : ∀ a, Unrefused (f a)) :
    Unrefused (x >>= f) := by
  intro w cause after failed
  rcases bind_eq_error failed with here | ⟨a, between, _, later⟩
  · exact first w cause after here
  · exact rest a between cause after later

theorem Asks.unrefused {work : Session α} {answer : Except SourceError α} {queries : List Query}
    (asks : Asks work answer queries) : Unrefused work := by
  intro w cause after failed
  obtain ⟨asked, ran, _⟩ := asks w
  rw [ran] at failed
  cases answer <;> cases failed

theorem unrefused_ask (query : Query) (answer : Except SourceError α) : Unrefused (ask query answer) :=
  (asks_ask query answer).unrefused

theorem unrefused_source (result : Except SourceError α) : Unrefused (ofExcept (result.mapError .source)) := by
  intro w cause after failed
  cases result <;> cases failed

end Session

/-! ## Preparing -/

namespace Instance

theorem unrefused_prepareIfMissing {s : Source} {i : Instance} (prepares : Session.Unrefused (i.prepare s)) :
    Session.Unrefused (do if !(← get).isPrepared i then i.prepare s : Session Unit) := by
  intro w cause after failed
  rw [Session.bind_of_ok (Session.run_get w)] at failed
  cases prepared : w.isPrepared i with
  | true =>
    rw [prepared] at failed
    cases failed
  | false =>
    rw [prepared] at failed
    exact prepares w cause after failed

theorem unrefused_prepareMissing {s : Source} {is : List Instance} (each : ∀ i ∈ is, Session.Unrefused (i.prepare s)) :
    Session.Unrefused (prepareMissing s is) := by
  induction is with
  | nil =>
    rw [prepareMissing]
    exact Session.unrefused_pure ()
  | cons i rest ih =>
    intro w cause after failed
    rw [prepareMissing_cons] at failed
    have first := unrefused_prepareIfMissing (each i (List.mem_cons_self ..))
    exact first.bind (fun _ => ih fun j member => each j (List.mem_cons_of_mem i member)) w cause after failed

/-- Preparing only fails for the source, or where it is done already. -/
theorem unrefused_prepare (s : Source) (i : Instance) : Session.Unrefused (i.prepare s) := by
  cases i with
  | mk slot c context dependencies =>
    intro w cause after failed
    rw [prepare, Session.bind_of_ok (Session.run_get w)] at failed
    cases prepared : w.isPrepared ⟨slot, c, context, dependencies⟩ with
    | true =>
      rw [prepared] at failed
      cases failed
    | false =>
      rw [prepared] at failed
      have below := unrefused_prepareMissing fun d (inside : d ∈ dependencies) => unrefused_prepare s d
      have own := (Source.asks_aggregates s context c).unrefused
      exact (below.bind fun _ => own.bind fun _ => Session.unrefused_modify _) w cause after failed
termination_by sizeOf i
decreasing_by exact sizeOf_lt_of_mem_dependencies inside

end Instance

/-! ## Planning -/

namespace Registry
variable {r : Registry}

/-- Where the requirements of a field cannot be listed for how they are configured, they lead back to it. -/
theorem dependencyCycle_of_dependencies {c : Computation} {cause : ConfigurationError}
    (refused : r.dependencies c = .error (.configuration cause)) : ∃ names, cause = .dependencyCycle names := by
  have fails := fails_of_dependencies refused
  generalize told : ReportError.configuration cause = e at fails
  cases fails with
  | absent => cases told
  | back =>
    cases told
    exact ⟨_, rfl⟩

end Registry

namespace Owners

theorem dependencies_of_ofMembers_error {r : Registry} {members : List ComputedColumn} {e : ReportError}
    (failed : ofMembers r members = .error e) : ∃ c ∈ members, r.dependencies c.computation = .error e := by
  have step : ∀ (columns : List ComputedColumn) (owners : Owners),
      columns.foldlM (markFor r members) owners = .error e → ∃ c ∈ columns, r.dependencies c.computation = .error e := by
    intro columns
    induction columns with
    | nil => exact fun _ failed => nomatch failed
    | cons c rest ih =>
      intro owners failed
      rw [List.foldlM_cons, markFor] at failed
      cases listed : r.dependencies c.computation with
      | error e' =>
        rw [listed] at failed
        cases failed
        exact ⟨c, List.mem_cons_self .., listed⟩
      | ok ds =>
        rw [listed] at failed
        obtain ⟨d, member, here⟩ := ih _ failed
        exact ⟨d, List.mem_cons_of_mem c member, here⟩
  exact step members _ failed

end Owners

namespace Plan
variable {r : Registry} {s : Source} {context base : Context} {crosstab : Option Crosstab} {owners : Owners} {plan : Plan}

theorem unrefused_prepareColumn {c : ComputedColumn} {ds : List Computation}
    (listed : r.dependencies c.computation = .ok ds) : Session.Unrefused (prepareColumn r s context owners plan c) := by
  intro w cause after failed
  cases owned : owners.contains c.name with
  | true =>
    unfold prepareColumn at failed
    rw [owned] at failed
    cases failed
  | false =>
    obtain ⟨i, between, ran⟩ := Instance.shareOr_eq_ok c.computation.name w
      (Instance.new_of_dependencies context listed w)
    rw [prepareColumn_unowned owned ran] at failed
    have prepares := Instance.unrefused_prepareIfMissing (Instance.unrefused_prepare s i)
    exact prepares.bind (fun _ => Session.unrefused_pure _) between cause after failed

theorem unrefused_prepareColumns {columns : List ComputedColumn}
    (listed : ∀ c ∈ columns, ∃ ds, r.dependencies c.computation = .ok ds) (plan : Plan) :
    Session.Unrefused (columns.foldlM (prepareColumn r s context owners) plan) := by
  intro w cause after failed
  obtain ⟨done, c, rest, plan', between, rfl, _, here⟩ := Session.foldlM_eq_error failed
  obtain ⟨ds, found⟩ := listed c (by simp)
  exact unrefused_prepareColumn found between cause after here

/-- A context is refused before anything is asked for it, and only where a field requires itself. -/
theorem refused_of_prepareContext {members : List ComputedColumn} {w after : Workspace} {cause : ConfigurationError}
    (refused : prepareContext r s base crosstab plan members w = (.error (.configuration cause), after)) :
    after = w ∧ ∃ names, cause = .dependencyCycle names ∧
      ∃ c ∈ members, r.dependencies c.computation = .error (dependencyCycle names) := by
  unfold prepareContext at refused
  split at refused
  · cases refused
  · rename_i first rest
    rcases Session.bind_eq_error refused with unowned | ⟨owners, between, owned, refused⟩
    · rw [Session.run_ofExcept] at unowned
      obtain ⟨failed, rfl⟩ := Prod.mk.inj unowned
      obtain ⟨c, member, listed⟩ := Owners.dependencies_of_ofMembers_error failed
      obtain ⟨names, rfl⟩ := Registry.dependencyCycle_of_dependencies listed
      exact ⟨rfl, names, rfl, c, member, listed⟩
    · have listed := Owners.listed_of_foldlM_markFor (Session.ofExcept_eq_ok owned).1
      rw [Session.bind_of_ok (Session.run_modify _ between)] at refused
      exact absurd refused ((unrefused_prepareColumns listed plan).bind (fun _ => Session.unrefused_pure _) _ _ _)

end Plan

namespace BaseRow

theorem unrefused_askRelated (o : ReportOptions) (shape : Shape) (s : Source) (path target : String) :
    Session.Unrefused (askRelated o shape s path target) := by
  have records : ∀ (e : Entity) ids, Session.Unrefused (do
      let records ← s.askRelated target ids shape.recordFields
      return records.map (ofRelated e.primaryKey)) :=
    fun e ids => (Session.unrefused_ask _ _).bind fun _ => Session.unrefused_pure _
  refine (Session.unrefused_source _).bind fun e => ?_
  dsimp only
  split
  · exact (Session.unrefused_pure _).bind (records e)
  · exact (Session.unrefused_ask _ _).bind fun cells => (Session.unrefused_pure _).bind (records e)

/-- Asking for the rows only fails for the source. -/
theorem unrefused_askRows (o : ReportOptions) (shape : Shape) (s : Source) : Session.Unrefused (ask o shape s) := by
  unfold ask
  split
  · exact Session.unrefused_pure _
  · split
    · exact unrefused_askRelated o shape s _ _
    · exact (Session.unrefused_ask _ _).bind fun _ => Session.unrefused_pure _
    · split
      · exact Session.unrefused_pure _
      · exact (Session.unrefused_ask _ _).bind fun _ => Session.unrefused_pure _

end BaseRow

namespace ReportOptions
variable {s : Source} {o : ReportOptions} {now : DateTime} {w after : Workspace} {cause : ConfigurationError}

/-- A report that is refused for how it is configured is refused by its options and the schema, with nothing asked; or
a field of one of its columns requires itself. That comes after the rows have been asked for, and all contexts before
the column's, but nothing for the column's own. -/
theorem refused_before (refused : o.build s now w = (.error (.configuration cause), after)) :
    (o.shape s.schema now = .error (.configuration cause) ∧ after = w) ∨
      ∃ names shape rows between done key rest plan, cause = .dependencyCycle names ∧
        o.shape s.schema now = .ok shape ∧ BaseRow.ask o shape s w = (.ok rows, between) ∧
        ContextKey.all (Column.computed shape.columns) = done ++ key :: rest ∧
        (done.map fun key => key.members (Column.computed shape.columns)).foldlM
          (Plan.prepareContext o.registry s shape.context shape.crosstab) Plan.empty between = (.ok plan, after) ∧
        ∃ c ∈ key.members (Column.computed shape.columns),
          o.registry.dependencies c.computation = .error (dependencyCycle names) := by
  unfold build at refused
  rcases Session.bind_eq_error refused with checked | ⟨shape, first, checked, later⟩
  · rw [Session.run_ofExcept] at checked
    obtain ⟨failed, rfl⟩ := Prod.mk.inj checked
    exact Or.inl ⟨failed, rfl⟩
  obtain ⟨shaped, rfl⟩ := Session.ofExcept_eq_ok checked
  refine Or.inr ?_
  rcases Session.bind_eq_error later with unasked | ⟨rows, between, asked, later⟩
  · exact absurd unasked (BaseRow.unrefused_askRows o shape s _ _ _)
  rcases Session.bind_eq_error later with unplanned | ⟨plan, last, _, later⟩
  · unfold Plan.build at unplanned
    obtain ⟨before, members, others, plan, last, split, ran, here⟩ := Session.foldlM_eq_error unplanned
    obtain ⟨rfl, names, rfl, c, member, listed⟩ := Plan.refused_of_prepareContext here
    obtain ⟨done, left, keys, rfl, tail⟩ := List.map_eq_append_iff.1 split
    obtain ⟨key, rest, rfl, rfl, rfl⟩ := List.map_eq_cons_iff.1 tail
    exact ⟨names, shape, rows, between, done, key, rest, plan, rfl, shaped, asked, keys, ran, c, member, listed⟩
  · cases later

end ReportOptions

namespace Sales

/-- Two fields that require each other. -/
def even : Computation :=
  { Computation.new "even" with requirements := [.named "odd"] }

def odd : Computation :=
  { Computation.new "odd" with requirements := [.named "even"] }

/-- The clients, with a column of a field that requires itself. -/
def circular : ReportOptions :=
  { byClient with registry := (Registry.empty.put even).put odd, columns := [.named "client", .named "even"] }

def circularShape : Shape where
  range := year
  plainColumns := [.plain "client" "client" (.database "client") "integer", .ofComputation even]
  display := [.column 0, .column 1]
  timeSeriesColumns := []
  crosstabColumns := []
  crosstab := none
  context := circular.context year
  relatedEntity := none

theorem circular_dependencies :
    circular.registry.dependencies even = .error (dependencyCycle ["even", "odd", "even"]) := by
  have evens : circular.registry.resolve (.named "even") = .ok even := rfl
  have odds : circular.registry.resolve (.named "odd") = .ok odd := rfl
  have evens_resolved : circular.registry.resolveAll odd.requirements = .ok [even] := rfl
  have odds_resolved : circular.registry.resolveAll even.requirements = .ok [odd] := rfl
  have back : circular.registry.dependenciesOf ([even.name] ++ [odd.name]) odd.requirements =
      .error (dependencyCycle ["even", "odd", "even"]) := by
    refine (Registry.dependenciesOf_cons evens []).trans ?_
    rw [if_pos (by decide)]
    rfl
  have below : circular.registry.dependenciesOf [even.name] even.requirements =
      .error (dependencyCycle ["even", "odd", "even"]) := by
    refine (Registry.dependenciesOf_cons odds []).trans ?_
    rw [if_neg (by decide), evens_resolved]
    dsimp only
    rw [back]
  unfold Registry.dependencies
  rw [odds_resolved]
  exact below

theorem circular_unplanned (w : Workspace) :
    Plan.build circularShape.columns circularShape.context circularShape.crosstab circular.registry memory.source w =
      (.error (dependencyCycle ["even", "odd", "even"]), w) := by
  have contexts : ComputedColumn.byContext (Column.computed circularShape.columns) = [[⟨.ofComputation even, even⟩]] := rfl
  have unowned : Owners.ofMembers circular.registry [⟨.ofComputation even, even⟩] =
      .error (dependencyCycle ["even", "odd", "even"]) := by
    rw [Owners.ofMembers_eq, List.foldlM_cons, Owners.markFor, circular_dependencies]
    rfl
  have refused : Plan.prepareContext circular.registry memory.source circularShape.context circularShape.crosstab .empty
      [⟨.ofComputation even, even⟩] w = (.error (dependencyCycle ["even", "odd", "even"]), w) := by
    refine Session.bind_of_error ?_ _
    rw [unowned]
    rfl
  unfold Plan.build
  rw [← Column.computed, contexts, List.foldlM_cons]
  exact Session.bind_of_error refused _

/-- Before a report with a column of a field that requires itself is refused, its rows are asked for. -/
theorem circular_asked : ∃ after c, circular.build memory.source year.start .empty =
      (.error (dependencyCycle ["even", "odd", "even"]), after) ∧
    after.queries = #[.distinct "sale" circularShape.rowFilters "client"] ∧
    c ∈ Column.computed circularShape.columns ∧
    circular.registry.dependencies c.computation = .error (dependencyCycle ["even", "odd", "even"]) := by
  obtain ⟨rows, between, asked, queries⟩ : ∃ rows between,
      BaseRow.ask circular circularShape memory.source .empty = (.ok rows, between) ∧
        between.queries = #[.distinct "sale" circularShape.rowFilters "client"] := ⟨_, _, rfl, rfl⟩
  have shaped : circular.shape memory.source.schema year.start = .ok circularShape := rfl
  have built : circular.build memory.source year.start .empty =
      (.error (dependencyCycle ["even", "odd", "even"]), between) := by
    unfold ReportOptions.build
    rw [shaped, Session.bind_of_ok (Session.run_ofExcept _ _), Session.bind_of_ok asked]
    exact Session.bind_of_error (circular_unplanned between) _
  rcases ReportOptions.refused_before built with ⟨failed, _⟩ | ⟨names, shape, _, _, _, key, _, _, told, shaped', _, _, _, c,
    member, listed⟩
  · cases shaped.symm.trans failed
  · cases told
    cases shaped.symm.trans shaped'
    exact ⟨between, c, built, queries, (ContextKey.mem_members.1 member).1, listed⟩

end Sales
end Reporting
