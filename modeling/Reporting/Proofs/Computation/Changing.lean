import Mathlib.Data.List.Nodup
import Reporting.Proofs.Computation.Preparing

/-!
Sources that change: one that does may fail on a query now and answer it later. Preparing an instance with it
(`Instance.prepareWith`) is preparing the instance if the source stays as it is (`Instance.prepareWith_steady`). However
the source answers, each instance that is missing is asked for at most once, the first on which the source fails ends the
attempt, and what was prepared until then stays so (`Instance.prepareWith_attempts`).
-/

namespace Reporting

/-- A source whose answers depend on what was asked before. -/
structure ChangingSource where
  /-- the source as it is when the queries have been asked -/
  after : Array Query → Source

namespace ChangingSource

/-- The source that stays as it is. -/
def steady (s : Source) : ChangingSource :=
  ⟨fun _ => s⟩

/-- Work with the source as it is at that point. -/
def now {α : Type} (s : ChangingSource) (work : Source → Session α) : Session α :=
  fun w => work (s.after w.queries) w

/-- The aggregates of all groups of the records that pass the filters. -/
def askTotals (s : ChangingSource) (entity : String) (filters : FilterSet) (grouping : Grouping)
    (aggregation : Aggregation) : Session Totals :=
  match grouping with
  | .none => do return .single (← s.now fun s => s.askAggregate entity filters aggregation)
  | .byPath path => do return .byKey (← s.now fun s => s.askGroups entity filters path aggregation)
  | .bySets sets => do
    return .byPosition (← sets.mapM fun set => s.now fun s => s.askAggregate entity (filters ++ set) aggregation)

/-- The aggregates that a field takes in a context. -/
def askAggregates (s : ChangingSource) (context : Context) (c : Computation) : Session Aggregates := do
  let grouping := context.groupingOf c
  let aggregation : Aggregation := ⟨c.method, c.field⟩
  let debit ← s.askTotals context.entity (context.debitFilters c) grouping aggregation
  match context.creditFilters? c with
  | some filters =>
    let credit ← s.askTotals context.entity filters grouping aggregation
    return ⟨debit, some credit⟩
  | none => return ⟨debit, none⟩

theorem askTotals_steady (s : Source) (entity : String) (filters : FilterSet) (grouping : Grouping)
    (aggregation : Aggregation) :
    (steady s).askTotals entity filters grouping aggregation = s.askTotals entity filters grouping aggregation := by
  cases grouping <;> rfl

theorem askAggregates_steady (s : Source) (context : Context) (c : Computation) :
    (steady s).askAggregates context c = s.askAggregates context c := by
  unfold askAggregates Source.askAggregates
  cases context.creditFilters? c <;> simp only [askTotals_steady]

end ChangingSource

/-! ## What is asked -/

/-- The workspace when the queries have been asked. -/
def Workspace.log (w : Workspace) (asked : List Query) : Workspace :=
  { w with queries := w.queries ++ asked.toArray }

theorem Workspace.log_log (w : Workspace) (asked more : List Query) : (w.log asked).log more = w.log (asked ++ more) := by
  simp [log, Array.append_assoc]

/-- Work that only asks: it asks the queries in order, up to one on which the source fails. -/
def Session.Logs {α : Type} (work : Session α) (queries : List Query) : Prop :=
  ∀ w, (∃ a, work w = (.ok a, w.log queries)) ∨
    ∃ cause asked, asked <+: queries ∧ work w = (.error (.source cause), w.log asked)

namespace Session
variable {α β : Type}

theorem logs_pure (a : α) : Logs (pure a) [] := by
  intro w
  exact Or.inl ⟨a, by simp [Workspace.log]⟩

theorem logs_ask (query : Query) (answer : Except SourceError α) : Logs (ask query answer) [query] := by
  intro w
  cases answer with
  | error cause => exact Or.inr ⟨cause, [query], List.prefix_refl _, by simp [ask, Workspace.log, Except.mapError]⟩
  | ok a => exact Or.inl ⟨a, by simp [ask, Workspace.log, Except.mapError]⟩

theorem Logs.bind {x : Session α} {f : α → Session β} {queries more : List Query} (first : Logs x queries)
    (rest : ∀ a, Logs (f a) more) : Logs (x >>= f) (queries ++ more) := by
  intro w
  rcases first w with ⟨a, ran⟩ | ⟨cause, asked, within, failed⟩
  · rw [bind_of_ok ran, ← Workspace.log_log]
    rcases rest a (w.log queries) with ⟨b, ran⟩ | ⟨cause, asked, within, failed⟩
    · exact Or.inl ⟨b, ran⟩
    · refine Or.inr ⟨cause, queries ++ asked, (List.prefix_append_right_inj _).2 within, ?_⟩
      rw [failed, Workspace.log_log]
  · exact Or.inr ⟨cause, asked, within.trans (List.prefix_append ..), bind_of_error failed f⟩

theorem Logs.map {work : Session α} {queries : List Query} (f : α → β) (logs : Logs work queries) :
    Logs (do return f (← work)) queries := by
  rw [← List.append_nil queries]
  exact logs.bind fun a => logs_pure (f a)

theorem logs_mapM {γ : Type} {work : γ → Session α} {query : γ → Query} (each : ∀ c, Logs (work c) [query c])
    (cs : List γ) : Logs (cs.mapM work) (cs.map query) := by
  induction cs with
  | nil => exact logs_pure []
  | cons c rest ih =>
    rw [List.mapM_cons, List.map_cons, ← List.singleton_append]
    refine (each c).bind fun a => ?_
    rw [← List.append_nil (rest.map query)]
    exact ih.bind fun as => logs_pure (a :: as)

end Session

namespace ChangingSource
variable (s : ChangingSource)

theorem logs_now {α : Type} {work : Source → Session α} {queries : List Query}
    (logs : ∀ s, Session.Logs (work s) queries) : Session.Logs (s.now work) queries :=
  fun w => logs (s.after w.queries) w

theorem logs_askTotals (entity : String) (filters : FilterSet) (grouping : Grouping) (aggregation : Aggregation) :
    Session.Logs (s.askTotals entity filters grouping aggregation) (grouping.queries entity filters aggregation) := by
  cases grouping with
  | none => exact (s.logs_now fun _ => Session.logs_ask _ _).map _
  | byPath path => exact (s.logs_now fun _ => Session.logs_ask _ _).map _
  | bySets sets =>
    have each : ∀ set, Session.Logs (s.now fun s => s.askAggregate entity (filters ++ set) aggregation)
        [.aggregate entity (filters ++ set) aggregation] := fun set => s.logs_now fun _ => Session.logs_ask _ _
    exact (Session.logs_mapM each sets).map _

theorem logs_askAggregates (context : Context) (c : Computation) :
    Session.Logs (s.askAggregates context c) (context.queries c) := by
  unfold askAggregates Context.queries
  refine (s.logs_askTotals _ _ _ _).bind fun debit => ?_
  cases context.creditFilters? c with
  | none => exact Session.logs_pure _
  | some filters => exact (s.logs_askTotals _ _ _ _).map _

end ChangingSource

namespace Instance

mutual

/-- Prepares the instance with a source that may change meanwhile. -/
def prepareWith (s : ChangingSource) : Instance → Session Unit
  | ⟨slot, c, context, dependencies⟩ => do
    if (← get).isPrepared ⟨slot, c, context, dependencies⟩ then throw (.alreadyPrepared c.name)
    prepareMissingWith s dependencies
    let a ← s.askAggregates context c
    modify (hold slot a)

/-- Prepares the instances that are not prepared yet. -/
def prepareMissingWith (s : ChangingSource) : List Instance → Session Unit
  | [] => return ()
  | i :: rest => do
    if !(← get).isPrepared i then i.prepareWith s
    prepareMissingWith s rest

end

mutual

theorem prepareWith_steady (s : Source) (i : Instance) : i.prepareWith (.steady s) = i.prepare s := by
  match i with
  | ⟨slot, c, context, dependencies⟩ =>
    rw [prepareWith, prepare, prepareMissingWith_steady s dependencies, ChangingSource.askAggregates_steady]

theorem prepareMissingWith_steady (s : Source) (is : List Instance) :
    prepareMissingWith (.steady s) is = prepareMissing s is := by
  match is with
  | [] => rw [prepareMissingWith, prepareMissing]
  | i :: rest =>
    rw [prepareMissingWith, prepareMissing, prepareWith_steady s i, prepareMissingWith_steady s rest]

end

end Instance

/-! ## Attempts -/

/-- The instances of a workspace, each in its place, with what they require among them. Those that are prepared have
all of it prepared. -/
structure Made (made : List Instance) (w : Workspace) : Prop where
  placed : ∀ (k : Nat) i, made[k]? = some i → i.slot = k
  size : w.held.size = made.length
  closed : ∀ i ∈ made, ∀ d ∈ i.dependencies, d ∈ made
  shared : ∀ {n i}, w.shared.get? n = some i → i ∈ made
  settled : ∀ i ∈ made, w.isPrepared i = true → ∀ d ∈ i.dependencies, w.isPrepared d = true

namespace Made
variable {made : List Instance} {w : Workspace} {i j : Instance}

theorem getElem?_slot (h : Made made w) (member : i ∈ made) : made[i.slot]? = some i := by
  obtain ⟨k, found⟩ := List.getElem?_of_mem member
  rw [h.placed k i found]
  exact found

theorem eq_of_slot (h : Made made w) (hi : i ∈ made) (hj : j ∈ made) (same : i.slot = j.slot) : i = j := by
  have found := h.getElem?_slot hi
  rw [same, h.getElem?_slot hj] at found
  exact (Option.some.inj found).symm

theorem slot_lt (h : Made made w) (member : i ∈ made) : i.slot < w.held.size := by
  rw [h.size]
  exact (List.getElem?_eq_some_iff.1 (h.getElem?_slot member)).1

theorem of_mem_parts (h : Made made w) (member : i ∈ made) (part : j ∈ i.parts) : j ∈ made :=
  Instance.of_mem_parts (P := (· ∈ made)) h.closed i member part

theorem isPrepared_of_mem_parts (h : Made made w) (member : i ∈ made) (prepared : w.isPrepared i = true)
    (part : j ∈ i.parts) : w.isPrepared j = true := by
  refine (Instance.of_mem_parts (P := fun i => i ∈ made ∧ w.isPrepared i = true) ?_ i ⟨member, prepared⟩ part).2
  rintro i ⟨member, prepared⟩ d inside
  exact ⟨h.closed i member d inside, h.settled i member prepared d inside⟩

end Made

/-- What is asked for the aggregates of the instance. -/
def Instance.queries (i : Instance) : List Query :=
  i.context.queries i.computation

/-- Some instances that were not prepared have been, one after another; what was asked was asked for them in turn, each
once, and some queries besides. -/
structure Prepared (among : Instance → Prop) (w : Workspace) (done : List Instance) (besides : List Query)
    (w' : Workspace) : Prop where
  inside : ∀ i ∈ done, among i
  distinct : done.Nodup
  missing : ∀ i ∈ done, w.isPrepared i = false
  prepared : ∀ i, among i → (w'.isPrepared i = true ↔ w.isPrepared i = true ∨ i ∈ done)
  kept : ∀ {i : Instance} {a}, w.aggregates? i = some a → w'.aggregates? i = some a
  log : w'.queries = w.queries ++ (done.flatMap Instance.queries ++ besides).toArray
  shared : w'.shared = w.shared
  size : w'.held.size = w.held.size

namespace Prepared
variable {among : Instance → Prop} {w w' w'' : Workspace} {done more : List Instance} {besides : List Query}

theorem log_only (among : Instance → Prop) (w : Workspace) (asked : List Query) :
    Prepared among w [] asked (w.log asked) where
  inside _ member := by cases member
  distinct := .nil
  missing _ member := by cases member
  prepared i _ := by simp [Workspace.log, Workspace.isPrepared, Workspace.aggregates?]
  kept h := h
  log := rfl
  shared := rfl
  size := rfl

theorem refl (among : Instance → Prop) (w : Workspace) : Prepared among w [] [] w := by
  have nothing := log_only among w []
  rw [show w.log [] = w by simp [Workspace.log]] at nothing
  exact nothing

theorem trans (first : Prepared among w done [] w') (second : Prepared among w' more besides w'') :
    Prepared among w (done ++ more) besides w'' where
  inside i member := (List.mem_append.1 member).elim (first.inside i) (second.inside i)
  distinct := by
    refine first.distinct.append second.distinct fun i here there => ?_
    have already := (first.prepared i (first.inside i here)).2 (Or.inr here)
    rw [second.missing i there] at already
    cases already
  missing i member := by
    rcases List.mem_append.1 member with here | there
    · exact first.missing i here
    · rw [← Bool.not_eq_true]
      intro already
      have still := (first.prepared i (second.inside i there)).2 (Or.inl already)
      rw [second.missing i there] at still
      cases still
  prepared i known := by rw [second.prepared i known, first.prepared i known, List.mem_append, or_assoc]
  kept h := second.kept (first.kept h)
  log := by
    rw [second.log, first.log, List.append_nil, List.flatMap_append, List.append_assoc, Array.append_assoc]
    simp
  shared := second.shared.trans first.shared
  size := second.size.trans first.size

theorem mono {among' : Instance → Prop} (h : Prepared among w done besides w') (fewer : ∀ i, among' i → among i)
    (inside : ∀ i ∈ done, among' i) : Prepared among' w done besides w' :=
  { h with inside, prepared := fun i known => h.prepared i (fewer i known) }

theorem isPrepared (h : Prepared among w done besides w') {i : Instance} (already : w.isPrepared i = true) :
    w'.isPrepared i = true := by
  obtain ⟨a, held⟩ := Option.isSome_iff_exists.1 already
  exact Option.isSome_iff_exists.2 ⟨a, h.kept held⟩

end Prepared

/-- What an attempt to prepare the instances comes to. All are prepared, those that were not having been asked for; or the
source failed on one of them, which is left, and others that were asked for before are prepared. -/
inductive Attempt (among : Instance → Prop) (parts : List Instance) (w : Workspace) :
    Except ReportError Unit × Workspace → Prop where
  | ok {done : List Instance} {w' : Workspace} (goes : Prepared among w done [] w') (within : done ⊆ parts)
      (all : ∀ i ∈ parts, w'.isPrepared i = true) : Attempt among parts w (.ok (), w')
  | error {done : List Instance} {asked : List Query} {w' : Workspace} {j : Instance} {cause : SourceError}
      (goes : Prepared among w done asked w') (within : done ⊆ parts) (part : j ∈ parts) (begun : asked <+: j.queries)
      (left : w'.isPrepared j = false) : Attempt among parts w (.error (.source cause), w')

namespace Attempt
variable {among : Instance → Prop} {parts others : List Instance} {w : Workspace}

theorem congr {run : Except ReportError Unit × Workspace} (h : Attempt among parts w run)
    (same : ∀ i, i ∈ parts ↔ i ∈ others) : Attempt among others w run := by
  cases h with
  | ok goes within all =>
    exact .ok goes (fun i member => (same i).1 (within member)) fun i member => all i ((same i).2 member)
  | error goes within part begun left =>
    exact .error goes (fun i member => (same i).1 (within member)) ((same _).1 part) begun left

/-- Aggregates that were there stay, whatever comes of the attempt. -/
theorem kept {run : Except ReportError Unit × Workspace} (h : Attempt among parts w run) {i : Instance} {a : Aggregates}
    (held : w.aggregates? i = some a) : run.2.aggregates? i = some a := by
  cases h with
  | ok goes => exact goes.kept held
  | error goes => exact goes.kept held

/-- It is enough that the parts are among the others. -/
theorem mono {among' : Instance → Prop} {run : Except ReportError Unit × Workspace} (h : Attempt among parts w run)
    (fewer : ∀ i, among' i → among i) (inside : ∀ i ∈ parts, among' i) : Attempt among' parts w run := by
  cases h with
  | ok goes within all => exact .ok (goes.mono fewer fun i member => inside i (within member)) within all
  | error goes within part begun left =>
    exact .error (goes.mono fewer fun i member => inside i (within member)) within part begun left

/-- One attempt, and another if the first one does not fail. -/
theorem seq {made : List Instance} {first second : Session Unit}
    (begins : Attempt among parts w (first w) ∧ Made made (first w).2)
    (goes : ∀ {done w'}, Prepared among w done [] w' → done ⊆ parts → (∀ i ∈ parts, w'.isPrepared i = true) → Made made w' →
      Attempt among others w' (second w') ∧ Made made (second w').2) :
    Attempt among (parts ++ others) w ((do first; second : Session Unit) w) ∧
      Made made ((do first; second : Session Unit) w).2 := by
  obtain ⟨attempt, makes⟩ := begins
  rcases ran : first w with ⟨result, between⟩
  rw [ran] at attempt makes
  cases attempt with
  | @ok done _ here within all =>
    rw [Session.bind_of_ok ran]
    obtain ⟨attempt, makes⟩ := goes here within all makes
    refine ⟨?_, makes⟩
    rcases later : second between with ⟨result, after⟩
    rw [later] at attempt
    cases attempt with
    | ok there within' all' =>
      refine .ok (here.trans there) (List.append_subset.2 ⟨?_, ?_⟩) fun i member => ?_
      · exact List.subset_append_of_subset_left _ within
      · exact List.subset_append_of_subset_right _ within'
      · exact (List.mem_append.1 member).elim (fun first => there.isPrepared (all i first)) (all' i)
    | error there within' part begun left =>
      refine .error (here.trans there) (List.append_subset.2 ⟨?_, ?_⟩) (List.mem_append_right _ part) begun left
      · exact List.subset_append_of_subset_left _ within
      · exact List.subset_append_of_subset_right _ within'
  | error here within part begun left =>
    rw [Session.bind_of_error ran]
    exact ⟨.error here (List.subset_append_of_subset_left _ within) (List.mem_append_left _ part) begun left, makes⟩

end Attempt

namespace Instance
variable {s : ChangingSource} {made : List Instance} {w : Workspace} {i : Instance}

/-- No instance is among what it requires. -/
theorem not_mem_partsOf_dependencies (i : Instance) : i ∉ partsOf i.dependencies := by
  intro member
  obtain ⟨d, inside, part⟩ := mem_partsOf.1 member
  have smaller := sizeOf_lt_of_mem_dependencies inside
  have within : sizeOf i ≤ sizeOf d := by
    refine of_mem_parts (P := fun j => sizeOf j ≤ sizeOf d) ?_ d (Nat.le_refl _) part
    exact fun j less e required => Nat.le_trans (Nat.le_of_lt (sizeOf_lt_of_mem_dependencies required)) less
  omega

/-- An instance is prepared once its aggregates are in their place. -/
theorem prepared_hold (h : Made made w) (member : i ∈ made) (missing : w.isPrepared i = false) (a : Aggregates) :
    Prepared (· ∈ made) w [i] [] (hold i.slot a (w.log i.queries)) := by
  have held : ∀ j : Instance, (hold i.slot a (w.log i.queries)).aggregates? j =
      if j.slot = i.slot then some a else w.aggregates? j := by
    intro j
    have inside : i.slot < (w.log i.queries).held.size := h.slot_lt member
    unfold Workspace.aggregates?
    rw [held_hold]
    by_cases same : j.slot = i.slot
    · rw [if_pos same, if_pos ⟨same, by rw [same]; exact inside⟩]
    · rw [if_neg same, if_neg fun both => same both.1]
      rfl
  refine ⟨by simpa using member, List.nodup_singleton i, by simpa using missing, ?_, ?_, ?_, rfl, ?_⟩
  · intro j known
    rw [List.mem_singleton]
    unfold Workspace.isPrepared
    rw [held]
    by_cases same : j.slot = i.slot
    · simp [h.eq_of_slot known member same]
    · have differ : j ≠ i := fun equal => same (congrArg slot equal)
      simp [same, differ]
  · intro j b found
    rw [held, if_neg]
    · exact found
    · intro same
      rw [Workspace.isPrepared, Workspace.aggregates?, ← same] at missing
      rw [Workspace.aggregates?] at found
      rw [found] at missing
      cases missing
  · simp [hold, Workspace.log]
  · simp [hold, Workspace.log]

/-- The source is asked for the aggregates of an instance when what it requires is prepared. -/
theorem ask_attempts (h : Made made w) (member : i ∈ made) (missing : w.isPrepared i = false)
    (required : ∀ d ∈ i.dependencies, w.isPrepared d = true) :
    Attempt (· ∈ made) [i] w ((do modify (hold i.slot (← s.askAggregates i.context i.computation)) : Session Unit) w) ∧
      Made made ((do modify (hold i.slot (← s.askAggregates i.context i.computation)) : Session Unit) w).2 := by
  rcases s.logs_askAggregates i.context i.computation w with ⟨a, ran⟩ | ⟨cause, asked, within, failed⟩
  · rw [Session.bind_of_ok ran, Session.run_modify]
    have goes : Prepared (· ∈ made) w [i] [] (hold i.slot a (w.log i.queries)) := prepared_hold h member missing a
    have own := (goes.prepared i member).2 (Or.inr (List.mem_singleton_self i))
    refine ⟨.ok goes (List.Subset.refl _) (List.forall_mem_singleton.2 own), h.placed, goes.size.trans h.size, h.closed, ?_, ?_⟩
    · exact fun found => h.shared found
    · intro j known already d inside
      refine goes.isPrepared ?_
      rcases (goes.prepared j known).1 already with before | own
      · exact h.settled j known before d inside
      · rw [List.mem_singleton.1 own] at inside
        exact required d inside
  · rw [Session.bind_of_error failed]
    refine ⟨.error (.log_only _ w asked) (List.nil_subset _) (List.mem_singleton_self i) within missing, ?_⟩
    exact ⟨h.placed, h.size, h.closed, fun found => h.shared found, h.settled⟩

theorem prepareMissingWith_cons (s : ChangingSource) (i : Instance) (rest : List Instance) (w : Workspace) :
    prepareMissingWith s (i :: rest) w =
      ((do if !(← get).isPrepared i then i.prepareWith s) >>= fun _ => prepareMissingWith s rest : Session Unit) w := by
  rw [prepareMissingWith, bind_assoc, Session.bind_of_ok (Session.run_get w), Session.bind_of_ok (Session.run_get w)]
  cases w.isPrepared i <;> rfl

theorem prepareMissingWith_attempts {is : List Instance}
    (each : ∀ i ∈ is, ∀ {w}, Made made w → w.isPrepared i = false →
      Attempt (· ∈ made) i.parts w (i.prepareWith s w) ∧ Made made (i.prepareWith s w).2)
    (h : Made made w) (known : ∀ i ∈ is, i ∈ made) :
    Attempt (· ∈ made) (partsOf is) w (prepareMissingWith s is w) ∧ Made made (prepareMissingWith s is w).2 := by
  induction is generalizing w with
  | nil =>
    rw [prepareMissingWith]
    exact ⟨.ok (.refl _ w) (List.nil_subset _) fun i member => (by cases member), h⟩
  | cons i rest ih =>
    rw [prepareMissingWith_cons, partsOf]
    refine Attempt.seq ?_ fun _ _ _ after =>
      ih (fun j member => each j (List.mem_cons_of_mem i member)) after fun j member => known j (List.mem_cons_of_mem i member)
    rw [Session.bind_of_ok (Session.run_get w)]
    cases already : w.isPrepared i with
    | true =>
      have all := fun j (part : j ∈ i.parts) => h.isPrepared_of_mem_parts (known i (List.mem_cons_self ..)) already part
      exact ⟨.ok (.refl _ w) (List.nil_subset _) all, h⟩
    | false => exact each i (List.mem_cons_self ..) h already

/-- Preparing an instance prepares what is missing of its parts, each before what requires it. -/
theorem prepareWith_attempts (i : Instance) {w : Workspace} (h : Made made w) (member : i ∈ made)
    (missing : w.isPrepared i = false) :
    Attempt (· ∈ made) i.parts w (i.prepareWith s w) ∧ Made made (i.prepareWith s w).2 := by
  have begins : i.prepareWith s w = (do
      prepareMissingWith s i.dependencies
      modify (hold i.slot (← s.askAggregates i.context i.computation)) : Session Unit) w := by
    cases i with
    | mk slot c context dependencies =>
      rw [prepareWith, Session.bind_of_ok (Session.run_get w), missing]
      rfl
  have below := prepareMissingWith_attempts (fun d inside _ h' => prepareWith_attempts d h' (h.closed i member d inside)) h
    (h.closed i member)
  have steps := Attempt.seq below fun goes within all after => by
    refine ask_attempts (s := s) after member ?_ fun d inside => all d ?_
    · -- What was prepared since is below, and no instance is below itself.
      rw [← Bool.not_eq_true]
      intro already
      rcases (goes.prepared i member).1 already with before | own
      · rw [missing] at before
        cases before
      · exact i.not_mem_partsOf_dependencies (within own)
    · rw [mem_partsOf]
      exact ⟨d, inside, by rw [parts_eq]; exact List.mem_cons_self ..⟩
  rw [begins]
  refine ⟨steps.1.congr fun j => ?_, steps.2⟩
  rw [parts_eq, List.mem_append, List.mem_singleton, List.mem_cons, or_comm]
termination_by sizeOf i
decreasing_by exact sizeOf_lt_of_mem_dependencies inside

theorem prepareWith_of_prepared (prepared : w.isPrepared i = true) (s : ChangingSource) :
    i.prepareWith s w = (.error (.alreadyPrepared i.name), w) := by
  cases i with
  | mk slot c context dependencies =>
    rw [prepareWith, Session.bind_of_ok (Session.run_get w), prepared]
    rfl

end Instance
end Reporting
