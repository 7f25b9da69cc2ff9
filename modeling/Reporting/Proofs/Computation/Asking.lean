import Reporting.Computation.Session

/-!
What work in a session does to the workspace, and what asking for the aggregates of a field amounts to:
the answers of the source (`Source.aggregates`), and a fixed list of queries (`Context.queries`) that
depends on the context and the field alone.
-/

namespace Reporting
namespace Session
variable {α β : Type}

@[simp] theorem run_pure (a : α) (w : Workspace) : (pure a : Session α) w = (.ok a, w) :=
  rfl

@[simp] theorem run_get (w : Workspace) : (get : Session Workspace) w = (.ok w, w) :=
  rfl

@[simp] theorem run_modify (f : Workspace → Workspace) (w : Workspace) :
    (modify f : Session Unit) w = (.ok (), f w) :=
  rfl

@[simp] theorem run_ofExcept (result : Except ReportError α) (w : Workspace) : ofExcept result w = (result, w) :=
  rfl

theorem bind_of_ok {x : Session α} {w between : Workspace} {a : α} (h : x w = (.ok a, between))
    (f : α → Session β) : (x >>= f) w = f a between := by
  show ExceptT.bindCont f (x w).1 (x w).2 = f a between
  rw [h]
  rfl

theorem bind_of_error {x : Session α} {w between : Workspace} {e : ReportError} (h : x w = (.error e, between))
    (f : α → Session β) : (x >>= f) w = (.error e, between) := by
  show ExceptT.bindCont f (x w).1 (x w).2 = (.error e, between)
  rw [h]
  rfl

theorem bind_eq_ok {x : Session α} {f : α → Session β} {w after : Workspace} {b : β}
    (h : (x >>= f) w = (.ok b, after)) : ∃ a between, x w = (.ok a, between) ∧ f a between = (.ok b, after) := by
  rcases first : x w with ⟨_ | a, between⟩
  · rw [bind_of_error first] at h
    cases h
  · rw [bind_of_ok first] at h
    exact ⟨a, between, rfl, h⟩

/-- What holds after steps held before them, or came about in one of them. -/
theorem exists_of_foldlM {p : β → Prop} {f : β → α → Session β} {as : List α} {b b' : β} {w after : Workspace}
    (ran : as.foldlM f b w = (.ok b', after)) (holds : p b') : p b ∨ ∃ a ∈ as, ∃ before later start finish,
      f before a start = (.ok later, finish) ∧ ¬ p before ∧ p later := by
  induction as generalizing b w with
  | nil =>
    cases ran
    exact Or.inl holds
  | cons a rest ih =>
    rw [List.foldlM_cons] at ran
    obtain ⟨between, start, here, ran⟩ := bind_eq_ok ran
    rcases ih ran with known | ⟨c, member, found⟩
    · by_cases first : p b
      · exact Or.inl first
      · exact Or.inr ⟨a, List.mem_cons_self .., b, between, w, start, here, first, known⟩
    · exact Or.inr ⟨c, List.mem_cons_of_mem a member, found⟩

theorem ofExcept_eq_ok {result : Except ReportError α} {w after : Workspace} {a : α}
    (h : ofExcept result w = (.ok a, after)) : result = .ok a ∧ after = w := by
  cases h
  exact ⟨rfl, rfl⟩

theorem ask_eq_ok {query : Query} {answer : Except SourceError α} {w after : Workspace} {a : α}
    (h : ask query answer w = (.ok a, after)) : answer = .ok a := by
  cases answer with
  | error cause => cases h
  | ok b =>
    cases h
    rfl

/-- Work that only asks: it comes to the answer, changes nothing but the log, and logs the queries when the
answer is there. Some of them may be missing when it is not. -/
def Asks (work : Session α) (answer : Except SourceError α) (queries : List Query) : Prop :=
  ∀ w, ∃ asked : List Query, work w = (answer.mapError .source, { w with queries := w.queries ++ asked.toArray }) ∧
    ∀ a, answer = .ok a → asked = queries

theorem asks_ask (query : Query) (answer : Except SourceError α) : Asks (ask query answer) answer [query] := by
  intro w
  refine ⟨[query], ?_, fun _ _ => rfl⟩
  simp [ask]

theorem asks_pure (a : α) : Asks (pure a) (.ok a) [] := by
  intro w
  refine ⟨[], ?_, fun _ _ => rfl⟩
  show (Except.ok a, w) = (Except.ok a, { w with queries := w.queries ++ #[] })
  rw [Array.append_empty]

theorem asks_bind {work : Session α} {answer : Except SourceError α} {queries : List Query} {next : α → Session β}
    {nextAnswer : α → Except SourceError β} {nextQueries : List Query} (first : Asks work answer queries)
    (then_ : ∀ a, Asks (next a) (nextAnswer a) nextQueries) :
    Asks (work >>= next) (answer >>= nextAnswer) (queries ++ nextQueries) := by
  intro w
  obtain ⟨asked, ran, all⟩ := first w
  cases answer with
  | error e =>
    refine ⟨asked, bind_of_error ran next, ?_⟩
    intro b impossible
    cases impossible
  | ok a =>
    obtain ⟨more, ranNext, allNext⟩ := then_ a { w with queries := w.queries ++ asked.toArray }
    refine ⟨asked ++ more, ?_, ?_⟩
    · rw [bind_of_ok ran, ranNext]
      show _ = ((nextAnswer a).mapError ReportError.source, _)
      simp [Array.append_assoc]
    · intro b answered
      rw [all a rfl, allNext b answered]

theorem asks_map {work : Session α} {answer : Except SourceError α} {queries : List Query} (f : α → β)
    (first : Asks work answer queries) : Asks (do return f (← work)) (answer.map f) queries := by
  have mapped : answer.map f = answer >>= fun a => Except.ok (f a) := by cases answer <;> rfl
  rw [mapped, ← List.append_nil queries]
  exact asks_bind first fun a => asks_pure (f a)

theorem asks_mapM {γ : Type} {work : γ → Session α} {answer : γ → Except SourceError α} {query : γ → Query}
    (each : ∀ c, Asks (work c) (answer c) [query c]) (cs : List γ) :
    Asks (cs.mapM work) (cs.mapM answer) (cs.map query) := by
  induction cs with
  | nil => exact asks_pure []
  | cons c rest ih =>
    rw [List.mapM_cons, List.mapM_cons, List.map_cons, ← List.singleton_append]
    refine asks_bind (each c) fun a => ?_
    rw [← List.append_nil (rest.map query)]
    exact asks_bind ih fun as => asks_pure (a :: as)

end Session

/-! ## The aggregates of a field -/

/-- What is asked for the aggregates of all groups. -/
def Grouping.queries (grouping : Grouping) (entity : String) (filters : FilterSet) (aggregation : Aggregation) :
    List Query :=
  match grouping with
  | .none => [.aggregate entity filters aggregation]
  | .byPath path => [.group entity filters path aggregation]
  | .bySets sets => sets.map fun set => .aggregate entity (filters ++ set) aggregation

/-- What is asked for the aggregates of a field: for what it adds, then for what it subtracts if it does. -/
def Context.queries (context : Context) (c : Computation) : List Query :=
  let about filters := (context.groupingOf c).queries context.entity filters ⟨c.method, c.field⟩
  about (context.debitFilters c) ++ ((context.creditFilters? c).map about).getD []

namespace Source

/-- The aggregates of all groups, as the source has them. -/
def totals (s : Source) (entity : String) (filters : FilterSet) (grouping : Grouping) (aggregation : Aggregation) :
    Except SourceError Totals :=
  match grouping with
  | .none => (s.aggregate entity filters aggregation).map .single
  | .byPath path => (s.groupAggregate entity filters path aggregation).map .byKey
  | .bySets sets => (sets.mapM fun set => s.aggregate entity (filters ++ set) aggregation).map .byPosition

/-- The aggregates of a field in a context, as the source has them. -/
def aggregates (s : Source) (context : Context) (c : Computation) : Except SourceError Aggregates :=
  let about filters := s.totals context.entity filters (context.groupingOf c) ⟨c.method, c.field⟩
  match context.creditFilters? c with
  | some filters => do return ⟨← about (context.debitFilters c), some (← about filters)⟩
  | none => (about (context.debitFilters c)).map fun debit => ⟨debit, none⟩

theorem asks_totals (s : Source) (entity : String) (filters : FilterSet) (grouping : Grouping)
    (aggregation : Aggregation) :
    Session.Asks (s.askTotals entity filters grouping aggregation) (s.totals entity filters grouping aggregation)
      (grouping.queries entity filters aggregation) := by
  cases grouping with
  | none => exact Session.asks_map _ (Session.asks_ask _ _)
  | byPath path => exact Session.asks_map _ (Session.asks_ask _ _)
  | bySets sets => exact Session.asks_map _ (Session.asks_mapM (fun set => Session.asks_ask _ _) sets)

theorem asks_aggregates (s : Source) (context : Context) (c : Computation) :
    Session.Asks (s.askAggregates context c) (s.aggregates context c) (context.queries c) := by
  unfold askAggregates aggregates Context.queries
  cases context.creditFilters? c with
  | none =>
    simp only [Option.map_none, Option.getD_none, List.append_nil]
    exact Session.asks_map _ (asks_totals _ _ _ _ _)
  | some filters =>
    simp only [Option.map_some, Option.getD_some]
    refine Session.asks_bind (asks_totals _ _ _ _ _) fun debit => ?_
    rw [← List.append_nil (Grouping.queries ..)]
    exact Session.asks_bind (asks_totals _ _ _ _ _) fun credit => Session.asks_pure _

end Source
end Reporting
