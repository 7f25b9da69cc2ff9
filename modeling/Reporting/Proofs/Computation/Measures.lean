import Reporting.Proofs.Computation.Share

/-!
Measures: fields of one quantity that take the same records. Whatever the source answers, the movement is what is
added less what is subtracted, and the balance is the movement on top of the opening balance
(`Measure.Lawful.total_eq`, `Measure.Lawful.balance_eq`): each cell is what the source's aggregates give for the tree
of its field, and those of a measure are told by the aggregates of the movement and of the opening balance alone.
-/

namespace Reporting

/-- The rule of the field refuses nothing: a field that it takes is among those required. -/
def Computation.Closed (c : Computation) : Prop :=
  match c.resolver with
  | .closingBalance part | .percentage part => part ∈ c.requirements.map Requirement.name
  | .custom _ => False
  | _ => True

theorem Computation.Closed.resolve {c : Computation} (closed : c.Closed) {i : Inputs}
    (there : i.dependencies.map Prod.fst = c.requirements.map Requirement.name) (row : Row) :
    ∃ v, c.resolve i row = .ok v := by
  have dependency : ∀ part ∈ c.requirements.map Requirement.name, ∃ v, i.dependency c.name part = .ok v := by
    intro part member
    rw [← there] at member
    obtain ⟨⟨name, v⟩, inside, rfl⟩ := List.mem_map.1 member
    unfold Inputs.dependency
    cases found : i.dependencies.lookup name with
    | some v => exact ⟨v, rfl⟩
    | none => exact absurd rfl (bne_iff_ne.1 (List.lookup_eq_none_iff.1 found _ inside))
  unfold Closed at closed
  unfold Computation.resolve
  split at closed
  · rename_i part rule
    obtain ⟨v, found⟩ := dependency part closed
    simp only [rule, found]
    exact ⟨_, rfl⟩
  · rename_i part rule
    obtain ⟨v, found⟩ := dependency part closed
    simp only [rule, found]
    split <;> exact ⟨_, rfl⟩
  · cases closed
  · split <;> first | exact ⟨_, rfl⟩ | simp_all

namespace Registry
variable {r : Registry}

theorem name_of_resolve {q : Requirement} {c : Computation} (means : r.resolve q = .ok c) : c.name = q.name := by
  cases q with
  | named name => exact (name_of_get means).1
  | direct given =>
    cases means
    rfl

theorem names_of_resolveAll {qs : List Requirement} {ds : List Computation} (means : r.resolveAll qs = .ok ds) :
    ds.map Computation.name = qs.map Requirement.name := by
  induction qs generalizing ds with
  | nil =>
    cases means
    rfl
  | cons q qs ih =>
    obtain ⟨c, cs, first, rest, rfl⟩ := resolveAll_cons_eq_ok_iff.1 means
    rw [List.map_cons, List.map_cons, name_of_resolve first, ih rest]

end Registry

namespace FieldTree
variable {r : Registry} {s : Source} {context : Context} {group : GroupKey} {row : Row}

theorem values_of_each {ts : List FieldTree} (each : ∀ t ∈ ts, ∃ v, t.value s context group row = .ok v) :
    ∃ cells, values s context group row ts = .ok cells ∧ cells.map Prod.fst = ts.map fun t => t.root.name := by
  induction ts with
  | nil => exact ⟨[], rfl, rfl⟩
  | cons t rest ih =>
    obtain ⟨v, first⟩ := each t (List.mem_cons_self ..)
    obtain ⟨cells, others, names⟩ := ih fun u member => each u (List.mem_cons_of_mem t member)
    refine ⟨(t.root.name, v) :: cells, ?_, ?_⟩
    · simp only [values, first, others]
    · rw [List.map_cons, List.map_cons, names]

/-- A tree of fields whose rules refuse nothing has a cell for every group if the source answers. -/
theorem Unfolds.value_ok {stack : List String} {t : FieldTree} (unfolds : t.Unfolds r stack)
    (closed : ∀ d ∈ t.fields, d.Closed) (answered : ∀ d ∈ t.fields, ∃ a, s.aggregates context d = .ok a) :
    ∃ v, t.value s context group row = .ok v := by
  induction unfolds with
  | @node stack c below fresh means _ ih =>
    have inside : ∀ t ∈ below, t.fields ⊆ (FieldTree.node c below).fields := by
      intro t member d among
      rw [fields, List.mem_cons, mem_fieldsOf]
      exact Or.inr ⟨t, member, among⟩
    have root : c ∈ (FieldTree.node c below).fields := root_mem_fields (.node c below)
    have each : ∀ t ∈ below, ∃ v, t.value s context group row = .ok v := fun t member =>
      ih t member (fun d among => closed d (inside t member among)) fun d among => answered d (inside t member among)
    obtain ⟨a, found⟩ := answered c root
    obtain ⟨cells, below_, names⟩ := values_of_each each
    have required := Registry.names_of_resolveAll means
    rw [List.map_map] at required
    simp only [value, found, below_]
    exact (closed c root).resolve (names.trans required) row

/-- What the cell of a tree comes from. -/
theorem value_eq_ok {c : Computation} {below : List FieldTree} {v : Value}
    (given : (node c below).value s context group row = .ok v) :
    ∃ a cells, s.aggregates context c = .ok a ∧ values s context group row below = .ok cells ∧
      c.resolve ⟨a.debitOf group, a.creditOf group, cells, context.dateField.isSome⟩ row = .ok v := by
  rw [value] at given
  split at given
  · cases given
  · rename_i a found
    split at given
    · cases given
    · rename_i cells below_
      exact ⟨a, cells, found, below_, given⟩

end FieldTree

/-- The field has the cell for the group, in some row: that of its tree, by the source's aggregates. -/
def Computation.Gives (r : Registry) (s : Source) (context : Context) (group : GroupKey) (c : Computation) (v : Value) :
    Prop :=
  ∃ t : FieldTree, t.root = c ∧ t.Unfolds r [] ∧ ∃ row, t.value s context group row = .ok v

theorem Computation.Gives.resolved {r : Registry} {s : Source} {context : Context} {group : GroupKey} {c : Computation}
    {v : Value} (given : c.Gives r s context group v) : ∃ a cells row, s.aggregates context c = .ok a ∧
      c.resolve ⟨a.debitOf group, a.creditOf group, cells, context.dateField.isSome⟩ row = .ok v := by
  obtain ⟨⟨c', below⟩, rfl : c' = _, _, row, given⟩ := given
  obtain ⟨a, cells, found, _, resolved⟩ := FieldTree.value_eq_ok given
  exact ⟨a, cells, row, found, resolved⟩

/-- What is added, what is subtracted, the movement, the movement before the dates of the report, and the balance. -/
structure Measure where
  debit : Computation
  credit : Computation
  total : Computation
  opening : Computation
  balance : Computation

namespace Measure

/-- The fields have the rules that they are named for, and but for the opening balance they take the same records. -/
structure Lawful (r : Registry) (μ : Measure) : Prop where
  debit : μ.debit.resolver = .debit
  credit : μ.credit.resolver = .credit
  total : μ.total.resolver = .net
  opening : μ.opening.resolver = .openingBalance
  balance : μ.balance.resolver = .closingBalance μ.opening.name
  required : r.resolveAll μ.balance.requirements = .ok [μ.opening]
  alike : ∀ c ∈ [μ.debit, μ.credit, μ.balance], ∀ (s : Source) context,
    s.aggregates context c = s.aggregates context μ.total

namespace Lawful
variable {r : Registry} {μ : Measure} {s : Source} {context : Context} {group : GroupKey} {v : Value}

theorem value_debit (h : μ.Lawful r) (given : μ.debit.Gives r s context group v) :
    ∃ a, s.aggregates context μ.total = .ok a ∧ v = .float (a.debitOf group) := by
  obtain ⟨a, cells, row, found, resolved⟩ := given.resolved
  rw [h.alike _ (by simp)] at found
  unfold Computation.resolve at resolved
  rw [h.debit] at resolved
  exact ⟨a, found, (Except.ok.inj resolved).symm⟩

theorem value_credit (h : μ.Lawful r) (given : μ.credit.Gives r s context group v) :
    ∃ a, s.aggregates context μ.total = .ok a ∧ v = .float (a.creditOf group) := by
  obtain ⟨a, cells, row, found, resolved⟩ := given.resolved
  rw [h.alike _ (by simp)] at found
  unfold Computation.resolve at resolved
  rw [h.credit] at resolved
  exact ⟨a, found, (Except.ok.inj resolved).symm⟩

theorem value_total (h : μ.Lawful r) (given : μ.total.Gives r s context group v) :
    ∃ a, s.aggregates context μ.total = .ok a ∧ v = .float (a.net group) := by
  obtain ⟨a, cells, row, found, resolved⟩ := given.resolved
  unfold Computation.resolve at resolved
  rw [h.total] at resolved
  exact ⟨a, found, (Except.ok.inj resolved).symm⟩

theorem value_opening (h : μ.Lawful r) (given : μ.opening.Gives r s context group v) :
    ∃ b, s.aggregates context μ.opening = .ok b ∧
      v = .float (if context.dateField.isSome then b.net group else 0) := by
  obtain ⟨b, cells, row, found, resolved⟩ := given.resolved
  unfold Computation.resolve at resolved
  rw [h.opening] at resolved
  exact ⟨b, found, (Except.ok.inj resolved).symm⟩

/-- The balance requires the opening balance, and its cell is the movement on top of that one's cell. -/
theorem value_balance (h : μ.Lawful r) (given : μ.balance.Gives r s context group v) :
    ∃ a before, s.aggregates context μ.total = .ok a ∧ μ.opening.Gives r s context group before ∧
      v = .float (a.net group + before.toFloat) := by
  obtain ⟨⟨c, below⟩, rfl : c = _, unfolds, row, given⟩ := given
  obtain ⟨a, cells, found, values, resolved⟩ := FieldTree.value_eq_ok given
  rw [h.alike _ (by simp)] at found
  cases unfolds with
  | node fresh means each =>
    rw [h.required] at means
    obtain ⟨t, rfl, root⟩ := List.map_eq_singleton_iff.1 (Except.ok.inj means).symm
    simp only [FieldTree.values, root] at values
    split at values
    · cases values
    · rename_i before opened
      cases values
      refine ⟨a, before, found, ⟨t, root, (each t (List.mem_singleton_self t)).mono (List.nil_subset _), row, opened⟩, ?_⟩
      unfold Computation.resolve at resolved
      rw [h.balance] at resolved
      simp only [Inputs.dependency, List.lookup_cons_self] at resolved
      exact (Except.ok.inj resolved).symm

/-- The movement is what is added less what is subtracted. -/
theorem total_eq (h : μ.Lawful r) {debit credit total : Float} (added : μ.debit.Gives r s context group (.float debit))
    (subtracted : μ.credit.Gives r s context group (.float credit))
    (moved : μ.total.Gives r s context group (.float total)) : total = debit - credit := by
  obtain ⟨a, found, same⟩ := h.value_total moved
  obtain ⟨a', found', same'⟩ := h.value_debit added
  obtain ⟨a'', found'', same''⟩ := h.value_credit subtracted
  obtain rfl : a = a' := Except.ok.inj (found.symm.trans found')
  obtain rfl : a = a'' := Except.ok.inj (found.symm.trans found'')
  cases same
  cases same'
  cases same''
  rfl

/-- The balance is what is added less what is subtracted, on top of the opening balance. -/
theorem balance_eq (h : μ.Lawful r) {debit credit opening balance : Float}
    (added : μ.debit.Gives r s context group (.float debit))
    (subtracted : μ.credit.Gives r s context group (.float credit))
    (opened : μ.opening.Gives r s context group (.float opening))
    (closed : μ.balance.Gives r s context group (.float balance)) : balance = (debit - credit) + opening := by
  obtain ⟨a, before, found, opened', same⟩ := h.value_balance closed
  obtain ⟨a', found', same'⟩ := h.value_debit added
  obtain ⟨a'', found'', same''⟩ := h.value_credit subtracted
  obtain rfl : a = a' := Except.ok.inj (found.symm.trans found')
  obtain rfl : a = a'' := Except.ok.inj (found.symm.trans found'')
  obtain ⟨b, opening_, there⟩ := h.value_opening opened
  obtain ⟨b', opening', there'⟩ := h.value_opening opened'
  obtain rfl : b = b' := Except.ok.inj (opening_.symm.trans opening')
  rw [there', ← there] at same
  cases same
  cases same'
  cases same''
  rfl

theorem opening_eq_zero (h : μ.Lawful r) (undated : context.dateField = none) {opening : Float}
    (opened : μ.opening.Gives r s context group (.float opening)) : opening = 0 := by
  obtain ⟨b, _, same⟩ := h.value_opening opened
  rw [undated] at same
  exact Value.float.inj same

end Lawful
end Measure

/-! ## The measures that are there to begin with -/

namespace Builtin

/-- The measure of values. -/
def values : Measure := ⟨debit, credit, total, openingBalance, balance⟩

/-- The measure of quantities. -/
def quantities : Measure := ⟨debitQuantity, creditQuantity, totalQuantity, openingQuantity, balanceQuantity⟩

theorem lawful {μ : Measure} (member : μ ∈ [values, quantities]) : μ.Lawful .withDefaults := by
  have required : ∀ c ∈ all, Registry.withDefaults.resolveAll [.named c.name] = .ok [c] :=
    fun c listed => Registry.resolveAll_cons_eq_ok_iff.2 ⟨_, _, get listed, rfl, rfl⟩
  simp only [List.mem_cons, List.not_mem_nil, or_false] at member
  rcases member with rfl | rfl
  · refine ⟨rfl, rfl, rfl, rfl, rfl, required openingBalance (by simp [all]), fun c among s context => ?_⟩
    simp only [values, List.mem_cons, List.not_mem_nil, or_false] at among
    rcases among with rfl | rfl | rfl <;> rfl
  · refine ⟨rfl, rfl, rfl, rfl, rfl, required openingQuantity (by simp [all]), fun c among s context => ?_⟩
    simp only [quantities, List.mem_cons, List.not_mem_nil, or_false] at among
    rcases among with rfl | rfl | rfl <;> rfl

theorem closed {c : Computation} (member : c ∈ all) : c.Closed := by
  simp only [all, List.mem_cons, List.not_mem_nil, or_false] at member
  rcases member with rfl | rfl | rfl | rfl | rfl | rfl | rfl | rfl | rfl | rfl | rfl
  all_goals first | exact trivial | exact List.mem_singleton_self _

theorem mem_all_of_reaches {c d : Computation} (member : c ∈ all) (reaches : Registry.withDefaults.Reaches c d) :
    d ∈ all := by
  rcases Registry.mem_of_get_put (covers member d reaches) with listed | absent
  · exact listed
  · cases absent

/-- Every field has a cell for every group if the source answers. -/
theorem value_ok {s : Source} {context : Context} {t : FieldTree} (unfolds : t.Unfolds .withDefaults [])
    (member : t.root ∈ all) (answered : ∀ d ∈ t.fields, ∃ a, s.aggregates context d = .ok a) (group : GroupKey)
    (row : Row) : ∃ v, t.value s context group row = .ok v :=
  unfolds.value_ok (fun _ inside => closed (mem_all_of_reaches member (unfolds.reaches inside))) answered

/-- All of them but the share, which can be missing, have numbers for cells. -/
theorem float_of_gives {r : Registry} {s : Source} {context : Context} {group : GroupKey} {c : Computation} {v : Value}
    (member : c ∈ all) (whole : c ≠ percentToTotalBalance) (given : c.Gives r s context group v) :
    ∃ x, v = .float x := by
  obtain ⟨a, cells, row, _, resolved⟩ := given.resolved
  unfold Computation.resolve at resolved
  split at resolved
  · exact ⟨_, (Except.ok.inj resolved).symm⟩
  · exact ⟨_, (Except.ok.inj resolved).symm⟩
  · exact ⟨_, (Except.ok.inj resolved).symm⟩
  · exact ⟨_, (Except.ok.inj resolved).symm⟩
  · split at resolved
    · exact ⟨_, (Except.ok.inj resolved).symm⟩
    · cases resolved
  · rename_i part rule
    -- only the share has this rule
    simp only [all, List.mem_cons, List.not_mem_nil, or_false] at member
    rcases member with rfl | rfl | rfl | rfl | rfl | rfl | rfl | rfl | rfl | rfl | rfl
    case inr.inr.inr.inr.inr.inl => exact absurd rfl whole
    all_goals cases rule
  · rename_i rule own
    have refuses := closed member
    unfold Computation.Closed at refuses
    rw [own] at refuses
    cases refuses

end Builtin
end Reporting
