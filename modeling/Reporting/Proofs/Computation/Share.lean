import Reporting.Proofs.Computation.Builtin
import Reporting.Proofs.Computation.Preparing
import Reporting.Proofs.Floats
import Reporting.Proofs.Results

/-!
The share of the balance. Its cell is the balance of the group as a percentage of the movement of all groups
(`Builtin.value_shareTree`), which the balance of all groups only is where there was none before
(`Builtin.percentage_add_zero`).
-/

namespace Reporting

namespace Instance

/-- The cell of a field that is prepared alone, in a new workspace. -/
def cellAlone (r : Registry) (s : Source) (context : Context) (c : Computation) (group : GroupKey)
    (row : Row := .empty) : Except ReportError Value :=
  match prepareAlone r s context c .empty with
  | (.ok i, w) => i.cell w group row
  | (.error e, _) => .error e

/-- A field alone has the cell that the source's aggregates give, unless the source fails for a field that it takes. -/
theorem cellAlone_cases {r : Registry} (s : Source) (context : Context) {t : FieldTree} (unfolds : t.Unfolds r [])
    (covers : r.Covers t.root) (group : GroupKey) (row : Row) :
    cellAlone r s context t.root group row = t.value s context group row ∨
      ∃ e, cellAlone r s context t.root group row = .error e ∧
        ∃ d ∈ t.fields, ∃ cause, s.aggregates context d = .error cause := by
  unfold cellAlone
  rcases prepareAlone_settled s context unfolds covers .empty with
    ⟨i, w, ran, settled, rfl⟩ | ⟨e, w, ran, failed⟩
  · rw [ran]
    exact Or.inl (settled.cell_eq group row)
  · rw [ran]
    exact Or.inr ⟨e, rfl, failed⟩

theorem cellAlone_eq {r : Registry} {s : Source} {context : Context} {t : FieldTree} (unfolds : t.Unfolds r [])
    (covers : r.Covers t.root) (answered : ∀ d ∈ t.fields, ∃ a, s.aggregates context d = .ok a) (group : GroupKey)
    (row : Row) : cellAlone r s context t.root group row = t.value s context group row := by
  rcases cellAlone_cases s context unfolds covers group row with same | ⟨_, _, d, inside, cause, failed⟩
  · exact same
  · obtain ⟨a, found⟩ := answered d inside
    rw [failed] at found
    cases found

end Instance

/-- What is added less what is subtracted. -/
def Aggregates.net (a : Aggregates) (group : GroupKey) : Float :=
  a.debitOf group - a.creditOf group

namespace Source
variable {s : Source} {context : Context} {c : Computation} {a : Aggregates}

theorem ofGroup_single {entity : String} {filters : FilterSet} {aggregation : Aggregation} {totals : Totals}
    (found : s.totals entity filters .none aggregation = .ok totals) (group other : GroupKey) :
    totals.ofGroup group = totals.ofGroup other := by
  obtain ⟨total, _, rfl⟩ := Results.map_eq_ok_iff.1 found
  rfl

/-- Without groups all rows have the same. -/
theorem net_single (whole : context.groupingOf c = .none) (found : s.aggregates context c = .ok a)
    (group other : GroupKey) : a.net group = a.net other := by
  unfold aggregates at found
  rw [whole] at found
  unfold Aggregates.net Aggregates.debitOf Aggregates.creditOf
  cases side : context.creditFilters? c with
  | none =>
    rw [side] at found
    obtain ⟨debit, answered, rfl⟩ := Results.map_eq_ok_iff.1 found
    rw [ofGroup_single answered group other]
  | some filters =>
    rw [side] at found
    obtain ⟨debit, answered, found⟩ := Results.bind_eq_ok_iff.1 found
    obtain ⟨credit, answeredCredit, found⟩ := Results.bind_eq_ok_iff.1 found
    cases found
    dsimp only
    rw [ofGroup_single answered group other, ofGroup_single answeredCredit group other]

end Source

namespace Builtin

/-- The part as a percentage of the whole, missing where there is no whole. -/
def percentage (part whole : Float) : Value :=
  if whole == 0 then .null else .float (part / whole * 100)

theorem percentage_add_zero (part whole : Float) : percentage part (whole + 0) = percentage part whole := by
  rcases Floats.add_zero_or whole with same | ⟨zero, still⟩
  · rw [same]
  · unfold percentage
    rw [zero, still, if_pos rfl, if_pos rfl]

variable {s : Source} {context : Context} {a b c : Aggregates} {group : GroupKey}

theorem value_openingTree (found : s.aggregates context openingBalance = .ok a) (dated : context.dateField.isSome)
    (row : Row) : openingTree.value s context group row = .ok (.float (a.net group)) := by
  simp only [openingTree, FieldTree.value, FieldTree.values, found, dated]
  rfl

/-- The balance is the movement on top of the opening balance. -/
theorem value_balanceTree (moved : s.aggregates context balance = .ok a)
    (opened : s.aggregates context openingBalance = .ok b) (dated : context.dateField.isSome) (row : Row) :
    balanceTree.value s context group row = .ok (.float (a.net group + b.net group)) := by
  simp only [balanceTree, FieldTree.value, FieldTree.values, moved, value_openingTree opened dated row]
  rfl

theorem value_shareTree (whole : s.aggregates context percentToTotalBalance = .ok c)
    (moved : s.aggregates context balance = .ok a) (opened : s.aggregates context openingBalance = .ok b)
    (dated : context.dateField.isSome) (row : Row) :
    shareTree.value s context group row = .ok (percentage (a.net group + b.net group) (c.net group)) := by
  simp only [shareTree, FieldTree.value, FieldTree.values, whole, value_balanceTree moved opened dated row]
  show (if c.net group == 0 then Except.ok Value.null
    else .ok (.float ((a.net group + b.net group) / c.net group * 100))) = _
  unfold percentage
  split <;> rfl

/-- The movement takes the same records as what is added and what is subtracted alone. -/
theorem value_totalTree (moved : s.aggregates context balance = .ok a) (row : Row) :
    totalTree.value s context group row = .ok (.float (a.net group)) := by
  have total : s.aggregates context total = .ok a := moved
  have debit : s.aggregates context debit = .ok a := moved
  have credit : s.aggregates context credit = .ok a := moved
  simp only [totalTree, FieldTree.value, FieldTree.values, total, debit, credit]
  rfl

/-! ## The fields alone -/

theorem cellAlone_total (moved : s.aggregates context balance = .ok a) (row : Row) :
    Instance.cellAlone .withDefaults s context total group row = .ok (.float (a.net group)) := by
  rw [← value_totalTree moved row]
  refine Instance.cellAlone_eq unfolds_totalTree (covers (by simp [all, totalTree, FieldTree.root])) ?_ group row
  intro d inside
  refine ⟨a, ?_⟩
  simp only [totalTree, FieldTree.fields, FieldTree.fieldsOf, List.append_nil, List.cons_append, List.nil_append,
    List.mem_cons, List.not_mem_nil, or_false] at inside
  rcases inside with rfl | rfl | rfl <;> exact moved

theorem cellAlone_balance (moved : s.aggregates context balance = .ok a)
    (opened : s.aggregates context openingBalance = .ok b) (dated : context.dateField.isSome) (row : Row) :
    Instance.cellAlone .withDefaults s context balance group row = .ok (.float (a.net group + b.net group)) := by
  rw [← value_balanceTree moved opened dated row]
  refine Instance.cellAlone_eq (unfolds_balanceTree List.not_mem_nil List.not_mem_nil)
    (covers (by simp [all, balanceTree, FieldTree.root])) ?_ group row
  intro d inside
  simp only [balanceTree, openingTree, FieldTree.fields, FieldTree.fieldsOf, List.append_nil, List.mem_cons,
    List.not_mem_nil, or_false] at inside
  rcases inside with rfl | rfl
  · exact ⟨a, moved⟩
  · exact ⟨b, opened⟩

theorem cellAlone_openingBalance (opened : s.aggregates context openingBalance = .ok b)
    (dated : context.dateField.isSome) (row : Row) :
    Instance.cellAlone .withDefaults s context openingBalance group row = .ok (.float (b.net group)) := by
  rw [← value_openingTree opened dated row]
  refine Instance.cellAlone_eq (unfolds_openingTree List.not_mem_nil)
    (covers (by simp [all, openingTree, FieldTree.root])) ?_ group row
  intro d inside
  rw [openingTree, FieldTree.fields, FieldTree.fieldsOf, List.mem_singleton] at inside
  rw [inside]
  exact ⟨b, opened⟩

theorem opened_of_cellAlone (dated : context.dateField.isSome) {row : Row} {v : Value}
    (alone : Instance.cellAlone .withDefaults s context openingBalance group row = .ok v) :
    ∃ b, s.aggregates context openingBalance = .ok b ∧ v = .float (b.net group) := by
  have known : Registry.withDefaults.Covers openingTree.root := covers (by simp [all, openingTree, FieldTree.root])
  rcases Instance.cellAlone_cases s context (unfolds_openingTree List.not_mem_nil) known group row with
    same | ⟨_, failed, _⟩
  · have value : openingTree.value s context group row = .ok v := same.symm.trans alone
    cases opened : s.aggregates context openingBalance with
    | ok b =>
      rw [value_openingTree opened dated] at value
      cases value
      exact ⟨b, rfl, rfl⟩
    | error cause =>
      rw [openingTree, FieldTree.value, opened] at value
      cases value
  · cases failed.symm.trans alone

end Builtin
end Reporting
