import Reporting.Proofs.Computation.Share
import Reporting.Proofs.Report.Grouped

/-!
Shares of the balance in reports. The column of shares sets the balance of a row against the movement of all rows,
not against their balance: what was there before the dates of the report is in the part but not in the whole
(`Report.share_eq`, `Report.clientShare_exceeds`).
-/

namespace Reporting
open Calendar

/-- The context for all groups together. -/
def Context.whole (context : Context) : Context :=
  { context with grouping := .none }

/-- A settled instance of the share takes the balance of each group from the movement and the opening balance, and
the whole from the movement of all groups together. -/
theorem Instance.Settled.cell_share {s : Source} {w : Workspace} {context : Context} {i : Instance}
    (settled : i.Settled s w context) (tree : i.tree = Builtin.shareTree) (dated : context.dateField.isSome) :
    ∃ moved opened whole, s.aggregates context Builtin.balance = .ok moved ∧
      s.aggregates context Builtin.openingBalance = .ok opened ∧
      s.aggregates context.whole Builtin.balance = .ok whole ∧
      ∀ group row, i.cell w group row =
        .ok (Builtin.percentage (moved.net group + opened.net group) (whole.net .all)) := by
  have answered := settled.answered
  rw [tree] at answered
  obtain ⟨whole, all⟩ := answered Builtin.percentToTotalBalance
    (by simp [Builtin.shareTree, FieldTree.fields])
  obtain ⟨moved, movement⟩ := answered Builtin.balance
    (by simp [Builtin.shareTree, Builtin.balanceTree, FieldTree.fields, FieldTree.fieldsOf])
  obtain ⟨opened, opening⟩ := answered Builtin.openingBalance
    (by simp [Builtin.shareTree, Builtin.balanceTree, Builtin.openingTree, FieldTree.fields, FieldTree.fieldsOf])
  refine ⟨moved, opened, whole, movement, opening, all, fun group row => ?_⟩
  -- The share groups nothing, so its aggregates are the same for every group.
  rw [settled.cell_eq, tree, Builtin.value_shareTree all movement opening dated row, Source.net_single rfl all group .all]

namespace Report
variable {s : Source} {o : ReportOptions} {now : DateTime} {report : Report} {w after : Workspace}

/-- A share is the row's balance as a percentage of the movement of all rows. It is the percentage of the balance of
all rows exactly where the two percentages are the same, so wherever the opening balance of all rows is zero. -/
theorem share_eq (built : o.build s now w = (.ok report, after)) (defaults : o.registry = .withDefaults)
    (dated : o.dateField.isSome)
    (builtin : ∀ c ∈ Column.computed report.shape.columns, c.computation ∈ Builtin.all)
    (told : ∀ a ∈ Column.computed report.shape.columns, ∀ b ∈ Column.computed report.shape.columns, a.name = b.name →
      a.column.window = b.column.window ∧ a.column.bucket = b.column.bucket)
    {c : ComputedColumn} (member : c ∈ Column.computed report.shape.columns)
    (share : c.computation = Builtin.percentToTotalBalance) (base : BaseRow) :
    let context := c.context report.shape.context report.shape.crosstab
    let signed := fun v : Value => if o.swapSign then v.negate else v
    ∃ part moved : Float,
      (∀ row, Instance.cellAlone o.registry s context Builtin.balance base.group row = .ok (.float part)) ∧
      (∀ row, Instance.cellAlone o.registry s context.whole Builtin.total .all row = .ok (.float moved)) ∧
      (∀ row, report.cell base row c.column = .ok (signed (Builtin.percentage part moved))) ∧
      ∀ opening : Float,
        (∀ row, Instance.cellAlone o.registry s context.whole Builtin.openingBalance .all row = .ok (.float opening)) →
        (∀ row, Instance.cellAlone o.registry s context.whole Builtin.balance .all row =
          .ok (.float (moved + opening))) ∧
        ((∀ row, report.cell base row c.column = .ok (signed (Builtin.percentage part (moved + opening)))) ↔
          signed (Builtin.percentage part moved) = signed (Builtin.percentage part (moved + opening))) ∧
        (opening = 0 → Builtin.percentage part (moved + opening) = Builtin.percentage part moved) := by
  obtain ⟨rows, between, shaped, _, planned, _, rfl⟩ := ReportOptions.build_eq_ok built
  obtain ⟨scope, produced⟩ := ReportOptions.shape_produced shaped
  rw [defaults] at planned ⊢
  have families := ComputedColumn.families_of_produced produced fun d inside => Builtin.covers (builtin d inside)
  obtain ⟨i, provided, settled, same, unfolds⟩ :=
    Plan.provides_of_build families (ReportOptions.shape_apart shaped told) planned member
  have tree : i.tree = Builtin.shareTree := by
    refine unfolds.eq_of_root_eq Builtin.unfolds_shareTree ?_
    rw [Instance.root_tree, same, share]
    rfl
  intro context signed
  have dates : context.dateField.isSome := by
    obtain ⟨range, same⟩ := ReportOptions.shape_context shaped
    have field : report.shape.context.dateField = report.options.dateField := congrArg Context.dateField same
    show report.shape.context.dateField.isSome
    rw [field]
    exact dated
  have datesWhole : context.whole.dateField.isSome := dates
  obtain ⟨b, f, p, moved, opened, movedWhole, takes⟩ := settled.cell_share tree dates
  have cells : ∀ row, report.cell base row c.column =
      .ok (signed (Builtin.percentage (b.net base.group + f.net base.group) (p.net .all))) := by
    intro row
    have source := Column.source_of_computation? (Column.mem_computed.1 member).2
    unfold cell
    rw [source]
    dsimp only
    rw [Plan.cell_of_provider? provided, takes]
    rfl
  refine ⟨b.net base.group + f.net base.group, p.net .all, Builtin.cellAlone_balance moved opened dates,
    Builtin.cellAlone_total movedWhole, cells, fun opening alone => ?_⟩
  obtain ⟨before, openedWhole, value⟩ := Builtin.opened_of_cellAlone datesWhole (alone .empty)
  cases value
  refine ⟨Builtin.cellAlone_balance movedWhole openedWhole datesWhole, ⟨fun promised => ?_, fun agrees row => ?_⟩, ?_⟩
  · have first := promised .empty
    rw [cells] at first
    exact Except.ok.inj first
  · rw [cells row, agrees]
  · intro nothing
    rw [nothing]
    exact Builtin.percentage_add_zero ..

/-- The first client has four fifths of the balance and twice the movement of the year: a share of 200 percent. -/
theorem clientShare_exceeds : ∃ report after, Sales.byClient.build Sales.memory.source Sales.year.start .empty =
      (.ok report, after) ∧ ∃ base ∈ report.baseRows,
    let context := Sales.share.context report.shape.context report.shape.crosstab
    (∀ row, Instance.cellAlone .withDefaults Sales.memory.source context Builtin.balance base.group row =
      .ok (.float 40)) ∧
    (∀ row, Instance.cellAlone .withDefaults Sales.memory.source context.whole Builtin.balance .all row =
      .ok (.float 50)) ∧
    Builtin.percentage 40 50 = .float 80 ∧ ∀ row, report.cell base row Sales.share.column = .ok (.float 200) := by
  obtain ⟨report, after, built, shape, rows⟩ := Sales.built
  refine ⟨report, after, built, .ofCell "client" (.int 1), by rw [rows]; exact List.mem_cons_self .., ?_⟩
  have member : Sales.share ∈ Column.computed report.shape.columns := by
    rw [shape]
    exact Sales.mem_columns.2 (Or.inr rfl)
  obtain ⟨part, moved, balance, movement, cells, opened⟩ := share_eq built rfl rfl (by rw [shape]; exact Sales.builtin)
    (by rw [shape]; exact Sales.told) member rfl (.ofCell "client" (.int 1))
  rw [shape] at balance movement opened ⊢
  have forty : ∀ row, Instance.cellAlone .withDefaults Sales.memory.source (Sales.byClient.context Sales.year)
      Builtin.balance (.key "1") row = .ok (.float 40) :=
    fun row => (Builtin.cellAlone_balance rfl rfl rfl row).trans rfl
  have twenty : ∀ row, Instance.cellAlone .withDefaults Sales.memory.source (Sales.byClient.context Sales.year).whole
      Builtin.total .all row = .ok (.float 20) :=
    fun row => (Builtin.cellAlone_total rfl row).trans rfl
  have thirty : ∀ row, Instance.cellAlone .withDefaults Sales.memory.source (Sales.byClient.context Sales.year).whole
      Builtin.openingBalance .all row = .ok (.float 30) :=
    fun row => (Builtin.cellAlone_openingBalance rfl rfl row).trans rfl
  obtain rfl : part = 40 := Value.float.inj (Except.ok.inj ((balance .empty).symm.trans (forty .empty)))
  obtain rfl : moved = 20 := Value.float.inj (Except.ok.inj ((movement .empty).symm.trans (twenty .empty)))
  have fifty : (20 : Float) + 30 = 50 := by decide +kernel
  have shares : Builtin.percentage 40 50 = .float 80 ∧ Builtin.percentage 40 20 = .float 200 := by decide +kernel
  obtain ⟨whole, _⟩ := opened 30 thirty
  rw [fifty] at whole
  refine ⟨forty, whole, shares.1, fun row => ?_⟩
  rw [cells row, ← shares.2]
  rfl

end Report
end Reporting
