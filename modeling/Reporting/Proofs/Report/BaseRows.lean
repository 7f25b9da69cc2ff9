import Reporting.Proofs.Computation.Requery
import Reporting.Proofs.Keys
import Reporting.Proofs.Report.Shapes
import Reporting.Report.Basic

/-!
What the rows of a report are made from, over tables in memory. The records of a row's group are those that the
row's restriction picks: the row's own filter set, or the cell at the path of the groups (`BaseRow.ask_picks`).
-/

namespace Reporting

/-- The cells at the path are integers or missing; so are the primary keys of the rows that the path leads to. -/
structure Memory.IntegralAt (m : Memory) (entity path : String) : Prop where
  cells : ∀ place, m.schema.resolve entity path = .ok place →
    ∀ record ∈ (m.tableOf entity).rows.toList, (m.cellAt record place).isIntOrNull
  keys : ∀ place target e, m.schema.resolve entity path = .ok place → place.target? = some target →
    m.schema.entity target = .ok e → ∀ row ∈ (m.tableOf target).rows.toList, (row.cell e.primaryKey).isIntOrNull

/-- Where the primary key is among what is read of the related records, an integer or nothing is read at its path. -/
def Memory.ReadsIntegralKeys (m : Memory) (target : String) (fields : List String) : Prop :=
  ∀ e places place, m.schema.entity target = .ok e → m.resolveFields target fields = .ok places →
    (e.primaryKey, place) ∈ places → ∀ row ∈ (m.tableOf target).rows.toList, (m.cellAt row place).isIntOrNull

namespace ReportOptions

theorem groupPath_eq_ok {o : ReportOptions} {schema : Schema} {path : String} {found : Option ResolvedPath}
    (split : o.groupBy = some path) (led : o.groupPath schema = .ok found) :
    ∃ place, schema.resolve o.entity path = .ok place ∧ found = some place := by
  unfold groupPath at led
  rw [split] at led
  dsimp only at led
  split at led
  · rename_i place resolved
    cases led
    exact ⟨place, resolved, rfl⟩
  · cases led

/-- Without groups, or by a path to no relation, no related rows are shown. -/
theorem relatedEntity_eq_none {o : ReportOptions} {schema : Schema} {shape : Shape} {now : Calendar.DateTime}
    (shaped : o.shape schema now = .ok shape) (direct : ∀ path, o.groupBy = some path →
      ∃ place, schema.resolve o.entity path = .ok place ∧ place.isRelation = false) : shape.relatedEntity = none := by
  obtain ⟨groupPath, _, parts⟩ := shape_eq_ok shaped
  have led := parts.led
  rw [parts.relatedEntity]
  cases split : o.groupBy with
  | none =>
    unfold ReportOptions.groupPath at led
    rw [split] at led
    cases led
    rfl
  | some path =>
    obtain ⟨place, resolved, rfl⟩ := groupPath_eq_ok split led
    obtain ⟨place', resolved', plain⟩ := direct path split
    obtain rfl : place = place' := Except.ok.inj (resolved.symm.trans resolved')
    simp [relatedEntity, plain]

end ReportOptions

namespace BaseRow

/-- The cell that the group of a row is for: the primary key of a related row, else the cell at the path. -/
def groupCell (base : BaseRow) (schema : Schema) (related : Option String) (path : String) : Value :=
  match related with
  | none => base.record.cell path
  | some target =>
    match schema.entity target with
    | .ok e => base.record.cell e.primaryKey
    | .error _ => .null

/-- What the records of the row's group pass and no others do: the row's filter set, or the test for its
cell at the path of the groups. -/
def restriction (base : BaseRow) (o : ReportOptions) (schema : Schema) (shape : Shape) : FilterSet :=
  match base.group, o.groupBy with
  | .index i, _ => o.groupSets[i]?.getD []
  | .key _, some path => [.only path (base.groupCell schema shape.relatedEntity path)]
  | _, _ => []

variable {m : Memory} {o : ReportOptions} {shape : Shape} {base : BaseRow} {rows : List BaseRow} {w w' : Workspace}

/-- Testing for the cell of a group picks the group. -/
theorem picks_only {entity path : String} {place : ResolvedPath} {v : Value}
    (resolved : m.schema.resolve entity path = .ok place)
    (cells : ∀ record ∈ (m.tableOf entity).rows.toList, (m.cellAt record place).isIntOrNull) (hv : v.isIntOrNull) :
    m.Picks entity (.byPath path) (.key v.key) [.only path v] := by
  have tested : m.resolveFilters entity [.only path v] = .ok [(place, .only path v)] := by
    refine Memory.resolveFilters_cons_eq_ok_iff.2 ⟨place, [], ?_, rfl, rfl⟩
    rw [Predicate.path_only, resolved]
  refine .key resolved tested fun record member => ?_
  rw [← Predicate.accepts_only path hv (cells record member)]
  simp [Memory.passes]

theorem ofSets_picks (member : base ∈ ofSets o.groupSets.length) (split : o.groupSets ≠ []) :
    m.Picks o.entity o.grouping base.group (base.restriction o m.schema shape) := by
  obtain ⟨i, inside, rfl⟩ := List.mem_map.1 member
  have below := List.mem_range.1 inside
  have grouping : o.grouping = .bySets o.groupSets := by
    unfold ReportOptions.grouping
    rw [if_neg (by simpa using split)]
  rw [grouping]
  refine .set ?_
  simp [restriction, below]

/-- The rows of a related entity are for the keys of its rows. -/
theorem askRelated_key {path target : String} (asked : askRelated o shape m.source path target w = (.ok rows, w'))
    (member : base ∈ rows) : ∃ e v, m.schema.entity target = .ok e ∧ base.group = .key v.key ∧
      base.record.cell e.primaryKey = v ∧ ∃ row ∈ (m.tableOf target).rows.toList,
        v = row.cell e.primaryKey ∨ ∃ places place, m.resolveFields target shape.recordFields = .ok places ∧
          (e.primaryKey, place) ∈ places ∧ v = m.cellAt row place := by
  unfold askRelated at asked
  obtain ⟨e, _, known, asked⟩ := Session.bind_eq_ok asked
  obtain ⟨ids, between, asked⟩ : ∃ ids between, (do
      let records ← m.source.askRelated target ids shape.recordFields
      return records.map (ofRelated e.primaryKey) : Session (List BaseRow)) between = (.ok rows, w') := by
    dsimp only at asked
    split at asked
    · obtain ⟨ids, between, _, asked⟩ := Session.bind_eq_ok asked
      exact ⟨ids, between, asked⟩
    · obtain ⟨cells, _, _, asked⟩ := Session.bind_eq_ok asked
      obtain ⟨ids, between, _, asked⟩ := Session.bind_eq_ok asked
      exact ⟨ids, between, asked⟩
  obtain ⟨records, after, answered, asked⟩ := Session.bind_eq_ok asked
  cases asked
  have known : m.schema.entity target = .ok e := Results.eq_ok_of_mapError (Session.ofExcept_eq_ok known).1
  have related : m.relatedRows target ids shape.recordFields = .ok records := Session.ask_eq_ok answered
  obtain ⟨record, inside, rfl⟩ := List.mem_map.1 member
  obtain ⟨v, has, row, inTable, source⟩ := Memory.key_of_mem_relatedRows related known inside
  refine ⟨e, v, known, ?_, ?_, row, inTable, source⟩
  · simp [ofRelated, has]
  · simp [ofRelated, Record.cell, has]

/-- A row that is made for a group has the group's cell, which is an integer or missing as those at the path are. -/
theorem ask_groupCell {now : Calendar.DateTime} (shaped : o.shape m.schema now = .ok shape)
    (asked : ask o shape m.source w = (.ok rows, w')) (whole : o.groupSets = []) {path : String}
    (split : o.groupBy = some path) (integral : m.IntegralAt o.entity path)
    (reads : ∀ target, shape.relatedEntity = some target → m.ReadsIntegralKeys target shape.recordFields)
    (member : base ∈ rows) :
    base.group = .key (base.groupCell m.schema shape.relatedEntity path).key ∧
      (base.groupCell m.schema shape.relatedEntity path).isIntOrNull := by
  obtain ⟨_, _, parts⟩ := ReportOptions.shape_eq_ok shaped
  obtain ⟨place, resolved, rfl⟩ := ReportOptions.groupPath_eq_ok split parts.led
  unfold ask at asked
  rw [if_neg (by simp [whole]), split, parts.relatedEntity] at asked
  rw [parts.relatedEntity] at reads ⊢
  cases related : o.relatedEntity (some place) with
  | none =>
    rw [related] at asked
    obtain ⟨cells, between, answered, asked⟩ := Session.bind_eq_ok asked
    cases asked
    obtain ⟨cell, inside, rfl⟩ := List.mem_map.1 member
    obtain ⟨place', resolved', record, inTable, rfl⟩ :=
      Memory.exists_of_mem_distinctValues (Session.ask_eq_ok answered) inside
    have same : (ofCell path (m.cellAt record place')).record.cell path = m.cellAt record place' := by
      simp [ofCell, Record.cell, Keyed.ofList, Keyed.insertAll]
    simp only [groupCell, same]
    exact ⟨rfl, integral.cells place' resolved' record inTable⟩
  | some target =>
    rw [related] at asked
    obtain ⟨e, v, known, group, cell, row, inTable, source⟩ := askRelated_key asked member
    have points : place.target? = some target := by
      simp only [ReportOptions.relatedEntity] at related
      split at related
      · exact related
      · cases related
    simp only [groupCell, known, cell]
    refine ⟨group, ?_⟩
    rcases source with rfl | ⟨places, key, placed, among, rfl⟩
    · exact integral.keys place target e resolved points known row inTable
    · exact reads target related e places key known placed among row inTable

/-- Where the report is grouped by a path to no relation, there is a row for each of the different cells. -/
theorem ask_of_distinct {s : Source} {path : String} {cells : List Value} (whole : o.groupSets = [])
    (split : o.groupBy = some path) (unrelated : shape.relatedEntity = none)
    (found : s.distinctValues o.entity shape.rowFilters path = .ok cells) (w : Workspace) :
    ∃ after, ask o shape s w = (.ok (cells.map (ofCell path)), after) := by
  unfold ask
  rw [if_neg (by simp [whole]), split, unrelated]
  dsimp only
  have answered : s.askDistinct o.entity shape.rowFilters path w =
      (.ok cells, { w with queries := w.queries.push (.distinct o.entity shape.rowFilters path) }) := by
    unfold Source.askDistinct Session.ask
    rw [found]
    rfl
  rw [Session.bind_of_ok answered]
  exact ⟨_, rfl⟩

theorem ask_all (asked : ask o shape m.source w = (.ok rows, w')) (whole : o.groupSets = []) (single : o.groupBy = none)
    (member : base ∈ rows) : base.group = .all := by
  unfold ask at asked
  rw [if_neg (by simp [whole]), single] at asked
  dsimp only at asked
  split at asked
  · cases asked
    rw [List.mem_singleton.1 member]
  · obtain ⟨records, between, _, asked⟩ := Session.bind_eq_ok asked
    cases asked
    obtain ⟨record, _, rfl⟩ := List.mem_map.1 member
    rfl

/-- The restriction of a row picks the records of its group. -/
theorem ask_picks {now : Calendar.DateTime} (shaped : o.shape m.schema now = .ok shape)
    (asked : ask o shape m.source w = (.ok rows, w'))
    (integral : o.groupSets = [] → ∀ path, o.groupBy = some path → m.IntegralAt o.entity path)
    (reads : ∀ target, shape.relatedEntity = some target → m.ReadsIntegralKeys target shape.recordFields)
    (member : base ∈ rows) :
    m.Picks o.entity o.grouping base.group (base.restriction o m.schema shape) := by
  by_cases whole : o.groupSets = []
  · unfold restriction
    cases split : o.groupBy with
    | none =>
      have grouping : o.grouping = .none := by simp [ReportOptions.grouping, whole, split]
      rw [grouping, ask_all asked whole split member]
      exact .all .all
    | some path =>
      have grouping : o.grouping = .byPath path := by simp [ReportOptions.grouping, whole, split]
      obtain ⟨group, cell⟩ := ask_groupCell shaped asked whole split (integral whole path split) reads member
      obtain ⟨_, _, parts⟩ := ReportOptions.shape_eq_ok shaped
      obtain ⟨place, resolved, _⟩ := ReportOptions.groupPath_eq_ok split parts.led
      rw [grouping, group]
      exact picks_only resolved ((integral whole path split).cells place resolved) cell
  · have listed : rows = ofSets o.groupSets.length := by
      unfold ask at asked
      rw [if_pos (by simpa using whole)] at asked
      cases asked
      rfl
    exact ofSets_picks (listed ▸ member) whole

end BaseRow
end Reporting
