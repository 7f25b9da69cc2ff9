import Reporting.Proofs.Report.Active

/-!
The rows of a report by a relation that lists empty ones. Of the filters at the path of the groups that name the values
they allow, the first one pins the rows to its values (`Report.pins_respected`). A test for the missing value pins nothing,
a later pin may allow less, and the limit counts the empty rows, too (`Report.pins_missed`).
-/

namespace Reporting
open Calendar

namespace Predicate
variable {p : Predicate} {path : String} {i : Int64}

/-- The predicate names the values that it allows at the path: a value that is not the missing one, or a list. -/
def Pins (p : Predicate) (path : String) : Prop :=
  p.path = path ∧ p.negated = false ∧
    ((∃ v, v ≠ .null ∧ p.condition = .exact v) ∨ ∃ values, p.condition = .within values)

theorem pinned?_eq_some_iff {values : List Value} :
    p.pinned? path = some values ↔ p.Pins path ∧ p.condition.operands = values := by
  obtain ⟨path', condition, negated⟩ := p
  unfold pinned? Pins
  dsimp only
  by_cases here : path' = path ∧ (!negated) = true
  · rw [if_pos here]
    obtain ⟨rfl, plain⟩ := here
    cases condition with
    | exact v => cases v <;> simp_all [Condition.operands]
    | _ => simp_all [Condition.operands]
  · rw [if_neg here]
    simp_all

/-- Of integers, a pin accepts the values that it names. -/
theorem Pins.accepts_int_iff (pins : p.Pins path) (integral : ∀ v ∈ p.condition.operands, v.isIntOrNull) :
    p.accepts (.int i) = true ↔ .int i ∈ p.condition.operands := by
  obtain ⟨path', condition, negated⟩ := p
  obtain ⟨rfl, rfl, ⟨v, other, rfl⟩ | ⟨values, rfl⟩⟩ := pins
  · rw [Condition.operands, List.mem_singleton, ← Value.looselyEquals_int_iff (integral v (by simp [Condition.operands])) i]
    exact Bool.eq_iff_iff.1 (accepts_exact other path' (.int i))
  · simp only [accepts, Condition.accepts, Condition.operands, Value.isNull, Bool.not_false, Bool.true_and, Bool.bne_false,
      List.any_eq_true] at integral ⊢
    constructor
    · rintro ⟨v, member, same⟩
      rwa [(Value.looselyEquals_int_iff (integral v member) i).1 same]
    · exact fun member => ⟨_, member, (Value.looselyEquals_int_iff rfl i).2 rfl⟩

end Predicate

namespace FilterSet
variable {filters : FilterSet} {path : String}

/-- The predicate is the first one that pins the path. -/
def FirstPin (filters : FilterSet) (path : String) (p : Predicate) : Prop :=
  ∃ before after, filters = before ++ p :: after ∧ p.Pins path ∧ ∀ q ∈ before, ¬ q.Pins path

theorem FirstPin.mem {p : Predicate} (first : filters.FirstPin path p) : p ∈ filters := by
  obtain ⟨before, after, rfl, _⟩ := first
  simp

theorem not_pins_iff {p : Predicate} : ¬ p.Pins path ↔ p.pinned? path = none := by
  rw [Option.eq_none_iff_forall_ne_some]
  constructor
  · exact fun free values named => free (Predicate.pinned?_eq_some_iff.1 named).1
  · exact fun unnamed pins => unnamed _ (Predicate.pinned?_eq_some_iff.2 ⟨pins, rfl⟩)

/-- The values named are those of the first pin. -/
theorem pinned?_eq_some_iff {values : List Value} :
    filters.pinned? path = some values ↔ ∃ p, filters.FirstPin path p ∧ p.condition.operands = values := by
  unfold pinned? FirstPin
  rw [List.findSome?_eq_some_iff]
  constructor
  · rintro ⟨before, p, after, rfl, named, none_⟩
    obtain ⟨pins, operands⟩ := Predicate.pinned?_eq_some_iff.1 named
    exact ⟨p, ⟨before, after, rfl, pins, fun q member => not_pins_iff.2 (none_ q member)⟩, operands⟩
  · rintro ⟨p, ⟨before, after, rfl, pins, none_⟩, operands⟩
    exact ⟨before, p, after, rfl, Predicate.pinned?_eq_some_iff.2 ⟨pins, operands⟩,
      fun q member => not_pins_iff.1 (none_ q member)⟩

theorem firstPin_cons_iff {p q : Predicate} {rest : FilterSet} (pins : p.Pins path) :
    FirstPin (p :: rest) path q ↔ q = p := by
  constructor
  · rintro ⟨before, after, split, _, none_⟩
    rcases List.cons_eq_append_iff.1 split with ⟨rfl, same⟩ | ⟨before', rfl, _⟩
    · exact (List.cons.inj same).1
    · exact absurd pins (none_ p (List.mem_cons_self ..))
  · rintro rfl
    exact ⟨[], rest, rfl, pins, fun _ member => absurd member List.not_mem_nil⟩

theorem exists_firstPin {p : Predicate} (member : p ∈ filters) (pins : p.Pins path) : ∃ first, filters.FirstPin path first := by
  cases named : filters.pinned? path with
  | none => exact absurd pins (not_pins_iff.2 (List.findSome?_eq_none_iff.1 named p member))
  | some values =>
    obtain ⟨first, pinned, _⟩ := pinned?_eq_some_iff.1 named
    exact ⟨first, pinned⟩

end FilterSet

namespace Memory
variable {filters : FilterSet} {path primaryKey : String} {row : Record} {i : Int64}

/-- The records that are asked for are those that the first pin accepts, and all of them where nothing is pinned. -/
theorem wants_pinned_iff (operands : ∀ p ∈ filters, p.Pins path → ∀ v ∈ p.condition.operands, v.isIntOrNull)
    (key : row.cell primaryKey = .int i) :
    wants primaryKey (filters.pinned? path) row = true ↔ ∀ p, filters.FirstPin path p → p.accepts (.int i) = true := by
  have named_iff : ∀ p, filters.FirstPin path p →
      (wants primaryKey (some p.condition.operands) row = true ↔ p.accepts (.int i) = true) := by
    intro p first
    obtain ⟨_, _, _, pins, _⟩ := id first
    have integral := operands p first.mem pins
    rw [wants_iff_mem integral key, pins.accepts_int_iff integral]
  cases named : filters.pinned? path with
  | none =>
    refine iff_of_true rfl fun p first => ?_
    rw [FilterSet.pinned?_eq_some_iff.2 ⟨p, first, rfl⟩] at named
    cases named
  | some values =>
    obtain ⟨p, first, rfl⟩ := FilterSet.pinned?_eq_some_iff.1 named
    refine (named_iff p first).trans ⟨fun accepts q other => ?_, fun each => each p first⟩
    have same : p.condition.operands = q.condition.operands := by
      rw [FilterSet.pinned?_eq_some_iff.2 ⟨q, other, rfl⟩] at named
      exact (Option.some.inj named).symm
    rwa [← named_iff q other, ← same, named_iff p first]

/-- The records of an entity that filters pin at a path: those whose keys the first pin accepts, each once. Any pin that is
at least as wide as the first one accepts their keys, too. -/
structure PinnedBy (m : Memory) (filters : FilterSet) (path target primaryKey : String) (listed : List Record) : Prop where
  nodup : listed.Nodup
  mem_iff : ∀ row, row ∈ listed ↔ row ∈ (m.tableOf target).rows.toList ∧
    ∀ p, filters.FirstPin path p → p.accepts (row.cell primaryKey) = true
  wider : ∀ row ∈ listed, ∀ p ∈ filters, p.Pins path →
    (∀ first, filters.FirstPin path first → ∀ i, first.accepts (.int i) = true → p.accepts (.int i) = true) →
    p.accepts (row.cell primaryKey) = true

/-- What is asked for by the pinned values, in any order. -/
theorem pinnedBy_of_perm {m : Memory} {target : String} {listed : List Record}
    (keys : ((m.tableOf target).rows.toList.map fun row => row.cell primaryKey).Nodup)
    (ints : ∀ row ∈ (m.tableOf target).rows.toList, ∃ i, row.cell primaryKey = .int i)
    (operands : ∀ p ∈ filters, p.Pins path → ∀ v ∈ p.condition.operands, v.isIntOrNull)
    (perm : listed.Perm ((m.tableOf target).rows.toList.filter (wants primaryKey (filters.pinned? path)))) :
    m.PinnedBy filters path target primaryKey listed := by
  have listed_iff : ∀ row, row ∈ listed ↔ row ∈ (m.tableOf target).rows.toList ∧
      ∀ p, filters.FirstPin path p → p.accepts (row.cell primaryKey) = true := by
    intro row
    rw [perm.mem_iff, List.mem_filter]
    refine and_congr_right fun inTable => ?_
    obtain ⟨i, key⟩ := ints row inTable
    rw [key]
    exact wants_pinned_iff operands key
  refine ⟨perm.nodup_iff.2 ((List.Nodup.of_map _ keys).filter _), listed_iff, ?_⟩
  intro row member p among pins wider
  obtain ⟨inTable, accepted⟩ := (listed_iff row).1 member
  obtain ⟨i, key⟩ := ints row inTable
  rw [key] at accepted ⊢
  obtain ⟨first, pinned⟩ := FilterSet.exists_firstPin among pins
  exact wider first pinned i (accepted first pinned)

end Memory

namespace BaseRow
variable {m : Memory} {target : String} {e : Entity} {fields : List String} {places : List (String × ResolvedPath)}

/-- The row of a related record whose primary key is read as it is. -/
theorem map_ofRelated (keeps : m.KeepsKey target fields) (known : m.schema.entity target = .ok e)
    (placed : m.resolveFields target fields = .ok places) {rows : List Record}
    (inside : rows ⊆ (m.tableOf target).rows.toList) :
    (rows.map (m.projectRelated e.primaryKey places)).map (ofRelated e.primaryKey) =
      rows.map fun row => ⟨.key (row.cell e.primaryKey).key, m.projectRelated e.primaryKey places row⟩ := by
  rw [List.map_map]
  refine List.map_congr_left fun row member => ?_
  have key := Memory.get?_projectRelated_of_cell
    fun place among => keeps e places place known placed among row (inside member)
  simp [ofRelated, key]

end BaseRow

namespace Report
variable {m : Memory} {o : ReportOptions} {now : DateTime} {report : Report} {w after : Workspace} {path target : String}
  {place : ResolvedPath} {e : Entity}

/-- A row of a report that lists no empty ones is for a related record that a record of the report points to. -/
theorem pointed_of_mem_baseRows (built : o.build m.source now w = (.ok report, after)) (whole : o.groupSets = [])
    (split : o.groupBy = some path) (hidden : o.showEmpty = false) (resolved : m.schema.resolve o.entity path = .ok place)
    (relation : place.isRelation) (points : place.target? = some target) (known : m.schema.entity target = .ok e)
    (keys : ((m.tableOf target).rows.toList.map fun row => row.cell e.primaryKey).Nodup)
    (ints : ∀ row ∈ (m.tableOf target).rows.toList, ∃ i, row.cell e.primaryKey = .int i)
    (integral : ∀ record ∈ (m.tableOf o.entity).rows.toList, (m.cellAt record place).isIntOrNull)
    (keeps : m.KeepsKey target report.shape.recordFields) {places : List (String × ResolvedPath)}
    (placed : m.resolveFields target report.shape.recordFields = .ok places) {base : BaseRow}
    (member : base ∈ report.baseRows) :
    ∃ row ∈ (m.tableOf target).rows.toList,
      base = ⟨.key (row.cell e.primaryKey).key, m.projectRelated e.primaryKey places row⟩ ∧
      ∃ records, m.matching o.entity report.shape.rowFilters = .ok records ∧
        ∃ record ∈ records, m.cellAt record place = row.cell e.primaryKey := by
  obtain ⟨rows, _, _, asked, limited⟩ := ReportOptions.askRelated_of_limited built whole split resolved relation points
  obtain ⟨e', ids, found, known', answered, made, which⟩ := BaseRow.askRelated_names asked
  obtain rfl : e = e' := Except.ok.inj (known.symm.trans known')
  obtain ⟨_, cells, distinct, rfl⟩ := which.resolve_left fun shown => by
    rw [hidden] at shown
    cases shown.1
  obtain ⟨e', places', known', placed', rfl⟩ := Memory.relatedRows_eq_ok_iff.1 answered
  obtain rfl : e = e' := Except.ok.inj (known.symm.trans known')
  obtain rfl : places = places' := Except.ok.inj (placed.symm.trans placed')
  obtain ⟨records, matched⟩ := Memory.matching_of_distinctValues distinct
  have cells_ : ∀ record ∈ records, (m.cellAt record place).isIntOrNull :=
    fun record among => integral record (Memory.mem_table_of_matching matched among)
  have pointed := Memory.pointed_of_distinctValues resolved matched distinct cells_ keys ints
  generalize Memory.sortById e.primaryKey _ = active at pointed made
  have inside : active ⊆ (m.tableOf target).rows.toList := fun row member => ((pointed.mem_iff row).1 member).1
  rw [made, BaseRow.map_ofRelated keeps known placed inside] at limited
  obtain ⟨row, among, rfl⟩ := List.mem_map.1 (ReportOptions.limited_subset _ _ (limited ▸ member))
  obtain ⟨inTable, pointsTo⟩ := (pointed.mem_iff row).1 among
  exact ⟨row, inTable, rfl, records, matched, pointsTo⟩

/-- A report by a relation that lists empty rows, at a path of integers to records with different integers for primary
keys, has a row for each related record that its filters pin, as many as the limit allows. The rows of the same report
without empty ones are among these. -/
theorem pins_respected (built : o.build m.source now w = (.ok report, after)) (whole : o.groupSets = [])
    (split : o.groupBy = some path) (shown : o.showEmpty = true) (resolved : m.schema.resolve o.entity path = .ok place)
    (relation : place.isRelation) (points : place.target? = some target) (known : m.schema.entity target = .ok e)
    (keys : ((m.tableOf target).rows.toList.map fun row => row.cell e.primaryKey).Nodup)
    (ints : ∀ row ∈ (m.tableOf target).rows.toList, ∃ i, row.cell e.primaryKey = .int i)
    (integral : ∀ record ∈ (m.tableOf o.entity).rows.toList, (m.cellAt record place).isIntOrNull)
    (operands : ∀ p ∈ o.filters, p.Pins path → ∀ v ∈ p.condition.operands, v.isIntOrNull)
    (keeps : m.KeepsKey target report.shape.recordFields) :
    ∃ (places : List (String × ResolvedPath)) (listed : List Record),
      m.resolveFields target report.shape.recordFields = .ok places ∧
      m.PinnedBy o.filters path target e.primaryKey listed ∧
      let rows := listed.map fun row => ⟨.key (row.cell e.primaryKey).key, m.projectRelated e.primaryKey places row⟩
      report.baseRows = o.limited rows ∧
      ∀ start other after', { o with showEmpty := false }.build m.source now start = (.ok other, after') →
        other.baseRows ⊆ rows := by
  obtain ⟨_, _, shaped, _⟩ := ReportOptions.build_eq_ok built
  obtain ⟨rows, _, _, asked, limited⟩ := ReportOptions.askRelated_of_limited built whole split resolved relation points
  obtain ⟨e', ids, found, known', answered, made, which⟩ := BaseRow.askRelated_names asked
  obtain rfl : e = e' := Except.ok.inj (known.symm.trans known')
  obtain ⟨_, rfl⟩ := which.resolve_right fun hidden => by
    rw [shown] at hidden
    cases hidden.1
  obtain ⟨e', places, known', placed, rfl⟩ := Memory.relatedRows_eq_ok_iff.1 answered
  obtain rfl : e = e' := Except.ok.inj (known.symm.trans known')
  have pinned := Memory.pinnedBy_of_perm keys ints operands (Memory.sortById_perm e.primaryKey _)
  generalize Memory.sortById e.primaryKey _ = listed at pinned made
  have inside : listed ⊆ (m.tableOf target).rows.toList := fun row member => ((pinned.mem_iff row).1 member).1
  refine ⟨places, listed, placed, pinned, ?_, ?_⟩
  · rw [limited, made, BaseRow.map_ofRelated keeps known placed inside]
  · intro start other after' built' base member
    obtain ⟨_, _, shaped', _⟩ := ReportOptions.build_eq_ok built'
    rw [ReportOptions.shape_of_showEmpty] at shaped'
    obtain same : report.shape = other.shape := Except.ok.inj (shaped.symm.trans shaped')
    obtain ⟨row, inTable, rfl, records, matched, record, among, pointsTo⟩ :=
      pointed_of_mem_baseRows built' whole split rfl resolved relation points known keys ints integral (same ▸ keeps)
        (same ▸ placed) member
    -- The record that points to it passes the filters at the path, so that the first pin accepts its key.
    refine List.mem_map_of_mem ((pinned.mem_iff row).2 ⟨inTable, fun p first => ?_⟩)
    obtain ⟨_, _, _, pins, _⟩ := id first
    rw [← pointsTo]
    refine Memory.accepts_of_matching matched ?_ (pins.1 ▸ resolved) among
    rw [← same, ReportOptions.rowFilters_eq shaped]
    exact List.mem_append_right _ first.mem

end Report

/-! ## Two clients -/

namespace Pinned

/-- The first client and the second one, whose boss is the seventh, by a primary key of the name. -/
def clients (key : String) : List Record :=
  [1, 2].map fun i => Keyed.ofList [(key, .int i), ("boss", .int 7)]

/-- A sale to the second client and one to no client. -/
def sales : List Record :=
  [Bosses.saleTo (.int 2) 10, Bosses.saleTo .null 20]

def memory (key : String) : Memory where
  schema := Bosses.schema key
  tables := Keyed.ofList [("boss", Table.empty.insert "id" (Keyed.ofList [("id", .int 7)])),
    ("client", (clients key).foldl (fun t record => t.insert key record) Table.empty),
    ("sale", sales.foldl (fun t record => t.insert "id" record) Table.empty)]

/-- The keys of the clients, also of those without a sale. -/
def byClient (key : String) (filters : FilterSet) : ReportOptions :=
  { entity := "sale", registry := .withDefaults, groupBy := some "client", start := some Sales.year.start
    finish := some Sales.year.finish, columns := [.named key], filters, showEmpty := true }

/-- The first client, and then either of them. -/
def pins : FilterSet :=
  [.of "client" (.within [.int 1]), .of "client" (.within [.int 1, .int 2])]

/-- The report is built, and its rows are for the groups. -/
def Lists (o : ReportOptions) (key : String) (groups : List GroupKey) : Prop :=
  ∃ report after, o.build (memory key).source Sales.year.start .empty = (.ok report, after) ∧
    report.baseRows.map BaseRow.group = groups

end Pinned

namespace Report
open Pinned

/-- The first client, to whom there is no sale, is listed where it is pinned, and no other one is, though a later pin
allows it. -/
theorem firstClient_pinned : ∃ (report : Report) (after : Workspace) (listed : List Record),
    (byClient "id" pins).build (memory "id").source Sales.year.start .empty = (.ok report, after) ∧
    report.baseRows.map BaseRow.group = listed.map (fun row => .key (row.cell "id").key) ∧
    (clients "id")[0] ∈ listed ∧ ∀ row ∈ listed, ∀ p ∈ pins, p.accepts (row.cell "id") = true := by
  obtain ⟨report, after, built, _⟩ : Lists (byClient "id" pins) "id" [.key "1"] := ⟨_, _, rfl, rfl⟩
  have pinned : ∀ p ∈ pins, p.Pins "client" :=
    List.forall_mem_cons.2 ⟨⟨rfl, rfl, Or.inr ⟨_, rfl⟩⟩, List.forall_mem_singleton.2 ⟨rfl, rfl, Or.inr ⟨_, rfl⟩⟩⟩
  have integral : ∀ p ∈ pins, ∀ v ∈ p.condition.operands, v.isIntOrNull := by
    simp [pins, Predicate.of, Condition.operands, Value.isIntOrNull]
  have first_iff : ∀ p, FilterSet.FirstPin pins "client" p ↔ p = pins[0] := fun _ =>
    FilterSet.firstPin_cons_iff (pinned pins[0] (by simp [pins]))
  have resolved : (memory "id").schema.resolve "sale" "client" = .ok Bosses.place := rfl
  have points : Bosses.place.target? = some "client" := rfl
  have ints : ∀ row ∈ ((memory "id").tableOf "client").rows.toList, ∃ i, row.cell "id" = .int i :=
    List.forall_mem_cons.2 ⟨⟨1, rfl⟩, List.forall_mem_singleton.2 ⟨2, rfl⟩⟩
  obtain ⟨places, listed, _, pinnedBy, made, _⟩ :=
    pins_respected (e := Bosses.client "id") built rfl rfl rfl resolved rfl points rfl (by decide) ints (by decide)
      (fun p among _ => integral p among)
      (Memory.keepsKey_of_resolve rfl rfl rfl rfl _)
  refine ⟨report, after, listed, built, ?_, ?_, ?_⟩
  · rw [made]
    exact List.map_map
  · refine (pinnedBy.mem_iff _).2 ⟨by decide, fun p first => ?_⟩
    obtain rfl := (first_iff p).1 first
    decide
  · intro row member p among
    refine pinnedBy.wider row member p among (pinned p among) fun first chosen i accepts => ?_
    obtain rfl := (first_iff first).1 chosen
    rw [(pinned _ chosen.mem).accepts_int_iff (integral _ chosen.mem)] at accepts
    rw [(pinned p among).accepts_int_iff (integral p among), List.mem_singleton.1 accepts]
    revert p
    simp [pins, Predicate.of, Condition.operands]

/-- Clients have rows that a filter on them does not accept, where it tests for the missing value, where a pin comes
before it, and where their primary key is named like the path to their boss. The limit leaves out the client that has a
row in the same report without empty ones. -/
theorem pins_missed :
    (∀ key ∈ ["id", "boss__id"],
      (((memory key).tableOf "client").rows.toList.map fun row => row.cell key) = [.int 1, .int 2]) ∧
    (sales.map fun row => row.cell "client") = [.int 2, .null] ∧
    Lists (byClient "id" [.of "client" (.exact .null)]) "id" [.key "1", .key "2"] ∧
    (Predicate.of "client" (.exact .null)).accepts (.int 1) = false ∧
    Lists (byClient "id" [.of "client" (.within [.int 1]), .of "client" (.within [.int 2])]) "id" [.key "1"] ∧
    (Predicate.of "client" (.within [.int 2])).accepts (.int 1) = false ∧
    Lists { byClient "id" [] with limit := some 1 } "id" [.key "1"] ∧
    Lists { byClient "id" [] with limit := some 1, showEmpty := false } "id" [.key "2"] ∧
    Lists (byClient "boss__id" [.of "client" (.exact (.int 1))]) "boss__id" [.key "7"] ∧
    (Predicate.of "client" (.exact (.int 1))).accepts (.int 7) = false :=
  ⟨by decide, rfl, ⟨_, _, rfl, rfl⟩, rfl, ⟨_, _, rfl, rfl⟩, rfl, ⟨_, _, rfl, rfl⟩, ⟨_, _, rfl, rfl⟩, ⟨_, _, rfl, rfl⟩,
    rfl⟩

end Report
end Reporting
